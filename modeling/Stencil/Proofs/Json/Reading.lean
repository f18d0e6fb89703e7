import Stencil.Json.Reader
import Stencil.Proofs.Json.Literal
import Stencil.Proofs.Json.Stripping

/-!
# What strict texts are read as

A strict text is cut into the tokens of its symbols, and the reader takes no notice of where a token
stands but to say where a fault is. So all strict texts of a document are read alike, whatever is
wanted of it: as the same value, or with a fault of the same cause.

If any value is wanted, a document is read whole, unless it nests too deep or has a number out of
range; its strings must be free of half surrogate pairs.
-/

namespace Stencil.Json

/-! ## Tokens -/

/-- A token without its places. -/
def Token.placeless (t : Token) : Token := ⟨.start, .start, t.kind.placeless⟩

namespace Symbol

/-- The kind of token that a symbol is. -/
def kind : Symbol → Kind
  | openTable => .openTable
  | closeTable => .closeTable
  | openList => .openList
  | closeList => .closeList
  | colon => .colon
  | comma => .comma
  | extra => .comma
  | literal l => l.kind

/-- The token of a symbol, without places. -/
def token (s : Symbol) : Token := ⟨.start, .start, s.kind⟩

end Symbol

/-- The end of a document, without its place. -/
def Token.end : Token := ⟨.start, .start, .ending⟩

section

variable {rest : List Symbol} {g cs : List Char}

/-- Blanks are scanned over, and only move the place. -/
theorem scanFrom_blanks (h : Blank g) (p : Position) (cs : List Char) :
    ∃ q, Token.scanFrom p (g ++ cs) = Token.scanFrom q cs := by
  induction g generalizing p with
  | nil => exact ⟨p, rfl⟩
  | cons c g ih =>
    obtain ⟨hc, hg⟩ := List.forall_mem_cons.1 h
    obtain ⟨q, hq⟩ := ih hg (p.past c)
    refine ⟨q, ?_⟩
    rw [List.cons_append, Token.scanFrom, if_pos hc, hq]

/-- A token at the front of a text is scanned, and then the rest is. -/
theorem scanFrom_cons {c : Char} (hblank : Token.isBlank c = false) {p : Position} {k : Kind}
    {tail cs : List Char} (hlexeme : Token.lexeme p c tail = (k, cs)) (hlast : k.isLast = false) :
    ∃ q, Token.scanFrom p (c :: tail) = ⟨p, q, k⟩ :: Token.scanFrom q cs := by
  refine ⟨Token.reached p (c :: tail) cs, ?_⟩
  rw [Token.scanFrom, if_neg (by simp [hblank])]
  simp only [hlexeme, hlast]
  rfl

/-- The token of a literal is not the last one. -/
theorem Kind.isLast_of_placeless {k : Kind} {quoted : Bool} {v : Except Cause Scalar}
    (h : k.placeless = Kind.ofLiteral quoted v) : k.isLast = false := by
  cases v <;> cases k <;> first | rfl | cases h

/-- A literal is scanned as its own token, whatever delimits it. -/
theorem Literal.scanFrom_append (l : Literal) (hcs : Delimits cs) (p : Position) :
    ∃ q t, Token.scanFrom p (l.chars ++ cs) = t :: Token.scanFrom q cs ∧
      t.placeless = (Symbol.literal l).token := by
  obtain ⟨quoted, v, hread⟩ := l.exists_isRead
  have hkind := hread.kind_eq
  obtain ⟨c, tail, hl, hblank, hlexeme⟩ := hread
  obtain ⟨k, hk, hplaceless⟩ := hlexeme p cs hcs
  obtain ⟨q, hq⟩ := scanFrom_cons hblank hk (Kind.isLast_of_placeless hplaceless)
  refine ⟨q, ⟨p, q, k⟩, ?_, ?_⟩
  · rw [hl, List.cons_append, hq]
  · rw [Token.placeless, Symbol.token, Symbol.kind, hkind, ← hplaceless]

/-- A symbol is one token, if what follows it could not belong to it. -/
theorem Symbol.scanFrom_append (s : Symbol) (hcs : s.isLiteral = true → Delimits cs)
    (p : Position) :
    ∃ q t, Token.scanFrom p (s.chars ++ cs) = t :: Token.scanFrom q cs ∧
      t.placeless = s.token := by
  have hsign {c : Char} (hblank : Token.isBlank c = false) {k : Kind}
      (hlexeme : Token.lexeme p c cs = (k, cs)) (hlast : k.isLast = false)
      (hplaceless : k.placeless = k) :
      ∃ q t, Token.scanFrom p (c :: cs) = t :: Token.scanFrom q cs ∧
        t.placeless = ⟨.start, .start, k⟩ := by
    obtain ⟨q, hq⟩ := scanFrom_cons hblank hlexeme hlast
    exact ⟨q, _, hq, by rw [Token.placeless, hplaceless]⟩
  cases s with
  | literal l => exact l.scanFrom_append (hcs rfl) p
  | _ => exact hsign rfl rfl rfl rfl

/-- A character that belongs to no number delimits numbers. -/
theorem delimits_cons {c : Char} (h : c.isDigit = false ∧ c ≠ '.' ∧ c ≠ 'e' ∧ c ≠ 'E') :
    Delimits (c :: cs) := by
  rintro _ ⟨⟩
  exact h

/-- Nothing in a text could belong to a literal that precedes it. -/
theorem Spaced.delimits (h : Spaced (fun _ => Blank) rest cs)
    (hliteral : ∀ s ∈ rest.head?, s.isLiteral = false) : Delimits cs := by
  have hblanks {g cs : List Char} (hg : Blank g) (hcs : Delimits cs) : Delimits (g ++ cs) := by
    cases g with
    | nil => exact hcs
    | cons c g =>
      have hc := hg c List.mem_cons_self
      simp only [Token.isBlank, Bool.or_eq_true, beq_iff_eq] at hc
      refine delimits_cons ?_
      rcases hc with ((rfl | rfl) | rfl) | rfl <;> decide
  cases h with
  | nil hg =>
    rw [← List.append_nil cs]
    exact hblanks hg delimits_nil
  | @cons g s rest cs hg _ =>
    rw [List.append_assoc]
    refine hblanks hg ?_
    cases s with
    | literal l => cases hliteral _ rfl
    | _ => exact delimits_cons (by decide)

/-- The tokens of a strict text are those of its symbols. -/
theorem Spaced.scanFrom {symbols : List Symbol} (h : Spaced (fun _ => Blank) symbols cs)
    (hfitting : Fitting symbols) (p : Position) :
    (Token.scanFrom p cs).map Token.placeless = symbols.map Symbol.token ++ [Token.end] := by
  induction h generalizing p with
  | @nil g hg =>
    obtain ⟨q, hq⟩ := scanFrom_blanks hg p []
    rw [List.append_nil] at hq
    rw [hq, Token.scanFrom]
    rfl
  | @cons g s rest cs hg hrest ih =>
    have hcs : s.isLiteral = true → Delimits cs := by
      cases s with
      | literal l => exact fun _ => hrest.delimits hfitting.1
      | _ => exact fun h => absurd h (by decide)
    obtain ⟨q, hq⟩ := scanFrom_blanks hg p (s.chars ++ cs)
    obtain ⟨q', t, ht, htoken⟩ := s.scanFrom_append hcs q
    rw [List.append_assoc, hq, ht, List.map_cons, htoken, ih hfitting.2]
    rfl

end

/-! ## Readings that differ in places -/

/-- Readings of the same value, or with faults of the same cause. -/
def Alike {α : Type} (x y : Except Fault α) : Prop :=
  x.mapError Fault.cause = y.mapError Fault.cause

/-- A reading alike one that yields a value yields the same. -/
theorem Alike.ok {α : Type} {v : α} {y : Except Fault α} (h : Alike (.ok v) y) : y = .ok v := by
  cases y with
  | error f => cases h
  | ok w =>
    cases h
    rfl

/-- A reading alike one that fails does so with the same cause. -/
theorem Alike.error {α : Type} {f : Fault} {y : Except Fault α} (h : Alike (.error f) y) :
    ∃ f', y = .error f' ∧ f.cause = f'.cause := by
  cases y with
  | error f' => exact ⟨f', rfl, Except.error.inj h⟩
  | ok w => cases h

/-- Readings that are alike may go on alike. -/
theorem Alike.bind {α β : Type} {x y : Except Fault α} (h : Alike x y) {f g : α → Except Fault β}
    (hfg : ∀ a, Alike (f a) (g a)) : Alike (x >>= f) (y >>= g) := by
  cases x with
  | error fault =>
    obtain ⟨fault', rfl, hcause⟩ := h.error
    exact congrArg Except.error hcause
  | ok a =>
    rw [h.ok]
    exact hfg a

theorem Kind.placeless_eq_ending_iff {k : Kind} : k.placeless = .ending ↔ k = .ending := by
  cases k <;> simp [Kind.placeless]

namespace Reader

section

variable (t t' : Token) (stack : List Frame)

/-- Entering a container does not depend on the places of tokens. -/
theorem alike_enter (frame : Frame) : Alike (enter frame t stack) (enter frame t' stack) := by
  unfold enter
  split <;> rfl

/-- Opening a list does not depend on the places of tokens. -/
theorem alike_openList (shape : Shape) :
    Alike (openList shape t stack) (openList shape t' stack) := by
  unfold openList
  split <;> first | exact alike_enter t t' stack _ | rfl

/-- Opening a table does not depend on the places of tokens. -/
theorem alike_openTable (shape : Shape) :
    Alike (openTable shape t stack) (openTable shape t' stack) := by
  unfold openTable
  split <;> first | exact alike_enter t t' stack _ | rfl

/-- Taking a scalar does not depend on the places of tokens. -/
theorem alike_accept : ∀ (shape : Shape) (s : Scalar),
    Alike (accept shape s t stack) (accept shape s t' stack)
  | .optional inner, s => by
    cases s with
    | null => rfl
    | _ => exact alike_accept inner _
  | .integer, s => by
    cases s with
    | number n =>
      cases n with
      | int n =>
        simp only [accept]
        split <;> rfl
      | real x => rfl
    | _ => rfl
  | .any, s => by cases s <;> rfl
  | .skipped, s => by cases s <;> rfl
  | .text, s => by cases s <;> rfl
  | .flag, s => by cases s <;> rfl
  | .list _, s => by cases s <;> rfl
  | .table _, s => by cases s <;> rfl
  | .record _ _, s => by cases s <;> rfl

end

section

variable (t : Token) (stack : List Frame)

/-- Starting a value does not depend on the places of tokens. -/
theorem alike_startValue (shape : Shape) :
    Alike (startValue shape t stack) (startValue shape t.placeless stack) := by
  obtain ⟨start, stop, kind⟩ := t
  cases kind with
  | scalar s => exact alike_accept _ _ stack shape s
  | openList => exact alike_openList _ _ stack shape
  | openTable => exact alike_openTable _ _ stack shape
  | worthless quoted fault => cases shape <;> rfl
  | broken quoted strict lenient => cases shape <;> rfl
  | _ => rfl

/-- Starting an item does not depend on the places of tokens. -/
theorem alike_startItem (frame : Frame) :
    Alike (startItem frame t stack) (startItem frame t.placeless stack) := by
  unfold startItem
  split <;> exact alike_startValue _ _ _

/-- Taking a name does not depend on the places of tokens. -/
theorem alike_fieldName (frame : Frame) (missing : Cause) :
    Alike (fieldName frame missing t stack) (fieldName frame missing t.placeless stack) := by
  obtain ⟨start, stop, kind⟩ := t
  cases kind with
  | scalar s => cases s <;> rfl
  | worthless quoted fault => cases quoted <;> cases frame <;> rfl
  | broken quoted strict lenient => cases quoted <;> cases frame <;> rfl
  | _ => rfl

/-- The first step in a container does not depend on the places of tokens. -/
theorem alike_stepFirst (frame : Frame) :
    Alike (stepFirst frame t stack) (stepFirst frame t.placeless stack) := by
  have hitem := alike_startItem t stack frame
  have hfield := alike_fieldName t stack frame .endInTable
  obtain ⟨start, stop, kind⟩ := t
  unfold stepFirst
  split
  · cases kind <;> first | exact hitem | rfl
  · cases kind <;> first | exact hfield | rfl

/-- The step after an item does not depend on the places of tokens. -/
theorem alike_stepNext (frame : Frame) :
    Alike (stepNext frame t stack) (stepNext frame t.placeless stack) := by
  obtain ⟨start, stop, kind⟩ := t
  unfold stepNext
  split <;> cases kind <;> rfl

/-- The step after a comma does not depend on the places of tokens. -/
theorem alike_stepAgain (frame : Frame) :
    Alike (stepAgain frame t stack) (stepAgain frame t.placeless stack) := by
  have hitem := alike_startItem t stack frame
  have hfield (missing : Cause) := alike_fieldName t stack frame missing
  obtain ⟨start, stop, kind⟩ := t
  unfold stepAgain
  split
  · split
    · exact hitem
    · exact hfield _
  · split
    · have hfull : Alike
          (if frame.isFull then failOn .trailingText ⟨start, stop, kind⟩
            else startItem frame ⟨start, stop, kind⟩ stack)
          (if frame.isFull then failOn .trailingText (Token.placeless ⟨start, stop, kind⟩)
            else startItem frame (Token.placeless ⟨start, stop, kind⟩) stack) := by
        split
        · rfl
        · exact hitem
      cases kind <;> first | exact hfull | rfl
    · cases kind <;> first | exact hfield _ | rfl

/-- A step takes no notice of the places of a token, but to say where a fault is. -/
theorem alike_step (r : Reader) : Alike (r.step t) (r.step t.placeless) := by
  obtain ⟨stage, stack⟩ := r
  cases stage with
  | value shape => exact alike_startValue t stack shape
  | first frame => exact alike_stepFirst t stack frame
  | next frame => exact alike_stepNext t stack frame
  | again frame => exact alike_stepAgain t stack frame
  | colon shape =>
    obtain ⟨start, stop, kind⟩ := t
    cases kind <;> rfl
  | repeated name =>
    obtain ⟨start, stop, kind⟩ := t
    cases kind <;> rfl
  | whole value => rfl

end

/-- A reading of a whole document ends with its value. -/
theorem run_ending {r : Reader} {t : Token} {value : Value} (hstage : r.stage = .whole value)
    (hkind : t.kind = .ending) (ts : List Token) : run r (t :: ts) = .ok value := by
  rw [run, hstage, hkind]

/-- A reading that is not at its end takes a step and goes on. -/
theorem run_cons {r : Reader} {t : Token}
    (h : ∀ value, r.stage = .whole value → t.kind ≠ .ending) (ts : List Token) :
    run r (t :: ts) = r.step t >>= fun r => run r ts := by
  rw [run]
  split
  · exact absurd ‹_› (h _ ‹_›)
  · cases r.step t <;> rfl

/-- The places of the tokens show in those of the faults only. -/
theorem alike_run (ts : List Token) (r : Reader) :
    Alike (run r ts) (run r (ts.map Token.placeless)) := by
  induction ts generalizing r with
  | nil => rfl
  | cons t ts ih =>
    have hending : t.placeless.kind = .ending ↔ t.kind = .ending := Kind.placeless_eq_ending_iff
    by_cases hwhole : ∃ value, r.stage = .whole value ∧ t.kind = .ending
    · obtain ⟨value, hstage, hkind⟩ := hwhole
      rw [List.map_cons, run_ending hstage hkind, run_ending hstage (hending.2 hkind)]
      rfl
    · have hgoes (value : Value) (hstage : r.stage = .whole value) : t.kind ≠ .ending :=
        fun hkind => hwhole ⟨value, hstage, hkind⟩
      rw [List.map_cons, run_cons hgoes,
        run_cons fun value hstage => mt hending.1 (hgoes value hstage)]
      exact (alike_step t r).bind ih

end Reader

/-! ## Strict texts -/

namespace Tree

/-- The tokens of a document, without places. -/
def tokens (d : Tree) : List Token := (d.symbols false).map Symbol.token

/-- A strict text is read as the tokens of its document are. -/
theorem Strict.alike_read {d : Tree} {text : String} (h : d.Strict text) (shape : Shape) :
    Alike (read shape text) (Reader.run ⟨.value shape, []⟩ (d.tokens ++ [Token.end])) := by
  have hrun := Reader.alike_run (Token.scan text) ⟨.value shape, []⟩
  rwa [Token.scan, Spaced.scanFrom h (fitting false d)] at hrun

end Tree

/-! ## Values -/

/-- What comes of some steps: a reader with a property, or a fault at a limit. -/
def Limited (P : Reader → Prop) : Except Fault Reader → Prop
  | .ok r => P r
  | .error fault => fault.cause = .tooDeep ∨ fault.cause = .hugeNumber

/-- Steps that only fail at limits may follow each other. -/
theorem Limited.bind {P Q : Reader → Prop} {x : Except Fault Reader} (h : Limited P x)
    {f : Reader → Except Fault Reader} (hf : ∀ r, P r → Limited Q (f r)) :
    Limited Q (x >>= f) := by
  cases x with
  | error fault => exact h
  | ok r => exact hf r h

/-- The reader after the tokens of some symbols. -/
def Reader.steps (r : Reader) (symbols : List Symbol) : Except Fault Reader :=
  symbols.foldlM (fun r s => r.step s.token) r

theorem Reader.steps_cons (r : Reader) (s : Symbol) (symbols : List Symbol) :
    r.steps (s :: symbols) = r.step s.token >>= fun r => r.steps symbols := List.foldlM_cons

theorem Reader.steps_append (r : Reader) (symbols more : List Symbol) :
    r.steps (symbols ++ more) = r.steps symbols >>= fun r => r.steps more := List.foldlM_append

/-- From a reader, the tokens of some symbols lead to one with a property, or to a limit. -/
def Leads (r : Reader) (symbols : List Symbol) (P : Reader → Prop) : Prop :=
  Limited P (r.steps symbols)

section

variable {r r' : Reader} {symbols more : List Symbol} {P Q : Reader → Prop}

theorem Leads.nil (h : P r) : Leads r [] P := h

/-- One step and then the rest of the symbols lead on. -/
theorem Leads.cons {s : Symbol} (hs : r.step s.token = .ok r') (h : Leads r' symbols P) :
    Leads r (s :: symbols) P := by
  rw [Leads, Reader.steps_cons, hs]
  exact h

/-- Where the first token leads to the same reader, all the tokens do. -/
theorem Leads.of_step_eq {s : Symbol} (hs : r.step s.token = r'.step s.token)
    (h : Leads r' (s :: symbols) P) : Leads r (s :: symbols) P := by
  rw [Leads, Reader.steps_cons] at h ⊢
  rwa [hs]

/-- What is led to may be said more weakly. -/
theorem Leads.mono (h : Leads r symbols P) (hPQ : ∀ r, P r → Q r) : Leads r symbols Q := by
  unfold Leads Limited at *
  split <;> simp_all

/-- Symbols that follow each other lead on from where the first ones led. -/
theorem Leads.append (h : Leads r symbols P) (hmore : ∀ r, P r → Leads r more Q) :
    Leads r (symbols ++ more) Q := by
  rw [Leads, Reader.steps_append]
  exact h.bind hmore

end

/-- The literals of a document are scalars, but for those without a value. -/
theorem Symbol.kind_ne_ending (s : Symbol) : s.kind ≠ .ending := by
  cases s with
  | literal l =>
    obtain ⟨quoted, v, hread⟩ := l.exists_isRead
    rw [kind, hread.kind_eq]
    cases v <;> nofun
  | _ => nofun

/-- A symbol that is no closing bracket has another kind of token. -/
theorem Symbol.kind_ne_closeList {s : Symbol} (h : s.closes = false) : s.kind ≠ .closeList := by
  cases s with
  | literal l =>
    obtain ⟨quoted, v, hread⟩ := l.exists_isRead
    rw [kind, hread.kind_eq]
    cases v <;> nofun
  | closeList => cases h
  | _ => nofun

/-- Running over the tokens of symbols is stepping along them and running on. -/
theorem Reader.run_steps (symbols : List Symbol) (r : Reader) (ts : List Token) :
    run r (symbols.map Symbol.token ++ ts) = r.steps symbols >>= fun r => run r ts := by
  induction symbols generalizing r with
  | nil => rfl
  | cons s symbols ih =>
    rw [List.map_cons, List.cons_append, run_cons fun _ _ => s.kind_ne_ending, steps_cons,
      bind_assoc]
    exact congrArg (r.step s.token >>= ·) (funext ih)

/-- The strings among some symbols are free of half surrogate pairs. -/
def AllPaired (symbols : List Symbol) : Prop :=
  ∀ pieces, Symbol.literal (.string pieces) ∈ symbols → Paired pieces

/-- The strings among symbols are paired if those of symbols around them are. -/
theorem AllPaired.of_append {symbols more : List Symbol} (h : AllPaired (symbols ++ more)) :
    AllPaired symbols ∧ AllPaired more :=
  ⟨fun pieces hmem => h pieces (List.mem_append_left _ hmem),
    fun pieces hmem => h pieces (List.mem_append_right _ hmem)⟩

theorem AllPaired.of_cons {s : Symbol} {symbols : List Symbol} (h : AllPaired (s :: symbols)) :
    AllPaired [s] ∧ AllPaired symbols := @AllPaired.of_append [s] symbols h

/-- A reader right after a complete value. -/
def Completed (stack : List Frame) (r : Reader) : Prop := ∃ v, r = Reader.complete v stack

/-- A scalar is a complete value where anything is wanted. -/
theorem step_scalar (s : Scalar) (p q : Position) (stack : List Frame) :
    ∃ v, Reader.step ⟨.value .any, stack⟩ ⟨p, q, .scalar s⟩ = .ok (Reader.complete v stack) := by
  cases s <;> exact ⟨_, rfl⟩

/-- A literal whose strings are paired leads to a complete value, or to a limit. -/
theorem leads_literal (l : Literal) (h : AllPaired [.literal l]) (stack : List Frame) :
    Leads ⟨.value .any, stack⟩ [.literal l] (Completed stack) := by
  -- A literal has a value, or is a number that is too large for any.
  have hlimited {quoted : Bool} {v : Except Cause Scalar} (hkind : l.kind = .ofLiteral quoted v)
      (hv : ∀ cause, v = .error cause → cause = .hugeNumber) :
      Leads ⟨.value .any, stack⟩ [.literal l] (Completed stack) := by
    cases v with
    | ok s =>
      obtain ⟨value, hvalue⟩ := step_scalar s .start .start stack
      refine Leads.cons ?_ (Leads.nil ⟨value, rfl⟩)
      rw [Symbol.token, Symbol.kind, hkind]
      exact hvalue
    | error cause =>
      obtain rfl := hv cause rfl
      rw [Leads, Reader.steps_cons, Symbol.token, Symbol.kind, hkind]
      exact .inr rfl
  cases l with
  | null => exact hlimited Literal.isRead_null.kind_eq nofun
  | bool b => exact hlimited (Literal.isRead_bool b).kind_eq nofun
  | number n =>
    obtain ⟨v, hv, hread⟩ := Literal.isRead_number n
    refine hlimited hread.kind_eq fun cause hcause => hv cause ?_
    cases v <;> cases hcause
    rfl
  | string pieces =>
    obtain ⟨v, hv, hread⟩ := Literal.isRead_string pieces
    refine hlimited hread.kind_eq fun cause hcause => ?_
    cases v <;> cases hcause
    exact absurd (h pieces List.mem_cons_self) (hv cause rfl)

/-! ### Containers -/

/-- A list that is due to have an item. -/
def ItemDue (item : Shape) (stage : Stage) (items : List Value) : Prop :=
  stage = .first (.list item items) ∨ stage = .again (.list item items)

/-- A table that is due to have a field. -/
def FieldDue (stage : Stage) (fields : Fields) : Prop :=
  ∃ name, stage = .first (.table .any fields name) ∨ stage = .again (.table .any fields name)

/-- A reader right after an item of a list. -/
def InList (stack : List Frame) (r : Reader) : Prop :=
  ∃ items, r = ⟨.next (.list .any items), stack⟩

/-- A reader right after a field of a table. -/
def InTable (stack : List Frame) (r : Reader) : Prop :=
  ∃ fields name, r = ⟨.next (.table .any fields name), stack⟩

section

variable {item : Shape} {stage : Stage} {items : List Value} {fields : Fields}

/-- Where an item is due, a token is taken as the start of a value in the list. -/
theorem step_item (h : ItemDue item stage items) {t : Token} (hclose : t.kind ≠ .closeList)
    (hending : t.kind ≠ .ending) (stack : List Frame) :
    Reader.step ⟨stage, stack⟩ t = Reader.step ⟨.value item, .list item items :: stack⟩ t := by
  rcases h with rfl | rfl
  · change Reader.stepFirst _ _ _ = _
    rw [Reader.stepFirst, if_pos (by rfl)]
    split
    · exact absurd ‹_› hclose
    · exact absurd ‹_› hending
    · rfl
  · change Reader.stepAgain _ _ _ = _
    rw [Reader.stepAgain, if_neg (by simp [Frame.isSkipped]), if_pos (by rfl)]
    split
    · exact absurd ‹_› hclose
    · rfl

/-- An item of a list is read as a value is. -/
theorem leads_item (h : ItemDue .any stage items) {d : Tree}
    (hd : ∀ stack, Leads ⟨.value .any, stack⟩ (d.symbols false) (Completed stack))
    (stack : List Frame) : Leads ⟨stage, stack⟩ (d.symbols false) (InList stack) := by
  have hvalue := hd (.list .any items :: stack)
  obtain ⟨s, rest, hs, hcloses⟩ := d.exists_symbols_eq_cons false
  rw [hs] at hvalue ⊢
  -- The first token is no closing bracket, so the list takes it as the start of a value.
  have hstep := step_item h (t := s.token) (Symbol.kind_ne_closeList hcloses) s.kind_ne_ending stack
  refine (hvalue.of_step_eq hstep).mono ?_
  rintro _ ⟨v, rfl⟩
  exact ⟨v :: items, rfl⟩

/-- A field of a table is read as its name and a value. -/
theorem leads_field (h : FieldDue stage fields) {pieces : List Piece} (hp : Paired pieces)
    {d : Tree} (hd : ∀ stack, Leads ⟨.value .any, stack⟩ (d.symbols false) (Completed stack))
    (stack : List Frame) :
    Leads ⟨stage, stack⟩ (.literal (.string pieces) :: .colon :: d.symbols false)
      (InTable stack) := by
  obtain ⟨v, hv, hread⟩ := Literal.isRead_string pieces
  cases v with
  | error cause => exact absurd hp (hv cause rfl)
  | ok cs =>
    have hname : Reader.step ⟨stage, stack⟩ (Symbol.literal (.string pieces)).token =
        .ok ⟨.colon .any, .table .any fields (String.ofList cs) :: stack⟩ := by
      rw [Symbol.token, Symbol.kind, hread.kind_eq]
      obtain ⟨_, rfl | rfl⟩ := h <;> rfl
    refine Leads.cons hname (Leads.cons rfl ((hd _).mono ?_))
    rintro _ ⟨v, rfl⟩
    exact ⟨_, _, rfl⟩

end

/-- A reader in a container that may be closed. -/
def Closable (isList : Bool) (stack : List Frame) (r : Reader) : Prop :=
  ∃ frame, frame.isList = isList ∧ (r = ⟨.first frame, stack⟩ ∨ r = ⟨.next frame, stack⟩)

/-- A list may be closed after an item. -/
theorem InList.closable {stack : List Frame} {r : Reader} (h : InList stack r) :
    Closable true stack r := by
  obtain ⟨items, rfl⟩ := h
  exact ⟨_, rfl, .inr rfl⟩

/-- A table may be closed after a field. -/
theorem InTable.closable {stack : List Frame} {r : Reader} (h : InTable stack r) :
    Closable false stack r := by
  obtain ⟨fields, name, rfl⟩ := h
  exact ⟨_, rfl, .inr rfl⟩

/-- A closing bracket completes the value of a container. -/
theorem Closable.leads {isList : Bool} {stack : List Frame} {r : Reader}
    (h : Closable isList stack r) :
    Leads r [if isList then .closeList else .closeTable] (Completed stack) := by
  obtain ⟨frame, hlist, rfl | rfl⟩ := h
  · refine Leads.cons ?_ (Leads.nil ⟨frame.close, rfl⟩)
    change Reader.stepFirst _ _ _ = _
    rw [Reader.stepFirst, hlist]
    cases isList <;> rfl
  · refine Leads.cons ?_ (Leads.nil ⟨frame.close, rfl⟩)
    change Reader.stepNext _ _ _ = _
    rw [Reader.stepNext, hlist]
    cases isList <;> rfl

/-- An opening bracket leads into a container, unless it nests too deep. -/
theorem leads_enter {frame : Frame} {stack : List Frame} {s : Symbol}
    (h : Reader.step ⟨.value .any, stack⟩ s.token = Reader.enter frame s.token stack) :
    Leads ⟨.value .any, stack⟩ [s] (· = ⟨.first frame, stack⟩) := by
  rw [Leads, Reader.steps_cons, h, Reader.enter]
  split
  · exact .inl rfl
  · rfl

mutual

/-- A value is read whole, by induction on the document; containers go through their items. -/
theorem leads_value :
    ∀ (d : Tree) (stack : List Frame), AllPaired (d.symbols false) →
      Leads ⟨.value .any, stack⟩ (d.symbols false) (Completed stack)
  | .literal l, stack, h => leads_literal l h stack
  | .list items extra, stack, h => by
    rw [Tree.symbols, Tree.extraSymbols_strict, List.append_nil] at h ⊢
    have hitems := leads_items items stack h.of_append.1.of_cons.2
    have hopen : Leads ⟨.value .any, stack⟩ (.openList :: Tree.itemSymbols false items)
        (Closable true stack) := (leads_enter rfl).append fun _ hr => hr ▸ hitems
    exact hopen.append fun _ hr => hr.leads
  | .table fields extra, stack, h => by
    rw [Tree.symbols, Tree.extraSymbols_strict, List.append_nil] at h ⊢
    have hfields := leads_fields fields stack h.of_append.1.of_cons.2
    have hopen : Leads ⟨.value .any, stack⟩ (.openTable :: Tree.fieldSymbols false fields)
        (Closable false stack) := (leads_enter rfl).append fun _ hr => hr ▸ hfields
    exact hopen.append fun _ hr => hr.leads

/-- The items of a list lead to where the list may be closed. -/
theorem leads_items :
    ∀ (ds : List Tree) (stack : List Frame), AllPaired (Tree.itemSymbols false ds) →
      Leads ⟨.first (.list .any []), stack⟩ (Tree.itemSymbols false ds) (Closable true stack)
  | [], _, _ => Leads.nil ⟨_, rfl, .inl rfl⟩
  | d :: ds, stack, h => by
    rw [Tree.itemSymbols] at h ⊢
    have hd (stack : List Frame) := leads_value d stack h.of_append.1
    refine (leads_item (.inl rfl) hd stack).append fun r hr => ?_
    exact leads_moreItems ds hr h.of_append.2

/-- The further items of a list lead to where the list may be closed. -/
theorem leads_moreItems :
    ∀ (ds : List Tree) {stack : List Frame} {r : Reader}, InList stack r →
      AllPaired (Tree.moreItems false ds) →
      Leads r (Tree.moreItems false ds) (Closable true stack)
  | [], _, _, hr, _ => Leads.nil hr.closable
  | d :: ds, stack, _, ⟨items, rfl⟩, h => by
    rw [Tree.moreItems] at h ⊢
    have hd (stack : List Frame) := leads_value d stack h.of_append.1.of_cons.2
    refine (Leads.cons rfl (leads_item (.inr rfl) hd stack)).append fun r hr => ?_
    exact leads_moreItems ds hr h.of_append.2

/-- The fields of a table lead to where the table may be closed. -/
theorem leads_fields :
    ∀ (ds : List (List Piece × Tree)) (stack : List Frame),
      AllPaired (Tree.fieldSymbols false ds) →
      Leads ⟨.first (.table .any [] ""), stack⟩ (Tree.fieldSymbols false ds)
        (Closable false stack)
  | [], _, _ => Leads.nil ⟨_, rfl, .inl rfl⟩
  | (pieces, d) :: ds, stack, h => by
    rw [Tree.fieldSymbols] at h ⊢
    have hp := h.of_append.1 pieces List.mem_cons_self
    have hd (stack : List Frame) := leads_value d stack h.of_append.1.of_cons.2.of_cons.2
    refine (leads_field ⟨_, .inl rfl⟩ hp hd stack).append fun r hr => ?_
    exact leads_moreFields ds hr h.of_append.2

/-- The further fields of a table lead to where the table may be closed. -/
theorem leads_moreFields :
    ∀ (ds : List (List Piece × Tree)) {stack : List Frame} {r : Reader}, InTable stack r →
      AllPaired (Tree.moreFields false ds) →
      Leads r (Tree.moreFields false ds) (Closable false stack)
  | [], _, _, hr, _ => Leads.nil hr.closable
  | (pieces, d) :: ds, stack, _, ⟨fields, name, rfl⟩, h => by
    rw [Tree.moreFields] at h ⊢
    have hfield := h.of_append.1.of_cons.2
    have hp := hfield pieces List.mem_cons_self
    have hd (stack : List Frame) := leads_value d stack hfield.of_cons.2.of_cons.2
    refine (Leads.cons rfl (leads_field ⟨_, .inr rfl⟩ hp hd stack)).append fun r hr => ?_
    exact leads_moreFields ds hr h.of_append.2

end

/-! ## Whole documents -/

/-- The strings of a document are free of half surrogate pairs. -/
def Tree.Paired (d : Tree) : Prop := AllPaired (d.symbols false)

/-- A reading that yields a value, or fails at a limit of the reader. -/
def Bounded (x : Except Fault Value) : Prop :=
  ∀ fault, x = .error fault → fault.cause = .tooDeep ∨ fault.cause = .hugeNumber

/-- A document whose strings are paired is read, or fails at a limit. -/
theorem Tree.Paired.bounded {d : Tree} (h : d.Paired) :
    Bounded (Reader.run ⟨.value .any, []⟩ (d.tokens ++ [Token.end])) := by
  intro fault hfault
  have hleads := leads_value d [] h
  rw [tokens, Reader.run_steps] at hfault
  unfold Leads at hleads
  cases hsteps : Reader.steps ⟨.value .any, []⟩ (d.symbols false) with
  | error fault' =>
    rw [hsteps] at hleads hfault
    obtain rfl := Except.error.inj hfault
    exact hleads
  | ok r =>
    rw [hsteps] at hleads hfault
    obtain ⟨v, rfl⟩ := hleads
    cases hfault

/-- Comments and trailing commas make no difference to what a document is read as, whatever is
wanted of it. Where any value is wanted, only the limits of the reader keep it from yielding one. A
text without comments and trailing commas is left alone. -/
theorem read_stripComments {d : Tree} {strict lenient : String} (hstrict : d.Strict strict)
    (hlenient : d.Lenient lenient) :
    (∀ shape, (read shape (stripComments lenient)).mapError Fault.cause =
      (read shape strict).mapError Fault.cause) ∧
    (d.Paired →
      (∃ v, read .any (stripComments lenient) = .ok v ∧ read .any strict = .ok v) ∨
      ∃ f f', read .any (stripComments lenient) = .error f ∧ read .any strict = .error f' ∧
        f.cause = f'.cause ∧ (f.cause = .tooDeep ∨ f.cause = .hugeNumber)) ∧
    ∀ d' : Tree, d'.Strict lenient → stripComments lenient = lenient := by
  have halike (shape : Shape) : Alike (read shape (stripComments lenient)) (read shape strict) :=
    (hlenient.stripComments.alike_read shape).trans (hstrict.alike_read shape).symm
  refine ⟨halike, fun hpaired => ?_, fun d' hd' => hd'.stripComments_eq⟩
  have hany := halike .any
  cases hread : read .any (stripComments lenient) with
  | ok v =>
    rw [hread] at hany
    exact .inl ⟨v, rfl, hany.ok⟩
  | error f =>
    have hrun := hlenient.stripComments.alike_read .any
    rw [hread] at hany hrun
    obtain ⟨f', hstrict', hcause⟩ := hany.error
    obtain ⟨f'', hbound, hcause'⟩ := hrun.error
    exact .inr ⟨f, f', rfl, hstrict', hcause, hcause' ▸ hpaired.bounded f'' hbound⟩

/-- A string that looks like the end of a list and a comment. -/
def commentLike : List Piece :=
  [.escape '"' '"' (by decide), .plain ',' (by decide), .plain ']' (by decide),
    .plain '/' (by decide), .plain '*' (by decide)]

/-- A list of that string and of nothing. -/
def commentLikeList (extra : Bool) : Tree :=
  .list [.literal (.string commentLike), .literal .null] extra

/-- The list has a strict text, in which the string looks like the end of the list and a comment. -/
theorem commentLikeList_strict (extra : Bool) :
    (commentLikeList extra).Strict "[\"\\\",]/*\",null]" := by
  have htext : ("[\"\\\",]/*\",null]" : String).toList =
      ['[', '"', '\\', '"', ',', ']', '/', '*', '"', ',', 'n', 'u', 'l', 'l', ']'] := by decide
  have hnil : Blank [] := nofun
  rw [Tree.Strict, htext]
  iterate 5 refine .cons (g := []) hnil ?_
  exact .nil hnil

/-- The list has a lenient text with comments around and inside of it. -/
theorem commentLikeList_lenient :
    (commentLikeList true).Lenient "[/*]*/\"\\\",]/*\",null,// ]\n]//" := by
  have htext : ("[/*]*/\"\\\",]/*\",null,// ]\n]//" : String).toList =
      ['[', '/', '*', ']', '*', '/', '"', '\\', '"', ',', ']', '/', '*', '"', ',', 'n', 'u', 'l',
        'l', ',', '/', '/', ' ', ']', '\n', ']', '/', '/'] := by decide
  have hnil : Gap false [] := .nil
  have hblock : Gap false ['/', '*', ']', '*', '/'] := @Gap.block _ [']'] [] (by decide) .nil
  have hline : Gap false ['/', '/', ' ', ']', '\n'] := @Gap.line _ [' ', ']'] [] (by decide) .nil
  have hlast : Gap true ['/', '/'] := @Gap.lastLine [] nofun
  rw [Tree.Lenient, htext]
  refine .cons hnil (.cons hblock ?_)
  iterate 3 refine .cons hnil ?_
  exact .cons hline (.nil hlast)

/-- The string holds no half surrogate pair. -/
theorem commentLikeList_paired : (commentLikeList true).Paired := by
  intro pieces h
  have hpieces : pieces = commentLike := by
    simpa [commentLikeList, Tree.symbols, Tree.itemSymbols, Tree.moreItems, Tree.extraSymbols]
      using h
  rw [hpieces]
  exact .escape (.plain (.plain (.plain (.plain .nil))))

/-- Both comments and the trailing comma of the list go, and its string stays as it is. -/
theorem read_stripComments_commentLikeList :
    (∃ v, read .any (stripComments "[/*]*/\"\\\",]/*\",null,// ]\n]//") = .ok v ∧
      read .any "[\"\\\",]/*\",null]" = .ok v) ∧
    stripComments "[\"\\\",]/*\",null]" = "[\"\\\",]/*\",null]" := by
  have hread : (read .any "[\"\\\",]/*\",null]").toOption.isSome = true := by
    decide +kernel
  have hstrict := commentLikeList_strict false
  refine ⟨?_, (read_stripComments hstrict (Spaced.gaps hstrict)).2.2 _ hstrict⟩
  rcases (read_stripComments (commentLikeList_strict true) commentLikeList_lenient).2.1
    commentLikeList_paired with hok | ⟨f, f', _, hf, _⟩
  · exact hok
  · rw [hf] at hread
    cases hread

end Stencil.Json
