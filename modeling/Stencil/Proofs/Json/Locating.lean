import Stencil.Json.Reader
import Stencil.Proofs.Text.Utf8

/-!
# Faults lie in the text

A reading that succeeds and one that fails both leave an end of the text they were given, and the
place of a fault is found by counting line ends up to there. So a document that cannot be read goes
wrong in one of its lines.
-/

namespace Stencil.Json

/-! ## Places -/

namespace Position

/-- Whether a place is in one of the first lines. -/
def Within (lines : Nat) (p : Position) : Prop := 1 ≤ p.line ∧ p.line ≤ lines

variable (p : Position)

/-- A line end leads to the next line, and other characters stay in theirs. -/
theorem line_past (c : Char) : (p.past c).line = p.line + if c = '\n' then 1 else 0 := by
  unfold past
  by_cases hc : c = '\n'
  · simp [hc]
  · simp [hc]

/-- A text leads as many lines further as it has line ends. -/
theorem line_pastAll (cs : List Char) : (p.pastAll cs).line = p.line + cs.count '\n' := by
  induction cs generalizing p with
  | nil => rfl
  | cons c cs ih =>
    rw [pastAll, List.foldl_cons, ← pastAll, ih, line_past, List.count_cons]
    simp only [beq_iff_eq]
    omega

/-- Octets lead as many lines further as there are line ends among them. -/
theorem line_foldl_pastOctet (octets : List UInt8) :
    (octets.foldl pastOctet p).line = p.line + octets.count 10 := by
  induction octets generalizing p with
  | nil => rfl
  | cons b octets ih =>
    rw [List.foldl_cons, ih, List.count_cons, pastOctet]
    simp only [beq_iff_eq]
    split
    · simp
      omega
    · simp

/-- The octets of a text have the line ends of the text. -/
theorem count_encode (cs : List Char) : (Text.Utf8.encode cs).count 10 = cs.count '\n' := by
  induction cs with
  | nil => rfl
  | cons c cs ih =>
    have hc : (String.utf8EncodeChar c).count 10 = if c = '\n' then 1 else 0 := by
      by_cases heq : c = '\n'
      · rw [heq]
        rfl
      · rw [if_neg heq, List.count_eq_zero]
        intro hmem
        have hc := Text.Utf8.eq_of_mem_encodeChar hmem (by decide)
        exact heq (Char.toNat_inj.1 hc)
    rw [Text.Utf8.encode, List.flatMap_cons, List.count_append, ← Text.Utf8.encode, ih, hc,
      List.count_cons, Nat.add_comm]
    simp only [beq_iff_eq]

/-- Some octets of a text lead no further than its line ends. -/
theorem line_pastOctets (cs : List Char) (count : Nat) :
    p.line ≤ (p.pastOctets cs count).line ∧
      (p.pastOctets cs count).line ≤ p.line + cs.count '\n' := by
  have hcount := calc
    ((Text.Utf8.encode (cs.take count)).take count).count 10
      ≤ (Text.Utf8.encode (cs.take count)).count 10 := (List.take_sublist _ _).count_le _
    _ = (cs.take count).count '\n' := count_encode _
    _ ≤ cs.count '\n' := (List.take_sublist _ _).count_le _
  rw [pastOctets, line_foldl_pastOctet]
  omega

end Position

/-! ## Readings -/

namespace Lexeme

/-- A reading leaves an end of the text it was given, whether it fails or not. -/
def Leaves {α : Type} (cs : List Char) : Reading α → Prop
  | .ok (_, rest) => rest <:+ cs
  | .error f => f.rest <:+ cs

variable {α : Type} {cs ds : List Char}

/-- A reading of an end of a text leaves an end of the text. -/
theorem Leaves.of_suffix {r : Reading α} (h : Leaves ds r) (hds : ds <:+ cs) : Leaves cs r := by
  cases r with
  | error f => exact List.IsSuffix.trans h hds
  | ok r => exact List.IsSuffix.trans h hds

theorem Leaves.cons {r : Reading α} (h : Leaves cs r) (c : Char) : Leaves (c :: cs) r :=
  h.of_suffix (List.suffix_cons c cs)

/-- Changing the value of a reading changes nothing about what it leaves. -/
theorem Leaves.map {β : Type} {r : Reading α} (h : Leaves cs r) (f : α → β) :
    Leaves cs (r.map fun v => (f v.1, v.2)) := by
  cases r with
  | error f => exact h
  | ok r => exact h

theorem suffix_afterDigits (cs : List Char) : afterDigits cs <:+ cs := List.dropWhile_suffix _

/-- A text without its sign is an end of it. -/
theorem suffix_signless (cs : List Char) : signless cs <:+ cs := by
  unfold signless
  split
  · exact List.suffix_cons _ _
  · exact List.suffix_cons _ _
  · exact List.suffix_rfl

/-- Reading a word leaves an end of the text. -/
theorem leaves_word (letters cs : List Char) : Leaves cs (word letters cs) := by
  fun_induction word letters cs with
  | case1 rest => exact List.suffix_rfl
  | case2 => exact List.nil_suffix
  | case3 l letters c rest _ ih => exact ih.cons c
  | case4 => exact List.suffix_rfl

/-! ### Numbers -/

/-- Making a double leaves the text. -/
theorem leaves_real (negative : Bool) (significand : Nat) (power : Int) (cs : List Char) :
    Leaves cs (real negative significand power cs) := by
  unfold real
  split <;> exact List.suffix_rfl

/-- The digits that are too many are an end of the text. -/
theorem overflowing_suffix {n : Nat} {rest : List Char} (h : overflowing n cs = some rest) :
    rest <:+ cs := by
  fun_induction overflowing n cs with
  | case1 => cases h
  | case2 n c cs _ next _ ih => exact (ih h).trans (List.suffix_cons c cs)
  | case3 n c cs =>
    cases h
    exact List.suffix_cons c _
  | case4 => cases h

/-- Reading a power of ten leaves an end of the text. -/
theorem leaves_power (negative : Bool) (significand : Nat) (shift : Int) (cs : List Char) :
    Leaves cs (power negative significand shift cs) := by
  unfold power
  have hsign := suffix_signless cs
  extract_lets down
  split
  · exact List.nil_suffix
  · rename_i c rest heq
    rw [heq] at hsign
    have hdigits := ((suffix_afterDigits rest).trans (List.suffix_cons c rest)).trans hsign
    split
    · exact hsign
    · split
      · have hexcess := ((overflowing_suffix ‹_›).trans (List.suffix_cons c rest)).trans hsign
        split
        · exact hexcess
        · exact hdigits
      · exact (leaves_real _ _ _ _).of_suffix hdigits

/-- Reading what follows the digits of a number leaves an end of the text. -/
theorem leaves_afterFraction (negative : Bool) (significand : Nat) (shift : Int) (cs : List Char) :
    Leaves cs (afterFraction negative significand shift cs) := by
  unfold afterFraction
  split
  · exact (leaves_power _ _ _ _).cons _
  · exact (leaves_power _ _ _ _).cons _
  · exact leaves_real _ _ _ _

/-- Reading the digits after the point leaves an end of the text. -/
theorem leaves_fraction (negative : Bool) (significand : Nat) (shift : Int) (cs : List Char) :
    Leaves cs (fraction negative significand shift cs) := by
  unfold fraction
  split
  · split
    · exact List.nil_suffix
    · exact List.suffix_rfl
  · exact (leaves_afterFraction _ _ _ _).of_suffix (suffix_afterDigits cs)

/-- Reading what follows the whole digits of a number leaves an end of the text. -/
theorem leaves_afterWhole (negative : Bool) (significand dropped : Nat) (cs : List Char) :
    Leaves cs (afterWhole negative significand dropped cs) := by
  unfold afterWhole
  split
  · exact (leaves_fraction _ _ _ _).cons _
  · exact (leaves_power _ _ _ _).cons _
  · exact (leaves_power _ _ _ _).cons _
  · split
    · split <;> exact List.suffix_rfl
    · exact leaves_real _ _ _ _

/-- Reading a number leaves an end of the text. -/
theorem leaves_number (negative : Bool) (cs : List Char) : Leaves cs (number negative cs) := by
  unfold number
  split
  · exact List.nil_suffix
  · split
    · split
      · split
        · exact List.suffix_cons _ _
        · exact (leaves_afterWhole _ _ _ _).cons _
      · exact (leaves_afterWhole _ _ _ _).cons _
    · split
      · exact ((leaves_afterWhole _ _ _ _).of_suffix (suffix_afterDigits _)).cons _
      · exact List.suffix_rfl

/-- Reading over a power of ten leaves an end of the text. -/
theorem leaves_skipPower (cs : List Char) : Leaves cs (skipPower cs) := by
  have hsign := suffix_signless cs
  unfold skipPower
  split
  · exact List.nil_suffix
  · rename_i c rest heq
    rw [heq] at hsign
    split
    · exact ((suffix_afterDigits rest).trans (List.suffix_cons c rest)).trans hsign
    · exact hsign

/-- Reading over what follows the digits of a number leaves an end of the text. -/
theorem leaves_skipAfterFraction (cs : List Char) : Leaves cs (skipAfterFraction cs) := by
  unfold skipAfterFraction
  split
  · exact (leaves_skipPower _).cons _
  · exact (leaves_skipPower _).cons _
  · exact List.suffix_rfl

/-- Reading over what follows the whole digits leaves an end of the text. -/
theorem leaves_skipAfterWhole (cs : List Char) : Leaves cs (skipAfterWhole cs) := by
  unfold skipAfterWhole
  split
  · split
    · exact List.suffix_cons _ _
    · exact ((leaves_skipAfterFraction _).of_suffix (suffix_afterDigits _)).cons _
  · exact leaves_skipAfterFraction _

/-- Reading over a number leaves an end of the text. -/
theorem leaves_skipNumber (cs : List Char) : Leaves cs (skipNumber cs) := by
  unfold skipNumber
  split
  · exact List.nil_suffix
  · split
    · split
      · split
        · exact List.suffix_cons _ _
        · exact (leaves_skipAfterWhole _).cons _
      · exact List.nil_suffix
    · split
      · exact ((leaves_skipAfterWhole _).of_suffix (suffix_afterDigits _)).cons _
      · exact List.suffix_rfl

/-! ### Strings -/

/-- Reading a code unit leaves an end of the text. -/
theorem leaves_codeUnit (cs : List Char) : Leaves cs (codeUnit cs) := by
  unfold codeUnit
  split
  · exact List.drop_suffix 4 cs
  · split
    · exact List.nil_suffix
    · exact List.suffix_rfl

/-- Reading the second half of a surrogate pair leaves an end of the text. -/
theorem leaves_secondHalf (first : Nat) (cs : List Char) : Leaves cs (secondHalf first cs) := by
  unfold secondHalf
  split
  · exact List.nil_suffix
  · split
    · exact List.nil_suffix
    · rename_i cs
      have hunit := ((leaves_codeUnit cs).cons 'u').cons '\\'
      split
      · rename_i heq
        rwa [heq] at hunit
      · rename_i second rest heq
        rw [heq] at hunit
        have hrest : rest <:+ '\\' :: 'u' :: cs := hunit
        split <;> exact hrest
    · exact List.suffix_cons '\\' _
  · exact List.suffix_rfl

/-- Reading an escape leaves an end of the text. -/
theorem leaves_escape (cs : List Char) : Leaves cs (escape cs) := by
  unfold escape
  split
  · exact List.nil_suffix
  · rename_i c rest
    have hunit := (leaves_codeUnit rest).cons c
    split
    · exact List.suffix_cons _ _
    · split
      · split
        · rename_i heq
          rwa [heq] at hunit
        · rename_i heq
          rw [heq] at hunit
          split
          · exact hunit
          · split
            · exact (leaves_secondHalf _ _).of_suffix hunit
            · exact hunit
      · exact List.suffix_rfl

/-- Reading over an escape leaves an end of the text. -/
theorem leaves_skipEscape (cs : List Char) : Leaves cs (skipEscape cs) := by
  unfold skipEscape
  split
  · exact List.nil_suffix
  · rename_i c rest
    have hunit := (leaves_codeUnit rest).cons c
    split
    · exact List.suffix_cons _ _
    · split
      · split
        · rename_i heq
          rwa [heq] at hunit
        · rename_i heq
          rwa [heq] at hunit
      · exact List.suffix_rfl

/-- Reading a string leaves an end of the text. -/
theorem leaves_text (cs : List Char) : Leaves cs (text cs) := by
  fun_induction text cs with
  | case1 => exact List.nil_suffix
  | case2 => exact List.suffix_cons _ _
  | case3 c rest _ _ f heq =>
    have hescape := (leaves_escape rest).cons c
    rwa [heq] at hescape
  | case4 c rest _ _ value after heq ih =>
    have hescape := (leaves_escape rest).cons c
    rw [heq] at hescape
    exact (ih.map (value :: ·)).of_suffix hescape
  | case5 => exact List.suffix_rfl
  | case6 c rest _ _ _ ih => exact (ih.map (c :: ·)).cons c

/-- Reading over a string leaves an end of the text. -/
theorem leaves_skipText (cs : List Char) : Leaves cs (skipText cs) := by
  fun_induction skipText cs with
  | case1 => exact List.nil_suffix
  | case2 => exact List.suffix_cons _ _
  | case3 c rest _ _ f heq =>
    have hescape := (leaves_skipEscape rest).cons c
    rwa [heq] at hescape
  | case4 c rest _ _ u after heq ih =>
    have hescape := (leaves_skipEscape rest).cons c
    rw [heq] at hescape
    exact ih.of_suffix hescape
  | case5 => exact List.suffix_rfl
  | case6 c rest _ _ _ ih => exact ih.cons c

end Lexeme

/-! ## Tokens -/

/-- The faults that a token brings along. -/
def Kind.faults : Kind → List Fault
  | .worthless _ fault => [fault]
  | .broken _ strict lenient => [strict, lenient]
  | _ => []

/-- A fault that a token is to blame for: one it brings along, or one at its place. -/
def Token.Blamed (t : Token) (f : Fault) : Prop :=
  f ∈ t.kind.faults ∨ f.position = t.start ∨ f.position = t.peek ∨ f.position = t.stop

namespace Token

/-- A token in the first lines, with the faults it brings along. -/
structure Within (lines : Nat) (t : Token) : Prop where
  start : t.start.Within lines
  stop : t.stop.Within lines
  faults : ∀ f ∈ t.kind.faults, f.position.Within lines

variable {lines : Nat} {p : Position} {cs rest : List Char}

/-- A fault that a token in the first lines is to blame for is in these lines. -/
theorem Within.of_blamed {t : Token} (h : t.Within lines) {f : Fault} (hf : t.Blamed f) :
    f.position.Within lines := by
  have hpeek : t.peek.line = t.start.line := by
    unfold peek
    split <;> rfl
  rcases hf with hf | hf | hf | hf
  · exact h.faults f hf
  · rw [hf]
    exact h.start
  · rw [hf, Position.Within, hpeek]
    exact h.start
  · rw [hf]
    exact h.stop

/-- The lines up to `p` and those of the text that continues there are enough. -/
def Covers (lines : Nat) (p : Position) (cs : List Char) : Prop :=
  1 ≤ p.line ∧ p.line + cs.count '\n' ≤ lines

namespace Covers

theorem within (h : Covers lines p cs) : p.Within lines :=
  ⟨h.1, Nat.le_trans (Nat.le_add_right _ _) h.2⟩

/-- The lines that cover a text cover it after its first character. -/
theorem past {c : Char} (h : Covers lines p (c :: cs)) : Covers lines (p.past c) cs := by
  obtain ⟨hfirst, hlast⟩ := h
  rw [List.count_cons] at hlast
  simp only [beq_iff_eq] at hlast
  rw [Covers, Position.line_past]
  omega

/-- The lines that cover a text cover what a reading left of it. -/
theorem reached (h : Covers lines p cs) (hrest : rest <:+ cs) :
    Covers lines (reached p cs rest) rest := by
  obtain ⟨front, rfl⟩ := hrest
  obtain ⟨hfirst, hlast⟩ := h
  rw [List.count_append] at hlast
  rw [Token.reached, List.length_append, Nat.add_sub_cancel, List.take_left, Covers,
    Position.line_pastAll]
  omega

/-- The fault of a failed reading is in the lines that cover its text. -/
theorem locate (h : Covers lines p cs) {f : Lexeme.Failure} (hf : f.rest <:+ cs) :
    (locate p cs f).position.Within lines := by
  have hreached := h.reached hf
  have hbeyond := (Token.reached p cs f.rest).line_pastOctets f.rest f.beyond
  exact ⟨Nat.le_trans hreached.1 hbeyond.1, Nat.le_trans hbeyond.2 hreached.2⟩

end Covers

/-- The faults of a literal are in the lines that cover its text. -/
theorem within_literal {α : Type} (h : Covers lines p cs) (quoted : Bool) (value : α → Scalar)
    {strict : Lexeme.Reading α} {lenient : Lexeme.Reading Unit} (hstrict : Lexeme.Leaves cs strict)
    (hlenient : Lexeme.Leaves cs lenient) :
    (∀ f ∈ (literal p cs quoted value strict lenient).1.faults, f.position.Within lines) ∧
      (literal p cs quoted value strict lenient).2 <:+ cs := by
  unfold literal
  split
  · have hf := h.locate hlenient
    split
    · have hg := h.locate hstrict
      exact ⟨List.forall_mem_cons.2 ⟨hg, List.forall_mem_singleton.2 hf⟩, List.suffix_rfl⟩
    · exact ⟨List.forall_mem_cons.2 ⟨hf, List.forall_mem_singleton.2 hf⟩, List.suffix_rfl⟩
  · split
    · exact ⟨List.forall_mem_singleton.2 (h.locate hstrict), hlenient⟩
    · exact ⟨nofun, hlenient⟩

/-- A token is cut off the front of the text, with faults in its lines. -/
theorem within_lexeme {c : Char} (h : Covers lines p (c :: rest)) :
    (∀ f ∈ (lexeme p c rest).1.faults, f.position.Within lines) ∧
      (lexeme p c rest).2 <:+ c :: rest := by
  have hliteral {α : Type} (quoted : Bool) (value : α → Scalar) {strict : Lexeme.Reading α}
      {lenient : Lexeme.Reading Unit} (hstrict : Lexeme.Leaves rest strict)
      (hlenient : Lexeme.Leaves rest lenient) :=
    (within_literal h.past quoted value hstrict hlenient).imp_right
      fun hrest => hrest.trans (List.suffix_cons c rest)
  unfold lexeme
  extract_lets q
  split
  iterate 6 exact ⟨nofun, List.suffix_cons _ _⟩
  iterate 3 exact hliteral _ _ (Lexeme.leaves_word _ _) (Lexeme.leaves_word _ _)
  · exact hliteral _ _ (Lexeme.leaves_text _) (Lexeme.leaves_skipText _)
  · exact hliteral _ _ (Lexeme.leaves_number _ _) (Lexeme.leaves_skipNumber _)
  · split
    · exact within_literal h _ _ (Lexeme.leaves_number _ _) (Lexeme.leaves_skipNumber _)
    · exact ⟨nofun, List.suffix_cons _ _⟩

/-- The tokens of a text, and their faults, are in the lines of the text. -/
theorem within_scanFrom (h : Covers lines p cs) : ∀ t ∈ scanFrom p cs, t.Within lines := by
  fun_induction scanFrom p cs with
  | case1 p => exact List.forall_mem_singleton.2 ⟨h.within, h.within, nofun⟩
  | case2 p c rest hblank ih => exact ih h.past
  | case3 p c rest hblank r hlast =>
    obtain ⟨hfaults, hrest⟩ := within_lexeme h
    rw [dif_pos hlast]
    exact List.forall_mem_singleton.2 ⟨h.within, (h.reached hrest).within, hfaults⟩
  | case4 p c rest hblank r hlast stop ih =>
    obtain ⟨hfaults, hrest⟩ := within_lexeme h
    have hstop := h.reached hrest
    rw [dif_neg hlast]
    exact List.forall_mem_cons.2 ⟨⟨h.within, hstop.within, hfaults⟩, ih hstop⟩

end Token

/-! ## Reading -/

namespace Reader

/-- The token is to blame if it is not taken. -/
def Blames (t : Token) (x : Except Fault Reader) : Prop :=
  ∀ f, x = .error f → t.Blamed f

variable (t : Token) (stack : List Frame)

theorem blames_ok (r : Reader) : Blames t (.ok r) := nofun

theorem blames_failOn (cause : Cause) : Blames t (failOn cause t) := by
  rintro f ⟨⟩
  exact .inr (.inr (.inl rfl))

theorem blames_start (cause : Cause) : Blames t (.error ⟨cause, t.start⟩) := by
  rintro f ⟨⟩
  exact .inr (.inl rfl)

theorem blames_stop (cause : Cause) : Blames t (.error ⟨cause, t.stop⟩) := by
  rintro f ⟨⟩
  exact .inr (.inr (.inr rfl))

theorem blames_fault {f : Fault} (h : f ∈ t.kind.faults) : Blames t (.error f) := by
  rintro f ⟨⟩
  exact .inl h

/-- An opening bracket is to blame if the containers get too deep. -/
theorem blames_enter (frame : Frame) : Blames t (enter frame t stack) := by
  unfold enter
  split
  · exact blames_failOn t _
  · exact blames_ok t _

/-- A scalar is to blame if it is not of the shape that is wanted. -/
theorem blames_accept (shape : Shape) (s : Scalar) : Blames t (accept shape s t stack) := by
  fun_induction accept shape s t stack with
  | case7 inner s _ ih => exact ih
  | _ => first | exact blames_ok t _ | exact blames_stop t _

/-- An opening bracket is to blame if no list is wanted. -/
theorem blames_openList (shape : Shape) : Blames t (openList shape t stack) := by
  unfold openList
  split
  iterate 4 exact blames_enter t stack _
  exact blames_start t _

/-- An opening brace is to blame if no table is wanted. -/
theorem blames_openTable (shape : Shape) : Blames t (openTable shape t stack) := by
  unfold openTable
  split
  iterate 4 exact blames_enter t stack _
  exact blames_start t _

/-- The first token of a value is to blame if the value cannot start with it. -/
theorem blames_startValue (shape : Shape) : Blames t (startValue shape t stack) := by
  unfold startValue
  split
  · exact blames_failOn t _
  · exact blames_accept t stack shape _
  · rename_i hkind
    split
    · exact blames_ok t _
    · exact blames_fault t (by rw [hkind]; exact List.mem_singleton_self _)
  · rename_i hkind
    split
    · exact blames_fault t (by rw [hkind]; exact List.mem_cons_of_mem _ (List.mem_singleton_self _))
    · exact blames_fault t (by rw [hkind]; exact List.mem_cons_self)
  · exact blames_openList t stack shape
  · exact blames_openTable t stack shape
  · exact blames_failOn t _

theorem blames_startItem (frame : Frame) : Blames t (startItem frame t stack) := by
  unfold startItem
  split <;> exact blames_startValue t _ _

/-- The token where a name is due is to blame if it is none. -/
theorem blames_fieldName (frame : Frame) (missing : Cause) :
    Blames t (fieldName frame missing t stack) := by
  unfold fieldName
  split
  · exact blames_failOn t _
  · exact blames_ok t _
  · rename_i hkind
    split
    · exact blames_ok t _
    · exact blames_fault t (by rw [hkind]; exact List.mem_singleton_self _)
  · rename_i hkind
    split
    · exact blames_fault t (by rw [hkind]; exact List.mem_cons_of_mem _ (List.mem_singleton_self _))
    · exact blames_fault t (by rw [hkind]; exact List.mem_cons_self)
  · exact blames_failOn t _

/-- The first token in a container is to blame if it is not taken. -/
theorem blames_stepFirst (frame : Frame) : Blames t (stepFirst frame t stack) := by
  unfold stepFirst
  split
  · split
    · exact blames_ok t _
    · exact blames_failOn t _
    · exact blames_startItem t stack frame
  · split
    · exact blames_ok t _
    · exact blames_fieldName t stack frame _

theorem blames_stepNext (frame : Frame) : Blames t (stepNext frame t stack) := by
  unfold stepNext
  split <;> split <;> first | exact blames_ok t _ | exact blames_failOn t _

/-- The token after a comma is to blame if it is not taken. -/
theorem blames_stepAgain (frame : Frame) : Blames t (stepAgain frame t stack) := by
  unfold stepAgain
  split
  · split
    · exact blames_startItem t stack frame
    · exact blames_fieldName t stack frame _
  · split
    · split
      · exact blames_failOn t _
      · split
        · exact blames_failOn t _
        · exact blames_startItem t stack frame
    · split
      · exact blames_failOn t _
      · exact blames_fieldName t stack frame _

/-- The token that is not taken is to blame. -/
theorem blames_step (r : Reader) : Blames t (r.step t) := by
  unfold step
  split
  · exact blames_startValue t _ _
  · exact blames_stepFirst t _ _
  · exact blames_stepNext t _ _
  · exact blames_stepAgain t _ _
  · split
    · exact blames_ok t _
    · exact blames_failOn t _
    · exact blames_failOn t _
  · split
    · exact blames_stop t _
    · exact blames_start t _
  · exact blames_failOn t _

/-- A reading fails at one of its tokens, or where the text starts if there are too few. -/
theorem exists_blamed_of_run {r : Reader} {ts : List Token} {f : Fault} (h : run r ts = .error f) :
    f.position = .start ∨ ∃ t ∈ ts, t.Blamed f := by
  induction ts generalizing r with
  | nil =>
    cases h
    exact .inl rfl
  | cons t ts ih =>
    rw [run] at h
    split at h
    · cases h
    · split at h
      · rename_i fault heq
        obtain rfl := Except.error.inj h
        exact .inr ⟨t, List.mem_cons_self, blames_step t r _ heq⟩
      · exact (ih h).imp_right fun ⟨t, ht, hf⟩ => ⟨t, List.mem_cons_of_mem _ ht, hf⟩

end Reader

/-- A fault is in one of the lines of the text. -/
theorem within_of_read {shape : Shape} {text : String} {f : Fault}
    (h : read shape text = .error f) : f.position.Within (text.toList.count '\n' + 1) := by
  have hcovers : Token.Covers (text.toList.count '\n' + 1) .start text.toList :=
    ⟨Nat.le_refl 1, Nat.le_of_eq (Nat.add_comm _ _)⟩
  rcases Reader.exists_blamed_of_run h with hstart | ⟨t, ht, hf⟩
  · rw [hstart]
    exact hcovers.within
  · exact (Token.within_scanFrom hcovers t ht).of_blamed hf

end Stencil.Json
