import Stencil.Proofs.Template.Words

/-!
# The grammar of templates

A template is text with actions between braces. Its grammar gives the nodes that it stands for: the
text between two actions, trimmed where they ask for it, and what each action says. Where no action
opens with a comment, a text reads as some nodes exactly if the grammar gives it those nodes.
-/

namespace Stencil.Template

open Text

/-! ## Actions -/

/-- The node that words form, in a call with the line of its opening braces. -/
inductive Forms (line : Nat) : List Word → Node → Prop
  | literal {s} : Forms line [.text s] (.literal s)
  | call {name args} : Forms line (.name name :: args.map .text) (.call ⟨name, args, line⟩)

/-- Words are arguments if all of them are texts. -/
theorem arguments_eq_ok_iff {words : List Word} {args : List String} :
    arguments words = .ok args ↔ words = args.map .text := by
  fun_induction arguments words generalizing args with
  | case1 => cases args <;> simp
  | case2 s rest ih =>
    rw [map_eq_ok_iff]
    constructor
    · rintro ⟨others, ho, rfl⟩
      rw [ih.1 ho, List.map_cons]
    · intro h
      obtain ⟨arg, others, rfl, hs, ho⟩ := List.map_eq_cons_iff.1 h.symm
      obtain rfl := Word.text.inj hs
      exact ⟨others, ih.2 ho.symm, rfl⟩
  | case3 => cases args <;> simp

/-- Words are read as the node that they form. -/
theorem nodeOfWords_eq_ok_iff {line : Nat} {words : List Word} {node : Node} :
    nodeOfWords line words = .ok node ↔ Forms line words node := by
  constructor
  · intro h
    unfold nodeOfWords at h
    split at h
    · cases h
    · cases h
      exact .literal
    · cases h
    · rename_i name rest
      obtain ⟨args, hargs, rfl⟩ := map_eq_ok_iff.1 h
      rw [arguments_eq_ok_iff.1 hargs]
      exact .call
  · rintro (_ | _)
    · rfl
    · rw [nodeOfWords, arguments_eq_ok_iff.2 rfl]
      rfl

/-- No words form no node. -/
theorem Forms.ne_nil {line : Nat} {words : List Word} {node : Node} (h : Forms line words node) :
    words ≠ [] := by
  cases h <;> exact List.cons_ne_nil _ _

/-- An action between its braces: the texts that it trims beside it, and its node. -/
inductive IsAction (line : Nat) : Bool → Bool → Node → List Char → Prop
  | intro {left right node words inner} : Spread inner words → Forms line words node →
      (left = true → Starts isSpace inner) → (right = true → Ends isSpace inner) →
      IsAction line left right node (trimMark left ++ inner ++ trimMark right)

/-- What follows opening braces opens a comment, at once or after a trim mark and one blank. -/
def OpensWithComment (cs : List Char) : Prop :=
  ['/', '*'] <+: cs ∨ ∃ c rest, cs = '-' :: c :: rest ∧ isSpace c = true ∧ ['/', '*'] <+: rest

/-- A comment is opened by a slash and a star. -/
theorem opensComment_iff {cs : List Char} : opensComment cs = true ↔ ['/', '*'] <+: cs := by
  rw [opensComment, beq_iff_eq, List.prefix_iff_eq_take, eq_comm]
  rfl

/-- What is read as a command is words that form a node, what may close its braces, and the rest. -/
theorem readCommand_eq_ok_iff {line : Nat} {left : Bool} {cs : List Char} {a : Action} :
    readCommand line left cs = .ok a ↔
      ∃ inner words node, cs = inner ++ (trimMark a.trimsRight ++ '}' :: '}' :: a.rest) ∧
        Spread inner words ∧ (a.trimsRight = true → Ends isSpace inner) ∧ Forms line words node ∧
        a.node = some node ∧ a.trimsLeft = left := by
  unfold readCommand
  constructor
  · intro h
    split at h
    · cases h
    · rename_i r hr
      obtain ⟨node, hn, rfl⟩ := map_eq_ok_iff.1 h
      obtain ⟨inner, rfl, hs, _, hend⟩ := readWords_eq_ok_iff.1 hr
      have hf := nodeOfWords_eq_ok_iff.1 hn
      refine ⟨inner, r.words, node, rfl, hs, fun hright => ?_, hf, rfl, rfl⟩
      -- A trim mark at the very start would leave no words.
      refine (hend hright).resolve_right ?_
      rintro ⟨rfl, _⟩
      obtain ⟨c, rest, hcs, _⟩ := hs.starts hf.ne_nil
      cases hcs
  · rintro ⟨inner, words, node, rfl, hs, hend, hf, hnode, rfl⟩
    have hread : readWords true (inner ++ (trimMark a.trimsRight ++ '}' :: '}' :: a.rest)) =
        .ok ⟨words, a.trimsRight, a.rest⟩ :=
      readWords_of_spread hs nofun fun hr => .inl (hend hr)
    simp only [hread, nodeOfWords_eq_ok_iff.2 hf, Except.map, ← hnode]

/-- What reads as a command is an action of the grammar. -/
theorem isAction_of_readAction {line : Nat} {cs : List Char} {a : Action}
    (h : readAction line cs = .ok a) (hc : ¬ OpensWithComment cs) :
    ∃ body node, cs = body ++ '}' :: '}' :: a.rest ∧ a.node = some node ∧
      IsAction line a.trimsLeft a.trimsRight node body := by
  -- Without a trim mark and a blank in front, all up to the closing braces are the words.
  have command (h : readCommand line false cs = .ok a) :
      ∃ body node, cs = body ++ '}' :: '}' :: a.rest ∧ a.node = some node ∧
        IsAction line a.trimsLeft a.trimsRight node body := by
    obtain ⟨inner, words, node, rfl, hs, hend, hf, hnode, hleft⟩ := readCommand_eq_ok_iff.1 h
    refine ⟨inner ++ trimMark a.trimsRight, node, (List.append_assoc _ _ _).symm, hnode, ?_⟩
    rw [hleft]
    show IsAction line false a.trimsRight node (trimMark false ++ inner ++ trimMark a.trimsRight)
    exact .intro hs hf nofun hend
  unfold readAction at h
  split at h
  · rename_i c rest
    split at h
    · rename_i hblank
      split at h
      · rename_i hcomment
        exact absurd (.inr ⟨c, rest, rfl, hblank, opensComment_iff.1 hcomment⟩) hc
      · obtain ⟨inner, words, node, hcs, hs, hend, hf, hnode, hleft⟩ := readCommand_eq_ok_iff.1 h
        obtain ⟨d, tail, rfl, -⟩ := hs.starts hf.ne_nil
        obtain rfl : c = d := (List.cons.inj hcs).1
        refine ⟨'-' :: (c :: tail ++ trimMark a.trimsRight), node, ?_, hnode, ?_⟩
        · simp [hcs]
        · rw [hleft]
          show IsAction line true a.trimsRight node
            (trimMark true ++ (c :: tail) ++ trimMark a.trimsRight)
          exact .intro hs hf (fun _ => starts_cons.2 hblank) hend
    · exact command h
  · split at h
    · rename_i hcomment
      exact absurd (.inl (opensComment_iff.1 hcomment)) hc
    · exact command h

/-- An action of the grammar is read as its node. -/
theorem readAction_of_isAction {line : Nat} {left right : Bool} {node : Node}
    {body rest : List Char} (h : IsAction line left right node body) :
    readAction line (body ++ '}' :: '}' :: rest) = .ok ⟨some node, left, right, rest⟩ := by
  -- Words start with no slash, so an action of words is not taken for a comment.
  have hslash {c : Char} {cs : List Char} (hc : c ≠ '/') : ¬ opensComment (c :: cs) = true := by
    rw [opensComment_iff]
    rintro ⟨tail, htail⟩
    exact hc (List.cons.inj htail).1.symm
  obtain ⟨hs, hf, hstart, hend⟩ := h
  rename_i words inner
  have hcommand : readCommand line left (inner ++ (trimMark right ++ '}' :: '}' :: rest)) =
      .ok ⟨some node, left, right, rest⟩ :=
    readCommand_eq_ok_iff.2 ⟨inner, words, node, rfl, hs, hend, hf, rfl, rfl⟩
  obtain ⟨c, tail, rfl, hminus, hc⟩ := hs.starts hf.ne_nil
  rw [List.append_assoc, List.append_assoc]
  cases left with
  | false =>
    rw [trimMark, if_neg (by decide), List.nil_append, List.cons_append, readAction]
    · rw [if_neg (hslash hc)]
      exact hcommand
    · rintro d cs h
      exact hminus (List.cons.inj h).1
  | true =>
    have hblank := starts_cons.1 (hstart rfl)
    obtain ⟨d, tail', rfl, _, hd⟩ := (hs.tail hblank).starts hf.ne_nil
    rw [trimMark, if_pos rfl, List.cons_append, List.nil_append, List.cons_append, readAction,
      if_pos hblank, List.cons_append, if_neg (hslash hd)]
    exact hcommand

/-! ## The text between actions -/

/-- A text without opening braces. -/
def Plain (cs : List Char) : Prop := ¬ ['{', '{'] <:+: cs

/-- A text that an action may follow: it has no opening braces, also with a brace after it. -/
def Leads (cs : List Char) : Prop := Plain cs ∧ ∀ c ∈ cs.getLast?, c ≠ '{'

/-! ### Up to the next action -/

/-- A text is plain if it does not start with opening braces and the rest is plain. -/
theorem plain_cons {c : Char} {cs : List Char} :
    Plain (c :: cs) ↔ ¬ (c = '{' ∧ cs.head? = some '{') ∧ Plain cs := by
  rw [Plain, List.infix_cons_iff, not_or, List.cons_prefix_cons, Plain]
  cases cs with
  | nil => simp
  | cons d cs => simp [List.cons_prefix_cons, eq_comm]

theorem leads_nil : Leads [] := ⟨by simp [Plain], nofun⟩

/-- An action may follow a text if the text does not start with a brace before another one, and an
action may follow the rest. -/
theorem leads_cons {c : Char} {cs : List Char} :
    Leads (c :: cs) ↔ ¬ (c = '{' ∧ (cs = [] ∨ cs.head? = some '{')) ∧ Leads cs := by
  cases cs with
  | nil => simp [Leads, plain_cons, and_comm]
  | cons d cs => simp [Leads, plain_cons, List.getLast?_cons_cons, and_assoc]

/-- A plain text is not split. -/
theorem splitOpen_of_plain {cs : List Char} (h : Plain cs) : splitOpen cs = (cs, none) := by
  fun_induction splitOpen cs with
  | case1 => rfl
  | case2 => exact absurd (plain_cons.1 h).1 (by simp)
  | case3 c rest _ ih => rw [ih (plain_cons.1 h).2]

/-- A text that is not split is plain. -/
theorem plain_of_splitOpen {cs : List Char} (h : (splitOpen cs).2 = none) : Plain cs := by
  fun_induction splitOpen cs with
  | case1 => exact leads_nil.1
  | case2 => cases h
  | case3 c rest hbraces ih =>
    refine plain_cons.2 ⟨?_, ih h⟩
    rintro ⟨rfl, hhead⟩
    obtain ⟨tail, rfl⟩ := List.head?_eq_some_iff.1 hhead
    exact hbraces tail rfl rfl

/-- A text is split at the opening braces after a part that may lead to an action. -/
theorem splitOpen_of_leads {text body : List Char} (h : Leads text) :
    splitOpen (text ++ '{' :: '{' :: body) = (text, some body) := by
  induction text with
  | nil => rw [List.nil_append, splitOpen]
  | cons c text ih =>
    obtain ⟨hc, ht⟩ := leads_cons.1 h
    rw [List.cons_append, splitOpen, ih ht]
    rintro rest rfl htext
    refine hc ⟨rfl, ?_⟩
    cases text with
    | nil => exact .inl rfl
    | cons d text => exact .inr (congrArg some (List.cons.inj htext).1)

/-- A text that is split leads to an action. -/
theorem leads_of_splitOpen {cs body : List Char} (h : (splitOpen cs).2 = some body) :
    cs = (splitOpen cs).1 ++ '{' :: '{' :: body ∧ Leads (splitOpen cs).1 := by
  fun_induction splitOpen cs with
  | case1 => cases h
  | case2 rest =>
    cases h
    exact ⟨rfl, leads_nil⟩
  | case3 c rest hbraces ih =>
    obtain ⟨he, hl⟩ := ih h
    refine ⟨congrArg (c :: ·) he, leads_cons.2 ⟨?_, hl⟩⟩
    rintro ⟨rfl, hnil | hhead⟩
    · rw [hnil] at he
      exact hbraces _ rfl he
    · obtain ⟨tail, ht⟩ := List.head?_eq_some_iff.1 hhead
      rw [ht] at he
      exact hbraces _ rfl he

/-! ### Trimmed texts -/

/-- A text without the blanks at its start, if those are trimmed. -/
def KeepsFrom (trims : Bool) (cs kept : List Char) : Prop :=
  if trims then ∃ gap, cs = gap ++ kept ∧ Blanks gap ∧ ¬ Starts isSpace kept else kept = cs

/-- A text without the blanks at its end, if those are trimmed. -/
def KeepsUpTo (trims : Bool) (cs kept : List Char) : Prop :=
  if trims then ∃ gap, cs = kept ++ gap ∧ Blanks gap ∧ ¬ Ends isSpace kept else kept = cs

/-- The nodes of a text between two actions, of which the first may trim its start and the second
its end. -/
inductive Copies (trimsStart trimsEnd : Bool) (cs : List Char) : List Node → Prop
  | text {mid kept} : KeepsFrom trimsStart cs mid → KeepsUpTo trimsEnd mid kept → kept ≠ [] →
      Copies trimsStart trimsEnd cs [.text (String.ofList kept)]
  | nothing {mid} : KeepsFrom trimsStart cs mid → KeepsUpTo trimsEnd mid [] →
      Copies trimsStart trimsEnd cs []

/-- What is kept from the start of a text is what trimming leaves. -/
theorem keepsFrom_iff {trims : Bool} {cs kept : List Char} :
    KeepsFrom trims cs kept ↔ (if trims then trimStart isSpace cs else cs) = kept := by
  cases trims with
  | false => exact eq_comm
  | true => exact trimStart_eq_iff.symm

/-- What is kept up to the end of a text is what trimming leaves. -/
theorem keepsUpTo_iff {trims : Bool} {cs kept : List Char} :
    KeepsUpTo trims cs kept ↔ (if trims then trimEnd isSpace cs else cs) = kept := by
  cases trims with
  | false => exact eq_comm
  | true => exact trimEnd_eq_iff.symm

/-- The nodes of a text between actions are those of the grammar. -/
theorem textNodes_eq_iff {trimsStart trimsEnd : Bool} {cs : List Char} {nodes : List Node} :
    textNodes trimsStart trimsEnd cs = nodes ↔ Copies trimsStart trimsEnd cs nodes := by
  unfold textNodes
  constructor
  · rintro rfl
    dsimp only
    generalize hs : (if trimsStart = true then trimStart isSpace cs else cs) = mid
    generalize he : (if trimsEnd = true then trimEnd isSpace mid else mid) = kept
    cases kept with
    | nil => exact .nothing (keepsFrom_iff.2 hs) (keepsUpTo_iff.2 he)
    | cons c kept =>
      exact .text (keepsFrom_iff.2 hs) (keepsUpTo_iff.2 he) (List.cons_ne_nil _ _)
  · rintro (⟨hs, he, hne⟩ | ⟨hs, he⟩)
    · dsimp only
      rw [keepsFrom_iff.1 hs, keepsUpTo_iff.1 he, if_neg (mt List.isEmpty_iff.1 hne)]
    · dsimp only
      rw [keepsFrom_iff.1 hs, keepsUpTo_iff.1 he]
      rfl

/-! ## Whole templates -/

/-- The nodes of the part of a template after `before` and an action that may trim its start. -/
inductive IsTemplate : List Char → Bool → List Char → List Node → Prop
  | last {before trims text nodes} : Plain text → Copies trims false text nodes →
      IsTemplate before trims text nodes
  | action {before trims text left right body node rest nodes nodes'} :
      Leads text → IsAction (1 + lineEnds (before ++ text)) left right node body →
      Copies trims left text nodes →
      IsTemplate (before ++ text ++ '{' :: '{' :: body ++ ['}', '}']) right rest nodes' →
      IsTemplate before trims (text ++ '{' :: '{' :: body ++ '}' :: '}' :: rest)
        (nodes ++ node :: nodes')

/-- What follows the opening braces of the actions of a text. An action after others is one only
if those are well formed. -/
inductive ActionAt : List Char → List Char → Prop
  | first {text body} : Leads text → ActionAt (text ++ '{' :: '{' :: body) body
  | later {text line left right node body rest after} : Leads text →
      IsAction line left right node body → ActionAt rest after →
      ActionAt (text ++ '{' :: '{' :: body ++ '}' :: '}' :: rest) after

/-- A comment is opened with a slash. -/
theorem OpensWithComment.slash_mem {cs : List Char} (h : OpensWithComment cs) : '/' ∈ cs := by
  rcases h with h | ⟨c, rest, rfl, _, h⟩
  · exact h.subset List.mem_cons_self
  · exact List.mem_cons_of_mem _ (List.mem_cons_of_mem _ (h.subset List.mem_cons_self))

/-- The actions of a text are made of its characters. -/
theorem ActionAt.subset {cs body : List Char} (h : ActionAt cs body) : body ⊆ cs := by
  induction h with
  | first => exact fun c hc => List.mem_append_right _ (.tail _ (.tail _ hc))
  | later _ _ _ ih => exact fun c hc => List.mem_append_right _ (.tail _ (.tail _ (ih hc)))

/-- A text without a slash has no comment. -/
theorem ActionAt.not_opensWithComment {cs body : List Char} (h : ActionAt cs body) (hs : '/' ∉ cs) :
    ¬ OpensWithComment body := fun hc => hs (h.subset hc.slash_mem)

/-- A plain text is parsed as the node of it. -/
theorem parseFrom_of_plain {line : Nat} {trims : Bool} {cs : List Char} (h : Plain cs) :
    parseFrom line trims cs = .ok (textNodes trims false cs) := by
  have hs := splitOpen_of_plain h
  rw [parseFrom]
  split
  · rw [hs]
  · rename_i hb
    rw [hs] at hb
    cases hb

theorem lineEnds_append {cs ds : List Char} : lineEnds (cs ++ ds) = lineEnds cs + lineEnds ds :=
  List.count_append

/-- The text of an action up to what follows it. -/
theorem take_action {body rest : List Char} :
    (body ++ '}' :: '}' :: rest).take ((body ++ '}' :: '}' :: rest).length - rest.length) =
      body ++ ['}', '}'] := by
  have hassoc : body ++ '}' :: '}' :: rest = body ++ ['}', '}'] ++ rest := by simp
  rw [hassoc, List.length_append, Nat.add_sub_cancel, List.take_left]

/-- A text is copied up to the opening braces, and what follows them decides how it goes on. -/
theorem parseFrom_of_leads {line : Nat} {trims : Bool} {text body : List Char} (ht : Leads text) :
    parseFrom line trims (text ++ '{' :: '{' :: body) =
      match readAction (line + lineEnds text) body with
      | .error fault => .error (.malformed (line + lineEnds text) fault)
      | .ok action =>
        (parseFrom
          (line + lineEnds text + lineEnds (body.take (body.length - action.rest.length)))
          action.trimsRight action.rest).map fun nodes =>
            textNodes trims action.trimsLeft text ++ action.node.toList ++ nodes := by
  have hs : splitOpen (text ++ '{' :: '{' :: body) = _ := splitOpen_of_leads ht
  -- The parser cuts at the first opening braces, which are those after the text.
  rw [parseFrom]
  split
  · rename_i hn
    rw [hs] at hn
    cases hn
  · rename_i body' hb
    rw [hs] at hb
    obtain rfl := Option.some.inj hb
    simp only [hs]
    split
    · rename_i hf
      rw [hs] at hf
      rw [hf]
    · rename_i hok
      rw [hs] at hok
      rw [hok]

/-- A text that leads to an action is parsed as its node, that of the action and those of the
rest. -/
theorem parseFrom_of_action {line : Nat} {trims left right : Bool} {text body rest : List Char}
    {node : Node} (ht : Leads text) (ha : IsAction (line + lineEnds text) left right node body) :
    parseFrom line trims (text ++ '{' :: '{' :: body ++ '}' :: '}' :: rest) =
      (parseFrom (line + lineEnds text + lineEnds (body ++ ['}', '}'])) right rest).map fun nodes =>
        textNodes trims left text ++ node :: nodes := by
  have hr : readAction _ (body ++ '}' :: '}' :: rest) = _ := readAction_of_isAction ha
  rw [List.append_assoc, List.cons_append, List.cons_append, parseFrom_of_leads ht, hr]
  simp only [take_action, Option.toList_some, List.append_assoc, List.singleton_append]

/-- What reads as nodes is a template of them. -/
theorem isTemplate_of_parseFrom {line : Nat} {trims : Bool} {cs before : List Char}
    {nodes : List Node} (h : parseFrom line trims cs = .ok nodes)
    (hline : line = 1 + lineEnds before)
    (hc : ∀ body, ActionAt cs body → ¬ OpensWithComment body) :
    IsTemplate before trims cs nodes := by
  fun_induction parseFrom line trims cs generalizing nodes before with
  | case1 line trims cs hs =>
    obtain rfl := Except.ok.inj h
    rw [splitOpen_none hs]
    exact .last (plain_of_splitOpen hs) (textNodes_eq_iff.1 rfl)
  | case2 => cases h
  | case3 line trims cs body hs here a ha =>
    rename_i passed ih
    obtain ⟨hcs, hl⟩ := leads_of_splitOpen hs
    obtain ⟨inner, node, rfl, hnode, hact⟩ := isAction_of_readAction ha (hc _ (hcs ▸ .first hl))
    -- Lines are counted by what was passed, which is the action with its braces.
    have hpassed : passed = inner ++ ['}', '}'] := take_action
    have hhere : here = 1 + lineEnds (before ++ (splitOpen cs).1) := by
      rw [lineEnds_append, ← Nat.add_assoc, ← hline]
    generalize (splitOpen cs).1 = text at h hcs hl hhere
    obtain ⟨nodes', hr, rfl⟩ := map_eq_ok_iff.1 h
    have hrest : ∀ body, ActionAt a.rest body → ¬ OpensWithComment body := fun body hat =>
      hc body (by rw [hcs]; simpa using hat.later hl hact)
    have hafter : here + lineEnds passed =
        1 + lineEnds (before ++ text ++ '{' :: '{' :: inner ++ ['}', '}']) := by
      rw [hhere, hpassed]
      simp [lineEnds]
      omega
    have hcopies : Copies trims a.trimsLeft text (textNodes trims a.trimsLeft text) :=
      textNodes_eq_iff.1 rfl
    rw [hcs, hnode]
    simpa using IsTemplate.action hl (hhere ▸ hact) hcopies (ih hr hafter hrest)

/-- A template reads as its nodes. -/
theorem parseFrom_of_isTemplate {before : List Char} {trims : Bool} {cs : List Char}
    {nodes : List Node} (h : IsTemplate before trims cs nodes) :
    parseFrom (1 + lineEnds before) trims cs = .ok nodes := by
  induction h with
  | last hp hcopies => rw [parseFrom_of_plain hp, textNodes_eq_iff.2 hcopies]
  | @action before trims text left right body node rest nodes nodes' hl hact hcopies _ ih =>
    rw [lineEnds_append, ← Nat.add_assoc] at hact
    have hline : 1 + lineEnds before + lineEnds text + lineEnds (body ++ ['}', '}']) =
        1 + lineEnds (before ++ text ++ '{' :: '{' :: body ++ ['}', '}']) := by
      simp [lineEnds]
      omega
    rw [parseFrom_of_action hl hact, hline, ih, textNodes_eq_iff.2 hcopies]
    rfl

/-! ### The names of calls -/

/-- A name that is only made of characters of names. -/
def IsName (name : String) : Prop := ∀ c ∈ name.toList, isNameChar c = true

theorem IsName.colon_not_mem {name : String} (h : IsName name) : ':' ∉ name.toList :=
  fun hc => absurd (h _ hc) (by decide)

/-- What is spread in a text as a name is one. -/
theorem Spread.isName {cs : List Char} {words : List Word} (h : Spread cs words) {name : String}
    (hw : .name name ∈ words) : IsName name := by
  induction h with
  | none _ => cases hw
  | word _ hs _ _ ih =>
    rcases List.mem_cons.1 hw with rfl | hw
    · obtain ⟨hstart, hrest⟩ := hs
      intro d hd
      rw [String.toList_ofList] at hd
      rcases List.mem_cons.1 hd with rfl | hd
      · exact isNameChar_of_isNameStart hstart
      · exact hrest d hd
    · exact ih hw

/-- The function of a call that is read has a name. -/
theorem isName_of_readAction {line : Nat} {cs : List Char} {a : Action}
    (h : readAction line cs = .ok a) {c : Call} (hc : a.node = some (.call c)) : IsName c.name := by
  -- A comment leaves no node, so the call comes from a command.
  have comment {left : Bool} {cs : List Char} (h : readComment left cs = .ok a) :
      IsName c.name := by
    unfold readComment at h
    split at h
    · cases h
    · split at h
      · cases h
        cases hc
      · dsimp only at h
        split at h
        · cases h
          cases hc
        · cases h
  have command {left : Bool} {cs : List Char} (h : readCommand line left cs = .ok a) :
      IsName c.name := by
    obtain ⟨_, _, _, _, hs, _, hf, hnode, _⟩ := readCommand_eq_ok_iff.1 h
    obtain rfl := Option.some.inj (hnode.symm.trans hc)
    cases hf
    exact hs.isName List.mem_cons_self
  unfold readAction at h
  split at h
  · split at h
    · split at h
      · exact comment h
      · exact command h
    · exact command h
  · split at h
    · exact comment h
    · exact command h

/-- The calls of a text have names that are only made of characters of names. -/
theorem isName_of_parseFrom {line : Nat} {trims : Bool} {cs : List Char} {nodes : List Node}
    (h : parseFrom line trims cs = .ok nodes) {c : Call} (hc : .call c ∈ nodes) :
    IsName c.name := by
  have hcopied : ∀ {left right cs}, .call c ∉ textNodes left right cs := by
    intro left right cs hmem
    have hcopies : Copies left right cs (textNodes left right cs) := textNodes_eq_iff.1 rfl
    generalize textNodes left right cs = copied at hmem hcopies
    cases hcopies with
    | text _ _ _ => cases List.mem_singleton.1 hmem
    | nothing _ _ => cases hmem
  fun_induction parseFrom line trims cs generalizing nodes with
  | case1 =>
    obtain rfl := Except.ok.inj h
    exact absurd hc hcopied
  | case2 => cases h
  | case3 line trims cs body hs here a ha =>
    rename_i passed ih
    obtain ⟨nodes', hr, rfl⟩ := map_eq_ok_iff.1 h
    rw [List.mem_append, List.mem_append] at hc
    rcases hc with (hc | hc) | hc
    · exact absurd hc hcopied
    · exact isName_of_readAction ha (Option.mem_toList.1 hc)
    · exact ih hr hc

/-- A text none of whose actions opens with a comment reads as some nodes exactly if they are those
that the grammar gives it. -/
theorem parse_eq_ok_iff (text : String) (nodes : List Node)
    (hc : ∀ body, ActionAt text.toList body → ¬ OpensWithComment body) :
    parse text = .ok nodes ↔ IsTemplate [] false text.toList nodes := by
  constructor
  · intro h
    exact isTemplate_of_parseFrom h rfl hc
  · exact parseFrom_of_isTemplate

/-- A call on the second line that trims the text on both sides. -/
theorem parse_eq_ok_iff_call :
    (∀ body, ActionAt "a\n\x7b\x7b- var \"b\" -\x7d\x7d c".toList body → ¬ OpensWithComment body) ∧
      IsTemplate [] false "a\n\x7b\x7b- var \"b\" -\x7d\x7d c".toList
        [.text "a", .call ⟨"var", ["b"], 2⟩, .text "c"] := by
  have hc : ∀ body, ActionAt "a\n\x7b\x7b- var \"b\" -\x7d\x7d c".toList body →
      ¬ OpensWithComment body := fun body h => h.not_opensWithComment (by decide)
  have hparse : (parse "a\n\x7b\x7b- var \"b\" -\x7d\x7d c").toOption =
      some [.text "a", .call ⟨"var", ["b"], 2⟩, .text "c"] := by
    decide +kernel
  refine ⟨hc, (parse_eq_ok_iff _ _ hc).1 ?_⟩
  cases hp : parse "a\n\x7b\x7b- var \"b\" -\x7d\x7d c" with
  | error e =>
    rw [hp] at hparse
    cases hparse
  | ok nodes =>
    rw [hp] at hparse
    rw [Option.some.inj hparse]

end Stencil.Template
