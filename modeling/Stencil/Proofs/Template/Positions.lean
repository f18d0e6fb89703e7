import Stencil.Proofs.Template.Joining

/-!
# Where the parts of a template stand

A template is laid out as slots, each of them a text and braces behind it with an action or a
comment between them, and a rest that no further slot starts. The layout is said without lines.

Reading follows it. If the rest has no opening braces, the calls are those of the slots in their
order, each on the line of its own braces in the whole template. Otherwise what opens in the rest is
malformed, and its line is the line of the error.
-/

namespace Stencil.Template

/-! ## Layouts -/

/-- Braces in a template: the text in front of them, and what stands between them. -/
structure Slot where
  text : List Char
  inner : List Char

namespace Slot

/-- A slot as it is written. -/
def source (s : Slot) : List Char := s.text ++ '{' :: '{' :: (s.inner ++ ['}', '}'])

/-- The first braces of the slot are those behind its text, and they hold an action or a comment. -/
structure WellFormed (s : Slot) : Prop where
  leads : Leads s.text
  holds : ∃ line left right node, IsPart line left right node s.inner

/-- The slot holds the call of a name with some arguments. -/
def Calls (s : Slot) (name : String) (args : List String) : Prop :=
  ∃ line left right, IsPart line left right (some (.call ⟨name, args, line⟩)) s.inner

/-- A slot before a rest is its text, opening braces, what stands between, closing braces and the
rest. -/
theorem source_append (s : Slot) (rest : List Char) :
    s.source ++ rest = s.text ++ '{' :: '{' :: (s.inner ++ '}' :: '}' :: rest) := by
  simp [source]

end Slot

/-- The well-formed slots that a text starts with, and what follows them. -/
structure Layout (cs : List Char) where
  slots : List Slot
  rest : List Char
  whole : cs = slots.flatMap Slot.source ++ rest
  wellFormed : ∀ s ∈ slots, s.WellFormed
  ended : ∀ (s : Slot) after, s.WellFormed → rest ≠ s.source ++ after

/-- The calls of some slots that follow a text: those that the slots hold, in their order, each on
the line of its own opening braces. -/
inductive CallsOf : List Char → List Slot → List Call → Prop
  | nil {before} : CallsOf before [] []
  | call {before s name args slots calls} : s.Calls name args →
      CallsOf (before ++ s.source) slots calls →
      CallsOf before (s :: slots) (⟨name, args, 1 + lineEnds (before ++ s.text)⟩ :: calls)
  | other {before s slots calls} : (∀ name args, ¬ s.Calls name args) →
      CallsOf (before ++ s.source) slots calls → CallsOf before (s :: slots) calls

/-- The call that a node is. -/
def Node.call? : Node → Option Call
  | .call c => some c
  | _ => none

/-- What a template with a layout is read as. -/
inductive Layout.Answers {cs : List Char} (l : Layout cs) : Except Error (List Node) → Prop
  | nodes {nodes} : Plain l.rest → CallsOf [] l.slots (nodes.filterMap Node.call?) →
      l.Answers (.ok nodes)
  /-- The first braces behind the slots are the first that hold nothing well-formed. -/
  | malformed {front body fault} : l.rest = front ++ '{' :: '{' :: body → Leads front →
      l.Answers (.error (.malformed (1 + lineEnds (l.slots.flatMap Slot.source ++ front)) fault))

/-! ## The slots of a text -/

/-- What a well-formed slot holds is read, whatever the line and whatever follows. -/
theorem Slot.WellFormed.exists_readAction {s : Slot} (h : s.WellFormed) (line : Nat)
    (rest : List Char) : ∃ a, readAction line (s.inner ++ '}' :: '}' :: rest) = .ok a := by
  obtain ⟨line', left, right, node, hpart⟩ := h.holds
  obtain ⟨node', hpart⟩ := hpart.elsewhere line
  exact ⟨_, readAction_of_part hpart rest⟩

/-- A template is split at the braces of its first slot. -/
theorem Slot.WellFormed.splitOpen_eq {s : Slot} (h : s.WellFormed) (rest : List Char) :
    splitOpen (s.source ++ rest) = (s.text, some (s.inner ++ '}' :: '}' :: rest)) := by
  rw [s.source_append, splitOpen_of_leads h.leads]

/-- Every text has a layout. -/
theorem nonempty_layout (cs : List Char) : Nonempty (Layout cs) := by
  -- The slots are those that reading passes.
  fun_induction parseFrom 1 false cs with
  | case1 line trims cs hs =>
    refine ⟨⟨[], cs, rfl, List.forall_mem_nil _, ?_⟩⟩
    rintro s after hw rfl
    rw [hw.splitOpen_eq] at hs
    cases hs
  | case2 line trims cs body hs here fault hf =>
    refine ⟨⟨[], cs, rfl, List.forall_mem_nil _, ?_⟩⟩
    rintro s after hw rfl
    rw [hw.splitOpen_eq] at hs
    obtain rfl := Option.some.inj hs
    obtain ⟨a, ha⟩ := hw.exists_readAction here after
    rw [ha] at hf
    cases hf
  | case3 line trims cs body hs here a ha passed ih =>
    obtain ⟨hcs, hl⟩ := leads_of_splitOpen hs
    obtain ⟨inner, rfl, hpart⟩ := readAction_eq_ok_iff.1 ha
    obtain ⟨⟨slots, rest, hwhole, hw, hended⟩⟩ := ih
    refine ⟨⟨⟨(splitOpen cs).1, inner⟩ :: slots, rest, ?_, ?_, hended⟩⟩
    · rw [List.flatMap_cons, List.append_assoc, ← hwhole, Slot.source_append]
      exact hcs
    · exact List.forall_mem_cons.2 ⟨⟨hl, _, _, _, _, hpart⟩, hw⟩

/-! ## The line of a call -/

/-- A node on another line. -/
def Node.onLine (line : Nat) : Node → Node
  | .call c => .call { c with line := line }
  | node => node

/-- Words form the same node on every line. -/
theorem Forms.onLine {line : Nat} {words : List Word} {node : Node} (h : Forms line words node)
    (line' : Nat) : Forms line' words (node.onLine line') := by
  cases h with
  | literal => exact .literal
  | call => exact .call

/-- A call that words form has their line. -/
theorem Forms.line_eq {line : Nat} {words : List Word} {c : Call}
    (h : Forms line words (.call c)) : c.line = line := by
  cases h
  rfl

namespace IsPart

variable {line : Nat} {left right : Bool} {inner : List Char}

/-- What stands between braces has the same node on every line. -/
theorem onLine {node : Option Node} (h : IsPart line left right node inner) (line' : Nat) :
    IsPart line' left right (node.map (Node.onLine line')) inner := by
  cases h with
  | action h =>
    obtain ⟨hs, hf, hstart, hend⟩ := h
    exact .action (.intro hs (hf.onLine line') hstart hend)
  | comment h => exact .comment h

/-- A call that stands between braces has their line. -/
theorem line_eq {c : Call} (h : IsPart line left right (some (.call c)) inner) :
    c.line = line := by
  cases h with
  | action h =>
    cases h with
    | intro _ hf _ _ => exact hf.line_eq

/-- What stands between braces has one node. -/
theorem node_eq {left' right' : Bool} {node node' : Option Node}
    (h : IsPart line left right node inner) (h' : IsPart line left' right' node' inner) :
    node = node' := by
  have hread := (readAction_of_part h []).symm.trans (readAction_of_part h' [])
  exact congrArg Action.node (Except.ok.inj hread)

/-- The call that stands between braces is the node that they have on their line. -/
theorem calls_iff {s : Slot} {node : Option Node} (h : IsPart line left right node s.inner)
    {name : String} {args : List String} :
    s.Calls name args ↔ node = some (.call ⟨name, args, line⟩) := by
  constructor
  · rintro ⟨line', left', right', hcall⟩
    exact h.node_eq (hcall.onLine line)
  · rintro rfl
    exact ⟨line, left, right, h⟩

end IsPart

/-! ## Reading along a layout -/

/-- There are no calls in the text between slots. -/
theorem filterMap_call?_textNodes (left right : Bool) (cs : List Char) :
    (textNodes left right cs).filterMap Node.call? = [] := by
  have hcopies : Copies left right cs (textNodes left right cs) := textNodes_eq_iff.1 rfl
  generalize textNodes left right cs = nodes at hcopies
  cases hcopies with
  | text => rfl
  | nothing => rfl

/-- A slot is read as its node, and what follows it further down. -/
theorem parseFrom_of_slot {s : Slot} {before : List Char} {left right : Bool} {node : Option Node}
    (hl : Leads s.text)
    (hpart : IsPart (1 + lineEnds (before ++ s.text)) left right node s.inner) (trims : Bool)
    (rest : List Char) :
    parseFrom (1 + lineEnds before) trims (s.source ++ rest) =
      (parseFrom (1 + lineEnds (before ++ s.source)) right rest).map fun nodes =>
        textNodes trims left s.text ++ node.toList ++ nodes := by
  have hhere : 1 + lineEnds before + lineEnds s.text = 1 + lineEnds (before ++ s.text) := by
    rw [lineEnds_append, Nat.add_assoc]
  have hafter : 1 + lineEnds (before ++ s.text) + lineEnds (s.inner ++ ['}', '}']) =
      1 + lineEnds (before ++ s.source) := by
    simp [Slot.source, lineEnds]
    omega
  rw [s.source_append, parseFrom_of_leads hl, hhere, readAction_of_part hpart]
  dsimp only
  rw [take_action, hafter]

/-- The node of a slot is the call that it holds, if it holds one. -/
theorem CallsOf.cons_of_part {before : List Char} {s : Slot} {left right : Bool}
    {node : Option Node} {slots : List Slot} {calls : List Call}
    (hpart : IsPart (1 + lineEnds (before ++ s.text)) left right node s.inner)
    (h : CallsOf (before ++ s.source) slots calls) :
    CallsOf before (s :: slots) (node.toList.filterMap Node.call? ++ calls) := by
  cases hc : node.toList.filterMap Node.call? with
  | nil =>
    refine .other (fun name args hcalls => ?_) h
    rw [hpart.calls_iff.1 hcalls] at hc
    cases hc
  | cons c others =>
    obtain ⟨rfl, rfl⟩ : node = some (.call c) ∧ others = [] := by
      rcases node with _ | _ | _ | d
      · cases hc
      · cases hc
      · cases hc
      · cases hc
        exact ⟨rfl, rfl⟩
    have hline := hpart.line_eq
    obtain ⟨name, args, line⟩ := c
    obtain rfl : line = _ := hline
    exact .call (hpart.calls_iff.2 rfl) h

/-- Slots without any braces behind them are read as their calls. -/
theorem exists_parseFrom_of_slots {slots : List Slot} (hw : ∀ s ∈ slots, s.WellFormed)
    {rest : List Char} (hrest : Plain rest) (before : List Char) (trims : Bool) :
    ∃ nodes,
      parseFrom (1 + lineEnds before) trims (slots.flatMap Slot.source ++ rest) = .ok nodes ∧
        CallsOf before slots (nodes.filterMap Node.call?) := by
  induction slots generalizing before trims with
  | nil =>
    refine ⟨_, parseFrom_of_plain hrest, ?_⟩
    rw [filterMap_call?_textNodes]
    exact .nil
  | cons s slots ih =>
    obtain ⟨hs, hslots⟩ := List.forall_mem_cons.1 hw
    obtain ⟨line, left, right, node, hpart⟩ := hs.holds
    have hpart := hpart.onLine (1 + lineEnds (before ++ s.text))
    obtain ⟨nodes, hnodes, hcalls⟩ := ih hslots (before ++ s.source) right
    rw [List.flatMap_cons, List.append_assoc, parseFrom_of_slot hs.leads hpart, hnodes]
    refine ⟨_, rfl, ?_⟩
    rw [List.filterMap_append, List.filterMap_append, filterMap_call?_textNodes, List.nil_append]
    exact .cons_of_part hpart hcalls

/-- Slots with braces behind them that hold nothing well-formed are an error there. -/
theorem exists_parseFrom_of_malformed {slots : List Slot} (hw : ∀ s ∈ slots, s.WellFormed)
    {front body : List Char} (hfront : Leads front)
    (hended : ∀ (s : Slot) after, s.WellFormed →
      front ++ '{' :: '{' :: body ≠ s.source ++ after)
    (before : List Char) (trims : Bool) :
    ∃ fault, parseFrom (1 + lineEnds before) trims
        (slots.flatMap Slot.source ++ (front ++ '{' :: '{' :: body)) =
      .error (.malformed (1 + lineEnds (before ++ slots.flatMap Slot.source ++ front)) fault) := by
  induction slots generalizing before trims with
  | nil =>
    rw [List.flatMap_nil, List.nil_append, List.append_nil, lineEnds_append, ← Nat.add_assoc,
      parseFrom_of_leads hfront]
    split
    · rename_i fault _
      exact ⟨fault, rfl⟩
    · rename_i a ha
      obtain ⟨inner, rfl, hpart⟩ := readAction_eq_ok_iff.1 ha
      -- If the action could be read it would be one more slot, and there is none.
      refine absurd ?_ (hended ⟨front, inner⟩ a.rest ⟨hfront, _, _, _, _, hpart⟩)
      rw [Slot.source_append]
  | cons s slots ih =>
    obtain ⟨hs, hslots⟩ := List.forall_mem_cons.1 hw
    obtain ⟨line, left, right, node, hpart⟩ := hs.holds
    have hpart := hpart.onLine (1 + lineEnds (before ++ s.text))
    obtain ⟨fault, hfault⟩ := ih hslots (before ++ s.source) right
    rw [List.flatMap_cons, List.append_assoc, parseFrom_of_slot hs.leads hpart, hfault,
      List.append_assoc before]
    exact ⟨fault, rfl⟩

/-- Every template has a layout, and is read as it says: its calls are those of its slots, each on
the line of its own braces; and if it is malformed, the error has the line of the first braces that
hold nothing well-formed. -/
theorem positions_told (text : String) :
    Nonempty (Layout text.toList) ∧ ∀ l : Layout text.toList, l.Answers (parse text) := by
  refine ⟨nonempty_layout _, fun l => ?_⟩
  have hparse : parse text = parseFrom (1 + lineEnds []) false
      (l.slots.flatMap Slot.source ++ l.rest) := by
    rw [← l.whole]
    rfl
  cases hsplit : (splitOpen l.rest).2 with
  | none =>
    have hplain := plain_of_splitOpen hsplit
    obtain ⟨nodes, hnodes, hcalls⟩ := exists_parseFrom_of_slots l.wellFormed hplain [] false
    rw [hparse, hnodes]
    exact .nodes hplain hcalls
  | some body =>
    obtain ⟨hrest, hleads⟩ := leads_of_splitOpen hsplit
    obtain ⟨fault, hfault⟩ := exists_parseFrom_of_malformed l.wellFormed hleads
      (hrest ▸ l.ended) [] false
    rw [hparse, hrest, hfault]
    exact .malformed hrest hleads

/-- A comment and a raw string of two lines each stand in front of the call. -/
example : (parse ("\x7b\x7b/* \n */ -\x7d\x7d\n \x7b\x7b\x60\n\x60\x7d\x7d\n" ++
    "\x7b\x7bvar \"b\"\x7d\x7d")).toOption.map (·.filterMap Node.call?) =
      some [⟨"var", ["b"], 5⟩] := by
  decide +kernel

end Stencil.Template
