import Stencil.Proofs.Template.Grammar

/-!
# Comments

A comment stands between `/*` and the `*/` that comes first. That is looked for from the opening on,
so the star of `/*` and a slash after it close the comment at once; any other comment holds no `*/`
and does not start with a slash.

With comments among the actions, the grammar gives the nodes of every template that has any.
-/

namespace Stencil.Template

open Text

/-! ## Comments -/

/-- Two characters stand side by side at the start of a text or later on. -/
theorem pair_infix_cons {a b c : Char} {cs : List Char} :
    [a, b] <:+: c :: cs ↔ (a = c ∧ cs.head? = some b) ∨ [a, b] <:+: cs := by
  rw [List.infix_cons_iff, List.cons_prefix_cons]
  cases cs with
  | nil => simp
  | cons d cs => simp [List.cons_prefix_cons, eq_comm]

/-- The search for `*/` stops at the first one. -/
theorem afterStarSlash_eq_some_iff {cs after : List Char} :
    afterStarSlash cs = some after ↔
      ∃ before, cs = before ++ '*' :: '/' :: after ∧ ¬ ['*', '/'] <:+: before := by
  constructor
  · intro h
    fun_induction afterStarSlash cs with
    | case1 => cases h
    | case2 rest =>
      obtain rfl := Option.some.inj h
      exact ⟨[], rfl, by simp⟩
    | case3 c rest hclose ih =>
      obtain ⟨before, rfl, hbefore⟩ := ih h
      refine ⟨c :: before, rfl, fun hin => ?_⟩
      rcases pair_infix_cons.1 hin with ⟨rfl, hhead⟩ | hin
      · obtain ⟨tail, rfl⟩ := List.head?_eq_some_iff.1 hhead
        exact hclose _ rfl rfl
      · exact hbefore hin
  · rintro ⟨before, rfl, hbefore⟩
    induction before with
    | nil => rfl
    | cons c before ih =>
      rw [pair_infix_cons, not_or] at hbefore
      rw [List.cons_append, afterStarSlash, ih hbefore.2]
      -- A star at the end is followed by the star that closes.
      rintro tail rfl htail
      cases before with
      | nil => cases htail
      | cons d before =>
        obtain rfl : d = '/' := (List.cons.inj htail).1
        exact hbefore.1 ⟨rfl, rfl⟩

/-- A comment from its `/*` to its `*/`. -/
inductive CommentText : List Char → Prop
  | apart {c} : ¬ ['/'] <+: c → ¬ ['*', '/'] <:+: c →
      CommentText ('/' :: '*' :: (c ++ ['*', '/']))
  /-- The two may share their star. -/
  | touching : CommentText ['/', '*', '/']

/-- What may stand before a comment, and whether it trims the text on its side. -/
inductive Opening : Bool → List Char → Prop
  | plain : Opening false []
  | trims {blank} : isSpace blank = true → Opening true ['-', blank]

/-- What may stand after a comment, and whether it trims the text on its side. -/
inductive Closing : Bool → List Char → Prop
  | plain : Closing false []
  | trims {gap} : gap ≠ [] → Blanks gap → Closing true (gap ++ ['-'])

/-- A comment between its braces, and what it trims. -/
inductive IsComment : Bool → Bool → List Char → Prop
  | intro {left right opening text closing} : Opening left opening → CommentText text →
      Closing right closing → IsComment left right (opening ++ text ++ closing)

/-- A comment starts with its opening. -/
theorem CommentText.opens {text : List Char} (h : CommentText text) : ['/', '*'] <+: text := by
  cases h with
  | apart => exact ⟨_, rfl⟩
  | touching => exact ⟨['/'], rfl⟩

/-- The comment at the start of a text ends where the search for `*/` stops. -/
theorem afterStarSlash_of_opens {cs after : List Char} (h : ['/', '*'] <+: cs) :
    afterStarSlash cs = some after ↔ ∃ text, CommentText text ∧ cs = text ++ after := by
  obtain ⟨tail, rfl⟩ := h
  rw [afterStarSlash_eq_some_iff]
  constructor
  · rintro ⟨before, hcs, hbefore⟩
    simp only [List.cons_append, List.nil_append] at hcs
    -- The search starts at the opening, so its star may be the one that closes.
    match before with
    | [] => exact absurd (List.cons.inj hcs).1 (by decide)
    | [d] =>
      simp only [List.cons_append, List.nil_append, List.cons.injEq, true_and] at hcs
      obtain ⟨rfl, rfl⟩ := hcs
      exact ⟨_, .touching, rfl⟩
    | d :: d' :: c =>
      simp only [List.cons_append, List.cons.injEq] at hcs
      obtain ⟨rfl, rfl, rfl⟩ := hcs
      rw [pair_infix_cons, pair_infix_cons, not_or, not_or] at hbefore
      refine ⟨_, .apart (c := c) (fun hslash => ?_) hbefore.2.2, by simp⟩
      obtain ⟨rest, rfl⟩ := hslash
      exact hbefore.2.1 ⟨rfl, rfl⟩
  · rintro ⟨text, htext, hcs⟩
    cases htext with
    | @apart c hslash hc =>
      refine ⟨'/' :: '*' :: c, by simpa using hcs, ?_⟩
      rw [pair_infix_cons, pair_infix_cons, not_or, not_or]
      refine ⟨fun h => absurd h.1 (by decide), fun h => hslash ?_, hc⟩
      obtain ⟨rest, rfl⟩ := List.head?_eq_some_iff.1 h.2
      exact ⟨rest, rfl⟩
    | touching => exact ⟨['/'], hcs, by decide⟩

/-- What is read as a comment is a comment, what may close its braces, and the rest. -/
theorem readComment_eq_ok_iff {left : Bool} {cs : List Char} {a : Action}
    (h : ['/', '*'] <+: cs) :
    readComment left cs = .ok a ↔
      ∃ text closing, CommentText text ∧ Closing a.trimsRight closing ∧
        cs = text ++ (closing ++ '}' :: '}' :: a.rest) ∧ a.node = none ∧ a.trimsLeft = left := by
  unfold readComment
  constructor
  · intro hread
    -- The reader looks for the end of the comment first, and then for the braces.
    split at hread
    · cases hread
    · rename_i after hafter
      obtain ⟨text, htext, rfl⟩ := (afterStarSlash_of_opens h).1 hafter
      split at hread
      · rename_i hbraces
        cases hread
        refine ⟨text, [], htext, .plain, ?_, rfl, rfl⟩
        rw [← List.take_append_drop 2 after, beq_iff_eq.1 hbraces]
        rfl
      · dsimp only at hread
        split at hread
        · rename_i hmark
          cases hread
          rw [Bool.and_eq_true, decide_eq_true_eq, beq_iff_eq] at hmark
          have hsplit : after.takeWhile isSpace ++ after.dropWhile isSpace = after :=
            List.takeWhile_append_dropWhile
          -- The mark counts only if there were blanks to drop before it.
          have hgap : after.takeWhile isSpace ≠ [] := by
            intro hnil
            rw [hnil, List.nil_append] at hsplit
            rw [hsplit] at hmark
            exact Nat.lt_irrefl _ hmark.1
          refine ⟨text, after.takeWhile isSpace ++ ['-'], htext,
            .trims hgap fun c hc => List.mem_takeWhile_imp hc, ?_, rfl, rfl⟩
          conv_lhs => rw [← hsplit, ← List.take_append_drop 3 (after.dropWhile isSpace), hmark.2]
          simp
        · cases hread
  · rintro ⟨text, closing, htext, hclosing, rfl, hnode, rfl⟩
    rw [(afterStarSlash_of_opens h).2 ⟨text, htext, rfl⟩]
    obtain ⟨node, left, right, rest⟩ := a
    cases hnode
    cases hclosing with
    | plain => rfl
    | @trims gap hne hgap =>
      obtain ⟨c, gap, rfl⟩ := List.exists_cons_of_ne_nil hne
      have hc : c ≠ '}' := by
        rintro rfl
        exact absurd (hgap _ List.mem_cons_self) (by decide)
      have hdrop : (c :: gap ++ ['-'] ++ '}' :: '}' :: rest).dropWhile isSpace =
          '-' :: '}' :: '}' :: rest := by
        rw [List.append_assoc, List.dropWhile_append_of_pos hgap]
        rfl
      -- That the text got shorter is how the reader tells that there was a blank.
      have hshort : ('-' :: '}' :: '}' :: rest).length <
          (c :: gap ++ ['-'] ++ '}' :: '}' :: rest).length := by
        simp only [List.length_append, List.length_cons]
        omega
      dsimp only
      rw [if_neg (by simp [hc]), hdrop, decide_eq_true hshort]
      rfl

/-! ## Actions and comments -/

/-- A comment is opened after what may stand before it. -/
theorem opensWithComment_iff {cs : List Char} :
    OpensWithComment cs ↔
      ∃ left opening text, Opening left opening ∧ ['/', '*'] <+: text ∧ cs = opening ++ text := by
  constructor
  · rintro (h | ⟨c, rest, rfl, hc, h⟩)
    · exact ⟨false, [], cs, .plain, h, rfl⟩
    · exact ⟨true, ['-', c], rest, .trims hc, h, rfl⟩
  · rintro ⟨left, opening, text, ho, h, rfl⟩
    cases ho with
    | plain => exact .inl h
    | @trims c hc => exact .inr ⟨c, text, rfl, hc, h⟩

/-- An action with a comment in its opening is read as a comment. -/
theorem readAction_of_opening {line : Nat} {left : Bool} {opening text : List Char}
    (ho : Opening left opening) (h : ['/', '*'] <+: text) :
    readAction line (opening ++ text) = readComment left text := by
  have hopens : opensComment text = true := opensComment_iff.2 h
  cases ho with
  | plain =>
    obtain ⟨tail, rfl⟩ := h
    show readAction line ('/' :: '*' :: tail) = _
    rw [readAction]
    · exact if_pos hopens
    · rintro c rest ⟨⟩
  | trims hc =>
    rw [List.cons_append, List.cons_append, List.nil_append, readAction, if_pos hc, if_pos hopens]

/-- What may stand between braces: an action with its node, or a comment with none. -/
inductive IsPart (line : Nat) : Bool → Bool → Option Node → List Char → Prop
  | action {left right node body} : IsAction line left right node body →
      IsPart line left right (some node) body
  | comment {left right body} : IsComment left right body → IsPart line left right none body

/-- What opens with a comment and is read at all is a comment up to its closing braces. -/
theorem isComment_of_readAction {line : Nat} {cs : List Char} {a : Action}
    (hc : OpensWithComment cs) (h : readAction line cs = .ok a) :
    ∃ body, cs = body ++ '}' :: '}' :: a.rest ∧ IsComment a.trimsLeft a.trimsRight body ∧
      a.node = none := by
  obtain ⟨left, opening, tail, ho, htail, rfl⟩ := opensWithComment_iff.1 hc
  rw [readAction_of_opening ho htail, readComment_eq_ok_iff htail] at h
  obtain ⟨text, closing, htext, hclosing, rfl, hnode, rfl⟩ := h
  exact ⟨opening ++ text ++ closing, by simp, .intro ho htext hclosing, hnode⟩

/-- What follows opening braces is read exactly as it stands up to its closing braces. -/
theorem readAction_eq_ok_iff {line : Nat} {cs : List Char} {a : Action} :
    readAction line cs = .ok a ↔
      ∃ body, cs = body ++ '}' :: '}' :: a.rest ∧
        IsPart line a.trimsLeft a.trimsRight a.node body := by
  constructor
  · intro h
    by_cases hc : OpensWithComment cs
    · obtain ⟨body, hcs, hcomment, hnode⟩ := isComment_of_readAction hc h
      exact ⟨body, hcs, hnode ▸ .comment hcomment⟩
    · obtain ⟨body, node, hcs, hnode, ha⟩ := isAction_of_readAction h hc
      exact ⟨body, hcs, hnode ▸ .action ha⟩
  · rintro ⟨body, rfl, hpart⟩
    obtain ⟨node, left, right, rest⟩ := a
    cases hpart with
    | action ha => exact readAction_of_isAction ha
    | comment hc =>
      obtain ⟨ho, htext, hclosing⟩ := hc
      rename_i opening text closing
      have hopens : ['/', '*'] <+: text ++ (closing ++ '}' :: '}' :: rest) :=
        htext.opens.trans (List.prefix_append _ _)
      rw [List.append_assoc, List.append_assoc, readAction_of_opening ho hopens,
        readComment_eq_ok_iff hopens]
      exact ⟨text, closing, htext, hclosing, rfl, rfl, rfl⟩

/-- What may stand between braces is read as what it is. -/
theorem readAction_of_part {line : Nat} {left right : Bool} {node : Option Node} {body : List Char}
    (h : IsPart line left right node body) (rest : List Char) :
    readAction line (body ++ '}' :: '}' :: rest) = .ok ⟨node, left, right, rest⟩ :=
  readAction_eq_ok_iff.2 ⟨body, rfl, h⟩

/-! ## Templates with comments -/

/-- The nodes of the part of a template that starts on a line, after an action that may trim its
start. -/
inductive Reads : Nat → Bool → List Char → List Node → Prop
  | last {line trims text} : Plain text → Reads line trims text (textNodes trims false text)
  | part {line trims text left right node body rest nodes} : Leads text →
      IsPart (line + lineEnds text) left right node body →
      Reads (line + lineEnds text + lineEnds (body ++ ['}', '}'])) right rest nodes →
      Reads line trims (text ++ '{' :: '{' :: (body ++ '}' :: '}' :: rest))
        (textNodes trims left text ++ node.toList ++ nodes)

/-- A template that is in the grammar with comments is parsed as its nodes. -/
theorem parseFrom_of_reads {line : Nat} {trims : Bool} {cs : List Char} {nodes : List Node}
    (h : Reads line trims cs nodes) : parseFrom line trims cs = .ok nodes := by
  induction h with
  | last hp => exact parseFrom_of_plain hp
  | @part line trims text left right node body rest nodes hl hpart _ ih =>
    rw [parseFrom_of_leads hl, readAction_of_part hpart]
    dsimp only
    rw [take_action, ih]
    rfl

/-- What is parsed is in the grammar with comments. -/
theorem reads_of_parseFrom {line : Nat} {trims : Bool} {cs : List Char} {nodes : List Node}
    (h : parseFrom line trims cs = .ok nodes) : Reads line trims cs nodes := by
  fun_induction parseFrom line trims cs generalizing nodes with
  | case1 line trims cs hs =>
    obtain rfl := Except.ok.inj h
    rw [splitOpen_none hs]
    exact .last (plain_of_splitOpen hs)
  | case2 => cases h
  | case3 line trims cs body hs here a ha =>
    rename_i passed ih
    obtain ⟨hcs, hl⟩ := leads_of_splitOpen hs
    obtain ⟨inner, rfl, hpart⟩ := readAction_eq_ok_iff.1 ha
    have hpassed : passed = inner ++ ['}', '}'] := take_action
    obtain ⟨nodes', hr, rfl⟩ := map_eq_ok_iff.1 h
    have hrest : Reads (line + lineEnds (splitOpen cs).1 + lineEnds (inner ++ ['}', '}']))
        a.trimsRight a.rest nodes' := by
      rw [hpassed] at ih hr
      exact ih hr
    have hpart : IsPart (line + lineEnds (splitOpen cs).1) _ _ _ _ := hpart
    generalize (splitOpen cs).1 = text at hcs hl hpart hrest ⊢
    rw [hcs]
    exact .part hl hpart hrest

/-- Parsing decides the grammar with comments. -/
theorem parseFrom_eq_ok_iff {line : Nat} {trims : Bool} {cs : List Char} {nodes : List Node} :
    parseFrom line trims cs = .ok nodes ↔ Reads line trims cs nodes :=
  ⟨reads_of_parseFrom, parseFrom_of_reads⟩

end Stencil.Template
