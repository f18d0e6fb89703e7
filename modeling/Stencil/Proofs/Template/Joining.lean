import Stencil.Proofs.Template.Comments

/-!
# Templates one after the other

A template that parses on its own may be followed by any action. It reads as it does by itself, but
for the blanks at its end that the action trims; and what follows the action reads as by itself, but
for the blanks at its start and further down. So a comment between two templates leaves the nodes of
both.
-/

namespace Stencil.Template

open Text

/-! ## Further down -/

/-- A node that many lines further down. -/
def Node.down (lines : Nat) : Node → Node
  | .call c => .call { c with line := c.line + lines }
  | node => node

/-- Texts have no lines. -/
theorem map_down_textNodes (lines : Nat) (left right : Bool) (cs : List Char) :
    (textNodes left right cs).map (Node.down lines) = textNodes left right cs := by
  have hcopies : Copies left right cs (textNodes left right cs) := textNodes_eq_iff.1 rfl
  generalize textNodes left right cs = nodes at hcopies
  cases hcopies with
  | text => rfl
  | nothing => rfl

/-- Words form the same node further down. -/
theorem Forms.down {line : Nat} {words : List Word} {node : Node} (h : Forms line words node)
    (lines : Nat) : Forms (line + lines) words (node.down lines) := by
  cases h with
  | literal => exact .literal
  | call => exact .call

/-- Words that form a node form one on every line. -/
theorem Forms.elsewhere {line : Nat} {words : List Word} {node : Node} (h : Forms line words node)
    (line' : Nat) : ∃ node', Forms line' words node' := by
  cases h with
  | literal => exact ⟨_, .literal⟩
  | call => exact ⟨_, .call⟩

namespace IsPart

variable {line : Nat} {left right : Bool} {node : Option Node} {body : List Char}

/-- What stands between braces has the same node further down. -/
theorem down (h : IsPart line left right node body) (lines : Nat) :
    IsPart (line + lines) left right (node.map (Node.down lines)) body := by
  cases h with
  | action h =>
    obtain ⟨hs, hf, hstart, hend⟩ := h
    exact .action (.intro hs (hf.down lines) hstart hend)
  | comment h => exact .comment h

/-- What stands between braces may stand there on every line. -/
theorem elsewhere (h : IsPart line left right node body) (line' : Nat) :
    ∃ node', IsPart line' left right node' body := by
  cases h with
  | action h =>
    obtain ⟨hs, hf, hstart, hend⟩ := h
    obtain ⟨node', hf'⟩ := hf.elsewhere line'
    exact ⟨some node', .action (.intro hs hf' hstart hend)⟩
  | comment h => exact ⟨none, .comment h⟩

end IsPart

/-- A template that starts further down has its nodes further down. -/
theorem Reads.down {line : Nat} {trims : Bool} {cs : List Char} {nodes : List Node}
    (h : Reads line trims cs nodes) (lines : Nat) :
    Reads (line + lines) trims cs (nodes.map (Node.down lines)) := by
  induction h with
  | last hp =>
    rw [map_down_textNodes]
    exact .last hp
  | @part line trims text left right node body rest nodes hl hpart _ ih =>
    have hnode : node.toList.map (Node.down lines) = (node.map (Node.down lines)).toList := by
      cases node <;> rfl
    rw [List.map_append, List.map_append, map_down_textNodes, hnode]
    rw [Nat.add_right_comm, Nat.add_right_comm line] at ih
    refine .part hl ?_ ih
    rw [Nat.add_right_comm]
    exact hpart.down lines

/-- Whether a template has nodes depends neither on its line nor on what stands before it. -/
theorem Reads.elsewhere {line : Nat} {trims : Bool} {cs : List Char} {nodes : List Node}
    (h : Reads line trims cs nodes) (line' : Nat) (trims' : Bool) :
    ∃ nodes', Reads line' trims' cs nodes' := by
  induction h generalizing line' trims' with
  | last hp => exact ⟨_, .last hp⟩
  | @part line trims text left right node body rest nodes hl hpart _ ih =>
    obtain ⟨nodes', hrest⟩ := ih (line' + lineEnds text + lineEnds (body ++ ['}', '}'])) right
    obtain ⟨node', hpart'⟩ := hpart.elsewhere (line' + lineEnds text)
    exact ⟨_, .part hl hpart' hrest⟩

/-! ## Trimmed templates -/

theorem Plain.within {cs ds : List Char} (h : Plain ds) (hcs : cs <:+: ds) : Plain cs :=
  fun hin => h (hin.trans hcs)

/-- An action may follow the end of a text that it may follow. -/
theorem Leads.of_append {cs ds : List Char} (h : Leads (cs ++ ds)) : Leads ds :=
  ⟨h.1.within (List.suffix_append cs ds).isInfix, fun c hc =>
    h.2 c (List.mem_getLast?_append_of_mem_getLast? hc)⟩

/-- Nodes that are the same but for blanks at the start of a text that stands first. -/
def LosesStart (nodes kept : List Node) : Prop :=
  ∃ gap text rest, Blanks gap ∧ nodes = textNodes false false (gap ++ text) ++ rest ∧
    kept = textNodes false false text ++ rest

/-- Nodes that are the same but for blanks at the end of a text that stands last. -/
def LosesEnd (nodes kept : List Node) : Prop :=
  ∃ front text gap, Blanks gap ∧ nodes = front ++ textNodes false false (text ++ gap) ∧
    kept = front ++ textNodes false false text

theorem textNodes_trimStart (trimsEnd : Bool) (cs : List Char) :
    textNodes true trimsEnd cs = textNodes false trimsEnd (trimStart isSpace cs) := rfl

/-- Trimming the end of a text is taking the blanks off it. -/
theorem textNodes_trimEnd (trimsStart : Bool) (cs : List Char) :
    textNodes trimsStart true cs = textNodes trimsStart false (trimEnd isSpace cs) := by
  cases trimsStart with
  | false => rfl
  | true =>
    rw [textNodes_trimStart, textNodes_trimStart, ← trimEnd_trimStart]
    rfl

/-- A text that is trimmed at its start loses blanks there. -/
theorem losesStart_textNodes (trimsEnd : Bool) (text : List Char) (rest : List Node) :
    LosesStart (textNodes false trimsEnd text ++ rest) (textNodes true trimsEnd text ++ rest) := by
  have plain (text : List Char) :
      LosesStart (textNodes false false text ++ rest) (textNodes true false text ++ rest) := by
    obtain ⟨gap, htext, hgap, -⟩ := trimStart_spec isSpace text
    exact ⟨gap, _, rest, hgap, by rw [← htext], rfl⟩
  cases trimsEnd with
  | false => exact plain text
  | true =>
    rw [textNodes_trimEnd, textNodes_trimEnd]
    exact plain _

/-- A text that is trimmed at its end loses blanks there. -/
theorem losesEnd_textNodes (trimsStart : Bool) (text : List Char) :
    LosesEnd (textNodes trimsStart false text) (textNodes trimsStart true text) := by
  have plain (text : List Char) :
      LosesEnd (textNodes false false text) (textNodes false true text) := by
    obtain ⟨gap, htext, hgap, -⟩ := trimEnd_spec isSpace text
    exact ⟨[], trimEnd isSpace text, gap, hgap, by rw [← htext]; rfl, rfl⟩
  cases trimsStart with
  | false => exact plain text
  | true => exact plain _

theorem LosesStart.refl (nodes : List Node) : LosesStart nodes nodes :=
  ⟨[], [], nodes, fun _ hc => absurd hc List.not_mem_nil, rfl, rfl⟩

theorem LosesEnd.refl (nodes : List Node) : LosesEnd nodes nodes :=
  ⟨nodes, [], [], fun _ hc => absurd hc List.not_mem_nil, (List.append_nil nodes).symm,
    (List.append_nil nodes).symm⟩

/-- What stands before nodes that lose blanks at their end does not matter. -/
theorem LosesEnd.append_left {nodes kept : List Node} (h : LosesEnd nodes kept)
    (before : List Node) : LosesEnd (before ++ nodes) (before ++ kept) := by
  obtain ⟨front, text, gap, hgap, rfl, rfl⟩ := h
  exact ⟨before ++ front, text, gap, hgap, (List.append_assoc _ _ _).symm,
    (List.append_assoc _ _ _).symm⟩

/-- Braces end the blanks at the start of a text. -/
theorem trimStart_braces (text after : List Char) :
    trimStart isSpace (text ++ '{' :: '{' :: after) =
      trimStart isSpace text ++ '{' :: '{' :: after := by
  apply trimStart_append
  rw [starts_cons]
  decide

/-- Braces end the blanks at the end of a text. -/
theorem trimEnd_braces (before rest : List Char) :
    trimEnd isSpace (before ++ ['}', '}'] ++ rest) =
      before ++ ['}', '}'] ++ trimEnd isSpace rest := by
  apply trimEnd_append
  rw [ends_append (List.cons_ne_nil _ _)]
  decide

/-- A template of which the start is trimmed has the nodes of what is left of it. -/
theorem Reads.trimmed {line : Nat} {cs : List Char} {nodes : List Node}
    (h : Reads line false cs nodes) :
    ∃ gap kept, cs = gap ++ trimStart isSpace cs ∧ Reads line true cs kept ∧
      Reads (line + lineEnds gap) false (trimStart isSpace cs) kept ∧ LosesStart nodes kept := by
  cases h with
  | last hp =>
    obtain ⟨gap, hcs, -, -⟩ := trimStart_spec isSpace cs
    have hplain : Plain (trimStart isSpace cs) := hp.within (List.dropWhile_suffix _).isInfix
    refine ⟨gap, textNodes true false cs, hcs, .last hp, .last hplain, ?_⟩
    simpa using losesStart_textNodes false cs []
  | @part line trims text left right node body rest nodes hl hpart hrest =>
    obtain ⟨gap, htext, -, -⟩ := trimStart_spec isSpace text
    -- The lines that are trimmed still count for what stands after them.
    have hline : line + lineEnds gap + lineEnds (trimStart isSpace text) =
        line + lineEnds text := by
      rw [Nat.add_assoc, ← lineEnds_append, ← htext]
    have hleads : Leads (trimStart isSpace text) := by
      rw [htext] at hl
      exact hl.of_append
    rw [trimStart_braces]
    refine ⟨gap, textNodes true left text ++ node.toList ++ nodes, ?_, .part hl hpart hrest, ?_, ?_⟩
    · rw [← List.append_assoc, ← htext]
    · rw [textNodes_trimStart]
      rw [← hline] at hpart hrest
      exact .part hleads hpart hrest
    · rw [List.append_assoc, List.append_assoc]
      exact losesStart_textNodes left text _

/-- A template after an action has the nodes of what the action leaves of it. -/
theorem Reads.preceded {line : Nat} {cs : List Char} {nodes : List Node}
    (h : Reads line false cs nodes) (trims : Bool) :
    ∃ kept, Reads line trims cs kept ∧ LosesStart nodes kept ∧
      ∀ gap rest, cs = gap ++ rest → KeepsFrom trims cs rest →
        Reads (line + lineEnds gap) false rest kept := by
  cases trims with
  | false =>
    refine ⟨nodes, h, .refl nodes, fun gap rest hcs hrest => ?_⟩
    obtain rfl : cs = rest := keepsFrom_iff.1 hrest
    obtain rfl : gap = [] := List.append_left_eq_self.1 hcs.symm
    exact h
  | true =>
    obtain ⟨gap, kept, hcs, hkept, hreads, hloses⟩ := h.trimmed
    refine ⟨kept, hkept, hloses, fun gap' rest hcs' hrest => ?_⟩
    obtain rfl : trimStart isSpace cs = rest := keepsFrom_iff.1 hrest
    obtain rfl : gap = gap' := List.append_cancel_right (hcs.symm.trans hcs')
    exact hreads

/-! ## A template and what follows it -/

/-- How reading goes on at opening braces on a line, after nodes that depend on what the action
there trims. -/
def goesOn (line : Nat) (kept : Bool → List Node) (body : List Char) : Except Error (List Node) :=
  match readAction line body with
  | .error fault => .error (.malformed line fault)
  | .ok action =>
    (parseFrom (line + lineEnds (body.take (body.length - action.rest.length)))
      action.trimsRight action.rest).map fun nodes =>
        kept action.trimsLeft ++ action.node.toList ++ nodes

/-- Nodes may be put before the nodes that reading goes on with. -/
theorem goesOn_map (line : Nat) (before : List Node) (kept : Bool → List Node) (body : List Char) :
    (goesOn line kept body).map (before ++ ·) =
      goesOn line (fun left => before ++ kept left) body := by
  unfold goesOn
  cases readAction line body with
  | error fault => rfl
  | ok action =>
    dsimp only
    generalize parseFrom _ _ action.rest = r
    cases r with
    | error e => rfl
    | ok nodes => simp [Except.map]

/-- A template may be followed by an action. It is read as it is by itself, up to the blanks at its
end that the action trims, and then reading goes on with the action. -/
theorem Reads.followed {line : Nat} {trims : Bool} {front : List Char} {nodes : List Node}
    (h : Reads line trims front nodes) (hend : ∀ c ∈ front.getLast?, c ≠ '{') :
    ∃ kept : Bool → List Node,
      (∀ left, LosesEnd nodes (kept left) ∧
        Reads line trims (if left then trimEnd isSpace front else front) (kept left)) ∧
      ∀ body, parseFrom line trims (front ++ '{' :: '{' :: body) =
        goesOn (line + lineEnds front) kept body := by
  induction h with
  | @last line trims text hp =>
    refine ⟨fun left => textNodes trims left text, fun left => ?_, fun body => ?_⟩
    · cases left with
      | false => exact ⟨.refl _, .last hp⟩
      | true =>
        refine ⟨losesEnd_textNodes trims text, ?_⟩
        obtain ⟨gap, htext, -, -⟩ := trimEnd_spec isSpace text
        show Reads line trims (trimEnd isSpace text) (textNodes trims true text)
        rw [textNodes_trimEnd]
        have hkept : trimEnd isSpace text <+: text := ⟨gap, htext.symm⟩
        exact .last (hp.within hkept.isInfix)
    · exact parseFrom_of_leads ⟨hp, hend⟩
  | @part line trims text left right node body rest nodes hl hpart hrest ih =>
    -- What is read here ends with its braces, whatever follows.
    have hassoc (rest : List Char) : text ++ '{' :: '{' :: (body ++ '}' :: '}' :: rest) =
        text ++ '{' :: '{' :: body ++ ['}', '}'] ++ rest := by simp
    have hlast : ∀ c ∈ rest.getLast?, c ≠ '{' := by
      intro c hc
      rw [hassoc] at hend
      exact hend c (List.mem_getLast?_append_of_mem_getLast? hc)
    obtain ⟨kept, hkept, hgoes⟩ := ih hlast
    refine ⟨fun left' => textNodes trims left text ++ node.toList ++ kept left', fun left' => ?_,
      fun tail => ?_⟩
    · obtain ⟨hloses, hreads⟩ := hkept left'
      refine ⟨hloses.append_left _, ?_⟩
      cases left' with
      | false => exact .part hl hpart hreads
      | true =>
        rw [if_pos rfl, hassoc, trimEnd_braces, ← hassoc]
        exact .part hl hpart hreads
    · have hline : line + lineEnds text + lineEnds (body ++ ['}', '}']) + lineEnds rest =
          line + lineEnds (text ++ '{' :: '{' :: (body ++ '}' :: '}' :: rest)) := by
        simp [lineEnds]
        omega
      have hwhole : text ++ '{' :: '{' :: (body ++ '}' :: '}' :: rest) ++ '{' :: '{' :: tail =
          text ++ '{' :: '{' :: (body ++ '}' :: '}' :: (rest ++ '{' :: '{' :: tail)) := by simp
      rw [hwhole, parseFrom_of_leads hl, readAction_of_part hpart]
      dsimp only
      rw [take_action, hgoes, hline]
      exact goesOn_map _ _ _ _

/-- Reading goes on over what may stand between braces. -/
theorem goesOn_of_part {line : Nat} {kept : Bool → List Node} {left right : Bool}
    {node : Option Node} {body rest : List Char} {nodes : List Node}
    (hpart : IsPart line left right node body)
    (hrest : Reads (line + lineEnds (body ++ ['}', '}'])) right rest nodes) :
    goesOn line kept (body ++ '}' :: '}' :: rest) = .ok (kept left ++ node.toList ++ nodes) := by
  rw [goesOn, readAction_of_part hpart]
  dsimp only
  rw [take_action, parseFrom_of_reads hrest]
  rfl

/-- Parsing decides the grammar with comments. -/
theorem parse_eq_ok {text : String} {nodes : List Node} :
    parse text = .ok nodes ↔ Reads 1 false text.toList nodes :=
  parseFrom_eq_ok_iff

theorem parse_ofList {cs : List Char} : parse (String.ofList cs) = parseFrom 1 false cs := by
  rw [parse, String.toList_ofList]

/-! ## Comments between templates -/

/-- What comes of two templates with a comment in its braces between them. -/
structure Joined (front : String) (left : Bool) (between : List Char) (right : Bool)
    (back : String) (nodes nodes' kept kept' : List Node) : Prop where
  /-- The whole has the nodes that are kept of both in their order and no other, those of the second
  as many lines further down as it starts. -/
  whole : parse (String.ofList (front.toList ++ between ++ back.toList)) =
    .ok (kept ++ kept'.map (Node.down (lineEnds (front.toList ++ between))))
  /-- Of the first template all nodes are kept, but for blanks at its end. -/
  losesEnd : LosesEnd nodes kept
  /-- Of the second template all nodes are kept, but for blanks at its start. -/
  losesStart : LosesStart nodes' kept'
  /-- What is kept of the first are the nodes of it without the blanks at its end, if the comment
  trims those, and else all. -/
  front : ∀ start, KeepsUpTo left front.toList start → parse (String.ofList start) = .ok kept
  /-- What is kept of the second are the nodes of it without the blanks at its start, if the comment
  trims those, and else all. -/
  back : ∀ gap rest, back.toList = gap ++ rest → KeepsFrom right back.toList rest →
    ∃ own, parse (String.ofList rest) = .ok own ∧ kept' = own.map (Node.down (lineEnds gap))

/-- Two templates with a comment between them are joined, where the first does not end with a
brace. -/
theorem joined_of_isComment {front back : String} {left right : Bool} {body : List Char}
    {nodes nodes' : List Node} (hc : IsComment left right body) (hfront : parse front = .ok nodes)
    (hback : parse back = .ok nodes') (hend : ∀ c ∈ front.toList.getLast?, c ≠ '{') :
    ∃ kept kept', Joined front left ('{' :: '{' :: (body ++ ['}', '}'])) right back nodes nodes'
      kept kept' := by
  -- The comment trims the end of the first template and the start of the second, and no more.
  obtain ⟨kept, hkept, hgoes⟩ := (parse_eq_ok.1 hfront).followed hend
  obtain ⟨kept', hreads, hloses, hrest⟩ := (parse_eq_ok.1 hback).preceded right
  refine ⟨kept left, kept', ?_, (hkept left).1, hloses, fun start hstart => ?_,
    fun gap rest hgap hkeeps => ?_⟩
  · have hwhole : front.toList ++ '{' :: '{' :: (body ++ ['}', '}']) ++ back.toList =
        front.toList ++ '{' :: '{' :: (body ++ '}' :: '}' :: back.toList) := by simp
    have hline : 1 + lineEnds (front.toList ++ '{' :: '{' :: (body ++ ['}', '}'])) =
        1 + lineEnds front.toList + lineEnds (body ++ ['}', '}']) := by
      simp [lineEnds]
      omega
    have hdown := hreads.down (lineEnds (front.toList ++ '{' :: '{' :: (body ++ ['}', '}'])))
    rw [hline] at hdown
    rw [parse_ofList, hwhole, hgoes, goesOn_of_part (.comment hc) hdown]
    simp
  · rw [parse_ofList, ← keepsUpTo_iff.1 hstart]
    exact parseFrom_of_reads (hkept left).2
  · obtain ⟨own, hown⟩ := (hrest gap rest hgap hkeeps).elsewhere 1 false
    refine ⟨own, by rw [parse_ofList, parseFrom_of_reads hown], ?_⟩
    have hsame := parseFrom_of_reads (hown.down (lineEnds gap))
    rw [parseFrom_of_reads (hrest gap rest hgap hkeeps)] at hsame
    exact Except.ok.inj hsame

/-- What opens with a comment is accepted after a template exactly if it is a comment up to its
closing braces and a template follows. -/
theorem accepted_iff_of_opensWithComment {front : String} {nodes : List Node} {body : List Char}
    (hfront : parse front = .ok nodes) (hend : ∀ c ∈ front.toList.getLast?, c ≠ '{')
    (hc : OpensWithComment body) :
    (∃ all, parse (String.ofList (front.toList ++ '{' :: '{' :: body)) = .ok all) ↔
      ∃ left right inner rest nodes', IsComment left right inner ∧
        body = inner ++ '}' :: '}' :: rest ∧ parse (String.ofList rest) = .ok nodes' := by
  obtain ⟨kept, -, hgoes⟩ := (parse_eq_ok.1 hfront).followed hend
  simp only [parse_ofList, hgoes]
  constructor
  · rintro ⟨all, hall⟩
    unfold goesOn at hall
    split at hall
    · cases hall
    · rename_i a ha
      obtain ⟨inner, hbody, hcomment, -⟩ := isComment_of_readAction hc ha
      obtain ⟨rest, hrest, -⟩ := map_eq_ok_iff.1 hall
      obtain ⟨nodes', hown⟩ := (reads_of_parseFrom hrest).elsewhere 1 false
      exact ⟨_, _, inner, a.rest, nodes', hcomment, hbody, parseFrom_of_reads hown⟩
  · rintro ⟨left, right, inner, rest, nodes', hcomment, rfl, hrest⟩
    obtain ⟨after, hafter⟩ := (reads_of_parseFrom hrest).elsewhere
      (1 + lineEnds front.toList + lineEnds (inner ++ ['}', '}'])) right
    exact ⟨_, goesOn_of_part (.comment hcomment) hafter⟩

/-- Between a template that does not end with a brace and any other one may stand a comment that
does not start with a slash and holds no `*/`: it has no node, and those of the templates stay, but
for what it trims. What opens with a comment and is none is not accepted: a `*/` has to follow, if
only one that shares its star with the opening. -/
theorem comments_delimited (front : String) (nodes : List Node) (hfront : parse front = .ok nodes)
    (hend : ∀ d ∈ front.toList.getLast?, d ≠ '{') :
    (∀ back nodes' left right opening c closing, parse back = .ok nodes' →
      Opening left opening → Closing right closing → ¬ ['*', '/'] <:+: c → ¬ ['/'] <+: c →
      ∃ kept kept', Joined front left
        ('{' :: '{' :: (opening ++ '/' :: '*' :: (c ++ ['*', '/']) ++ closing ++ ['}', '}']))
        right back nodes nodes' kept kept') ∧
    ∀ body, OpensWithComment body →
      ((∃ all, parse (String.ofList (front.toList ++ '{' :: '{' :: body)) = .ok all) ↔
        ∃ left right inner rest nodes', IsComment left right inner ∧
          body = inner ++ '}' :: '}' :: rest ∧ parse (String.ofList rest) = .ok nodes') := by
  refine ⟨?_, fun body => accepted_iff_of_opensWithComment hfront hend⟩
  intro back nodes' left right opening c closing hback ho hclosing hc hslash
  exact joined_of_isComment (.intro ho (.apart hslash hc) hclosing) hfront hback hend

/-- A comment that holds a quote, braces and an opening, and trims on both sides; and one that is
closed by its opening. -/
theorem comments_delimited_trimming :
    parse "x\n" = .ok [.text "x\n"] ∧
      parse " \x7b\x7bvar \"b\"\x7d\x7d" = .ok [.text " ", .call ⟨"var", ["b"], 1⟩] ∧
      (∃ kept kept', Joined "x\n" true
        ('{' :: '{' :: (['-', ' '] ++
          '/' :: '*' :: (['"', '}', '}', '/', '*', ' '] ++ ['*', '/']) ++
            (['\n'] ++ ['-']) ++ ['}', '}']))
        true " \x7b\x7bvar \"b\"\x7d\x7d" [.text "x\n"] [.text " ", .call ⟨"var", ["b"], 1⟩]
        kept kept') ∧
      ∃ all, parse (String.ofList ("x\n".toList ++ '{' :: '{' :: ['/', '*', '/', '}', '}'])) =
        .ok all := by
  have hfront : parse "x\n" = .ok [.text "x\n"] := eq_ok_of_toOption (by decide +kernel)
  have hback : parse " \x7b\x7bvar \"b\"\x7d\x7d" = .ok [.text " ", .call ⟨"var", ["b"], 1⟩] :=
    eq_ok_of_toOption (by decide +kernel)
  have hnone : parse (String.ofList []) = .ok [] := eq_ok_of_toOption (by decide +kernel)
  have hlast : "x\n".toList.getLast? = some '\n' := rfl
  have hend : ∀ d ∈ "x\n".toList.getLast?, d ≠ '{' := by
    rw [hlast]
    rintro d ⟨⟩
    decide
  have hblanks : Blanks ['\n'] := fun c hc => List.mem_singleton.1 hc ▸ rfl
  refine ⟨hfront, hback, ?_, ?_⟩
  · exact (comments_delimited _ _ hfront hend).1 _ _ _ _ _ _ _ hback (.trims rfl)
      (.trims (List.cons_ne_nil _ _) hblanks) (by decide) (by decide)
  · refine ((comments_delimited _ _ hfront hend).2 _ (.inl ⟨['/', '}', '}'], rfl⟩)).2 ?_
    exact ⟨false, false, ['/', '*', '/'], [], [], .intro .plain .touching .plain, rfl, hnone⟩

/-- The opening of a comment closes it where a slash follows: so much is a comment, and a comment
that goes on from there is none. -/
theorem closed_by_opening :
    parse "\x7b\x7b/*/\x7d\x7d" = .ok [] ∧
      parse "\x7b\x7b/*/ a */\x7d\x7d" = .error (.malformed 1 .textAfterComment) := by
  decide +kernel

end Stencil.Template
