import Stencil.Proofs.Json.Lexing
import Stencil.Proofs.Json.Reading

/-!
# What is read is a document

What a reader still has to take, to get to the end of a document, is determined by where it stands:
the value that is due, and what closes the containers that are open, from the innermost outwards.
Every step that a reader takes leads from what it has to take to what is left of it. So whatever it
takes to the end are the symbols of a document, and a text is read only if it is a strict text of
one. This is so for every shape: what is wanted of a document decides on which documents are read,
and never lets anything else pass.
-/

namespace Stencil.Json

open Stencil.Json.Tree (itemSymbols moreItems fieldSymbols moreFields)

/-- Symbols that close all the containers that are open, each of them after an item. -/
inductive Closes : List Frame → List Symbol → Prop
  | done : Closes [] []
  | list {frame : Frame} {outer rest} (ds) : frame.isList = true → Closes outer rest →
      Closes (frame :: outer) (moreItems false ds ++ .closeList :: rest)
  | table {frame : Frame} {outer rest} (ds) : frame.isList = false → Closes outer rest →
      Closes (frame :: outer) (moreFields false ds ++ .closeTable :: rest)

/-- Symbols that take a reader to the end of a document. -/
inductive Finishes : Reader → List Symbol → Prop
  | value {shape stack rest} (d : Tree) : Closes stack rest →
      Finishes ⟨.value shape, stack⟩ (d.symbols false ++ rest)
  | firstItem {frame : Frame} {stack rest} (ds) : frame.isList = true → Closes stack rest →
      Finishes ⟨.first frame, stack⟩ (itemSymbols false ds ++ .closeList :: rest)
  | firstField {frame : Frame} {stack rest} (ds) : frame.isList = false → Closes stack rest →
      Finishes ⟨.first frame, stack⟩ (fieldSymbols false ds ++ .closeTable :: rest)
  | next {frame stack symbols} : Closes (frame :: stack) symbols →
      Finishes ⟨.next frame, stack⟩ symbols
  | item {frame : Frame} {stack rest} (d ds) : frame.isList = true → Closes stack rest →
      Finishes ⟨.again frame, stack⟩ (itemSymbols false (d :: ds) ++ .closeList :: rest)
  | field {frame : Frame} {stack rest} (d ds) : frame.isList = false → Closes stack rest →
      Finishes ⟨.again frame, stack⟩ (fieldSymbols false (d :: ds) ++ .closeTable :: rest)
  | colon {shape stack rest} (d : Tree) : Closes stack rest →
      Finishes ⟨.colon shape, stack⟩ (.colon :: d.symbols false ++ rest)
  | whole {v stack} : Finishes ⟨.whole v, stack⟩ []

section

variable {r r' : Reader} {t : Token} {s : Symbol} {stack : List Frame} {frame : Frame}
  {symbols rest : List Symbol} {shape : Shape}

/-- A container stays a list or a table as it takes items. -/
theorem Frame.isList_add (frame : Frame) (v : Value) : (frame.add v).isList = frame.isList := by
  cases frame with
  | record known found name => cases name <;> rfl
  | _ => rfl

/-- A container that holds one more item is closed by the same symbols. -/
theorem Closes.of_add {v : Value} (h : Closes (frame.add v :: stack) symbols) :
    Closes (frame :: stack) symbols := by
  cases h with
  | list ds hlist hrest => exact .list ds (frame.isList_add v ▸ hlist) hrest
  | table ds hlist hrest => exact .table ds (frame.isList_add v ▸ hlist) hrest

/-- Once a value is complete, the open containers are left to be closed. -/
theorem Finishes.closes {v : Value} (h : Finishes (Reader.complete v stack) symbols) :
    Closes stack symbols := by
  cases stack with
  | nil =>
    cases h
    exact .done
  | cons frame stack =>
    cases h with
    | next h => exact h.of_add

/-- An open list is closed after items, and then the containers around it. -/
theorem Closes.exists_items (h : Closes (frame :: stack) symbols) (hlist : frame.isList = true) :
    ∃ ds rest, symbols = moreItems false ds ++ .closeList :: rest ∧ Closes stack rest := by
  cases h with
  | list ds _ hrest => exact ⟨ds, _, rfl, hrest⟩
  | table _ htable _ => exact absurd (hlist.symm.trans htable) Bool.noConfusion

/-- An open table is closed after fields, and then the containers around it. -/
theorem Closes.exists_fields (h : Closes (frame :: stack) symbols) (htable : frame.isList = false) :
    ∃ ds rest, symbols = moreFields false ds ++ .closeTable :: rest ∧ Closes stack rest := by
  cases h with
  | list _ hlist _ => exact absurd (hlist.symm.trans htable) Bool.noConfusion
  | table ds _ hrest => exact ⟨ds, _, rfl, hrest⟩

/-- A list that has just been opened is finished by items and its closing bracket. -/
theorem Finishes.exists_items (h : Finishes ⟨.first frame, stack⟩ symbols)
    (hlist : frame.isList = true) :
    ∃ ds rest, symbols = itemSymbols false ds ++ .closeList :: rest ∧ Closes stack rest := by
  cases h with
  | firstItem ds _ hrest => exact ⟨ds, _, rfl, hrest⟩
  | firstField _ htable _ => exact absurd (hlist.symm.trans htable) Bool.noConfusion

/-- A table that has just been opened is finished by fields and its closing brace. -/
theorem Finishes.exists_fields (h : Finishes ⟨.first frame, stack⟩ symbols)
    (htable : frame.isList = false) :
    ∃ ds rest, symbols = fieldSymbols false ds ++ .closeTable :: rest ∧ Closes stack rest := by
  cases h with
  | firstItem _ hlist _ => exact absurd (hlist.symm.trans htable) Bool.noConfusion
  | firstField ds _ hrest => exact ⟨ds, _, rfl, hrest⟩

/-! ## What a step leads from -/

namespace Reader

/-- A scalar that is accepted completes some value. -/
theorem exists_of_accept : ∀ (shape : Shape) (v : Scalar), accept shape v t stack = .ok r →
    ∃ value, r = complete value stack
  | .optional inner, v, h => by
    cases v with
    | null => exact ⟨_, (Except.ok.inj h).symm⟩
    | _ => exact exists_of_accept inner _ h
  | .integer, v, h => by
    cases v with
    | number n =>
      cases n with
      | int n =>
        simp only [accept] at h
        split at h
        · exact ⟨_, (Except.ok.inj h).symm⟩
        · cases h
      | real x => cases h
    | _ => cases h
  | .any, v, h => by cases v <;> exact ⟨_, (Except.ok.inj h).symm⟩
  | .skipped, v, h => by cases v <;> exact ⟨_, (Except.ok.inj h).symm⟩
  | .text, v, h => by cases v <;> first | exact ⟨_, (Except.ok.inj h).symm⟩ | cases h
  | .flag, v, h => by cases v <;> first | exact ⟨_, (Except.ok.inj h).symm⟩ | cases h
  | .list _, v, h => by cases v <;> cases h
  | .table _, v, h => by cases v <;> cases h
  | .record _ _, v, h => by cases v <;> cases h

/-- A container that is entered waits for its first item. -/
theorem eq_of_enter (h : enter frame t stack = .ok r) : r = ⟨.first frame, stack⟩ := by
  unfold enter at h
  split at h
  · cases h
  · exact (Except.ok.inj h).symm

/-- An opening bracket that is taken opens a list. -/
theorem exists_of_openList (h : openList shape t stack = .ok r) :
    ∃ frame, frame.isList = true ∧ r = ⟨.first frame, stack⟩ := by
  unfold openList at h
  split at h
  iterate 4 exact ⟨_, rfl, eq_of_enter h⟩
  cases h

/-- An opening brace that is taken opens a table. -/
theorem exists_of_openTable (h : openTable shape t stack = .ok r) :
    ∃ frame, frame.isList = false ∧ r = ⟨.first frame, stack⟩ := by
  unfold openTable at h
  split at h
  iterate 4 exact ⟨_, rfl, eq_of_enter h⟩
  cases h

/-- The next item of a list is due as a value inside of it. -/
theorem exists_of_startItem (hlist : frame.isList = true) (h : startItem frame t stack = .ok r) :
    ∃ shape frame', Frame.isList frame' = true ∧ startValue shape t (frame' :: stack) = .ok r := by
  unfold startItem at h
  split at h
  · exact ⟨_, _, rfl, h⟩
  · exact ⟨_, _, rfl, h⟩
  · exact ⟨_, _, hlist, h⟩

/-- A name in a table leads to the colon before its value, if it is not there yet. -/
theorem startField_eq (htable : frame.isList = false) (name : String) (stack : List Frame) :
    (∃ shape frame', Frame.isList frame' = false ∧
      startField frame name stack = ⟨.colon shape, frame' :: stack⟩) ∨
    startField frame name stack = ⟨.repeated name, stack⟩ := by
  unfold startField
  split
  · exact .inl ⟨_, _, rfl, rfl⟩
  · split
    · exact .inl ⟨_, _, rfl, rfl⟩
    · split
      · exact .inr rfl
      · exact .inl ⟨_, _, rfl, rfl⟩
  · exact .inl ⟨_, _, htable, rfl⟩

/-- The token where a name is due is a string. -/
theorem exists_of_fieldName {missing : Cause} (h : fieldName frame missing t stack = .ok r)
    (hs : t.kind.WrittenAs s) :
    ∃ name pieces, r = startField frame name stack ∧ s = .literal (.string pieces) := by
  obtain ⟨start, stop, kind⟩ := t
  cases kind with
  | scalar v =>
    cases v with
    | text name =>
      obtain ⟨pieces, rfl⟩ := hs
      exact ⟨name, pieces, (Except.ok.inj h).symm, rfl⟩
    | _ => cases h
  | worthless quoted fault =>
    cases quoted with
    | true =>
      obtain ⟨pieces, rfl⟩ := hs
      simp only [fieldName] at h
      split at h
      · exact ⟨"", pieces, (Except.ok.inj h).symm, rfl⟩
      · cases h
    | false => cases h
  | broken quoted strict lenient => exact hs.elim
  | _ => cases h

end Reader

/-- The token where a value is due starts one. -/
theorem Finishes.of_startValue (h : Reader.startValue shape t stack = .ok r)
    (hs : t.kind.WrittenAs s) (hr : Finishes r symbols) :
    ∃ (d : Tree) (rest : List Symbol), s :: symbols = d.symbols false ++ rest ∧
      Closes stack rest := by
  -- Where the token completes the value, it is a literal.
  have hliteral {v : Value} (hl : ∃ l, s = .literal l) (heq : r = Reader.complete v stack) :
      ∃ (d : Tree) (rest : List Symbol), s :: symbols = d.symbols false ++ rest ∧
        Closes stack rest := by
    obtain ⟨l, rfl⟩ := hl
    subst heq
    exact ⟨.literal l, symbols, rfl, hr.closes⟩
  obtain ⟨start, stop, kind⟩ := t
  cases kind with
  | scalar v =>
    obtain ⟨value, heq⟩ := Reader.exists_of_accept shape v h
    exact hliteral (Kind.WrittenAs.of_scalar hs) heq
  | worthless quoted fault =>
    cases shape with
    | skipped => exact hliteral (Kind.WrittenAs.of_worthless hs) (Except.ok.inj h).symm
    | _ => cases h
  | openList =>
    obtain rfl : s = .openList := hs
    obtain ⟨frame, hlist, rfl⟩ := Reader.exists_of_openList h
    obtain ⟨ds, rest, rfl, hrest⟩ := hr.exists_items hlist
    refine ⟨.list ds false, rest, ?_, hrest⟩
    rw [Tree.symbols, Tree.extraSymbols_strict, List.append_nil, List.append_assoc]
    rfl
  | openTable =>
    obtain rfl : s = .openTable := hs
    obtain ⟨frame, htable, rfl⟩ := Reader.exists_of_openTable h
    obtain ⟨ds, rest, rfl, hrest⟩ := hr.exists_fields htable
    refine ⟨.table ds false, rest, ?_, hrest⟩
    rw [Tree.symbols, Tree.extraSymbols_strict, List.append_nil, List.append_assoc]
    rfl
  | broken quoted strict lenient => exact hs.elim
  | _ => cases h

/-- The token where an item of a list is due starts one. -/
theorem Finishes.of_startItem (hlist : frame.isList = true)
    (h : Reader.startItem frame t stack = .ok r) (hs : t.kind.WrittenAs s)
    (hr : Finishes r symbols) :
    ∃ d ds rest, s :: symbols = itemSymbols false (d :: ds) ++ .closeList :: rest ∧
      Closes stack rest := by
  obtain ⟨shape, frame', hlist', hvalue⟩ := Reader.exists_of_startItem hlist h
  obtain ⟨d, rest, heq, hrest⟩ := of_startValue hvalue hs hr
  obtain ⟨ds, rest, rfl, hclosed⟩ := hrest.exists_items hlist'
  exact ⟨d, ds, rest, by rw [heq, Tree.itemSymbols, List.append_assoc], hclosed⟩

/-- The token where a field of a table is due starts one. -/
theorem Finishes.of_fieldName {missing : Cause} (htable : frame.isList = false)
    (h : Reader.fieldName frame missing t stack = .ok r) (hs : t.kind.WrittenAs s)
    (hr : Finishes r symbols) :
    ∃ d ds rest, s :: symbols = fieldSymbols false (d :: ds) ++ .closeTable :: rest ∧
      Closes stack rest := by
  obtain ⟨name, pieces, rfl, rfl⟩ := Reader.exists_of_fieldName h hs
  rcases Reader.startField_eq htable name stack with ⟨shape, frame', htable', heq⟩ | heq
  · rw [heq] at hr
    cases hr with
    | colon d hrest =>
      obtain ⟨ds, rest, rfl, hclosed⟩ := hrest.exists_fields htable'
      refine ⟨(pieces, d), ds, rest, ?_, hclosed⟩
      simp only [Tree.fieldSymbols, List.cons_append, List.append_assoc]
  · rw [heq] at hr
    cases hr

/-! ## Steps and runs -/

/-- A step on the first symbol in a container leads from what finishes it to what is left of
that. -/
theorem Finishes.of_stepFirst (h : Reader.stepFirst frame t stack = .ok r)
    (hs : t.kind.WrittenAs s) (hr : Finishes r symbols) :
    Finishes ⟨.first frame, stack⟩ (s :: symbols) := by
  unfold Reader.stepFirst at h
  split at h
  · rename_i hlist
    split at h
    · rename_i hkind
      rw [hkind] at hs
      obtain rfl : s = .closeList := hs
      obtain rfl := Except.ok.inj h
      exact .firstItem [] hlist hr.closes
    · cases h
    · obtain ⟨d, ds, rest, heq, hrest⟩ := of_startItem hlist h hs hr
      rw [heq]
      exact .firstItem (d :: ds) hlist hrest
  · rename_i htable
    rw [Bool.not_eq_true] at htable
    split at h
    · rename_i hkind
      rw [hkind] at hs
      obtain rfl : s = .closeTable := hs
      obtain rfl := Except.ok.inj h
      exact .firstField [] htable hr.closes
    · obtain ⟨d, ds, rest, heq, hrest⟩ := of_fieldName htable h hs hr
      rw [heq]
      exact .firstField (d :: ds) htable hrest

/-- A comma is followed by an item of a list, or by a field of a table. -/
theorem Finishes.closes_comma (h : Finishes ⟨.again frame, stack⟩ symbols) :
    Closes (frame :: stack) (.comma :: symbols) := by
  cases h with
  | item d ds hlist hrest => exact .list (d :: ds) hlist hrest
  | field d ds htable hrest => exact .table (d :: ds) htable hrest

/-- A step after an item leads from what finishes its container to what is left of that. -/
theorem Finishes.of_stepNext (h : Reader.stepNext frame t stack = .ok r)
    (hs : t.kind.WrittenAs s) (hr : Finishes r symbols) :
    Finishes ⟨.next frame, stack⟩ (s :: symbols) := by
  unfold Reader.stepNext at h
  split at h
  · rename_i hlist
    split at h
    · rename_i hkind
      rw [hkind] at hs
      obtain rfl : s = .closeList := hs
      obtain rfl := Except.ok.inj h
      exact .next (.list [] hlist hr.closes)
    · rename_i hkind
      rw [hkind] at hs
      obtain rfl : s = .comma := hs
      obtain rfl := Except.ok.inj h
      exact .next hr.closes_comma
    · cases h
    · cases h
  · rename_i htable
    rw [Bool.not_eq_true] at htable
    split at h
    · rename_i hkind
      rw [hkind] at hs
      obtain rfl : s = .closeTable := hs
      obtain rfl := Except.ok.inj h
      exact .next (.table [] htable hr.closes)
    · rename_i hkind
      rw [hkind] at hs
      obtain rfl : s = .comma := hs
      obtain rfl := Except.ok.inj h
      exact .next hr.closes_comma
    · cases h
    · cases h

/-- A step after a comma leads from what finishes its container to what is left of that. -/
theorem Finishes.of_stepAgain (h : Reader.stepAgain frame t stack = .ok r)
    (hs : t.kind.WrittenAs s) (hr : Finishes r symbols) :
    Finishes ⟨.again frame, stack⟩ (s :: symbols) := by
  -- After a comma no bracket may close, so an item or a field has to come.
  have hitem (hlist : frame.isList = true) (h : Reader.startItem frame t stack = .ok r) :
      Finishes ⟨.again frame, stack⟩ (s :: symbols) := by
    obtain ⟨d, ds, rest, heq, hrest⟩ := of_startItem hlist h hs hr
    rw [heq]
    exact .item d ds hlist hrest
  have hfield {missing : Cause} (htable : ¬ frame.isList = true)
      (h : Reader.fieldName frame missing t stack = .ok r) :
      Finishes ⟨.again frame, stack⟩ (s :: symbols) := by
    rw [Bool.not_eq_true] at htable
    obtain ⟨d, ds, rest, heq, hrest⟩ := of_fieldName htable h hs hr
    rw [heq]
    exact .field d ds htable hrest
  unfold Reader.stepAgain at h
  split at h
  · split at h
    · exact hitem ‹_› h
    · exact hfield ‹_› h
  · split at h
    · split at h
      · cases h
      · split at h
        · cases h
        · exact hitem ‹_› h
    · split at h
      · cases h
      · exact hfield ‹_› h

/-- A step leads from what a reader has to take to what is left of it. -/
theorem Finishes.of_step (h : r.step t = .ok r') (hs : t.kind.WrittenAs s)
    (hr : Finishes r' symbols) : Finishes r (s :: symbols) := by
  obtain ⟨stage, stack⟩ := r
  cases stage with
  | value shape =>
    obtain ⟨d, rest, heq, hrest⟩ := of_startValue h hs hr
    rw [heq]
    exact .value d hrest
  | first frame => exact of_stepFirst h hs hr
  | next frame => exact of_stepNext h hs hr
  | again frame => exact of_stepAgain h hs hr
  | colon shape =>
    simp only [Reader.step] at h
    split at h
    · rename_i hkind
      rw [hkind] at hs
      obtain rfl : s = .colon := hs
      obtain rfl := Except.ok.inj h
      cases hr with
      | value d hrest => exact .colon d hrest
    · cases h
    · cases h
  | repeated name =>
    simp only [Reader.step] at h
    split at h <;> cases h
  | whole v => cases h

/-- Tokens that are read up to the end of a document are those that the reader has to take. -/
theorem Finishes.of_run {ts : List Token} {v : Value}
    (hts : List.Forall₂ (fun t s => t.kind.WrittenAs s) ts symbols)
    (h : Reader.run r (ts ++ [t]) = .ok v) : t.kind = .ending ∧ Finishes r symbols := by
  -- The induction is on the tokens; only after the last of them may the text have ended.
  induction hts generalizing r with
  | nil =>
    by_cases hend : ∃ v, r.stage = .whole v ∧ t.kind = .ending
    · obtain ⟨v, hstage, hkind⟩ := hend
      obtain ⟨stage, stack⟩ := r
      obtain rfl : stage = .whole v := hstage
      exact ⟨hkind, .whole⟩
    · rw [List.nil_append, Reader.run_cons fun v hstage hkind => hend ⟨v, hstage, hkind⟩] at h
      cases hstep : r.step t <;> rw [hstep] at h <;> cases h
  | @cons t' s ts symbols hs _ ih =>
    have hgoes (v : Value) (_ : r.stage = .whole v) : t'.kind ≠ .ending := by
      intro hkind
      rw [hkind] at hs
      exact hs.elim
    rw [List.cons_append, Reader.run_cons hgoes] at h
    cases hstep : r.step t' with
    | error fault =>
      rw [hstep] at h
      cases h
    | ok r' =>
      rw [hstep] at h
      obtain ⟨hkind, hfinishes⟩ := ih h
      exact ⟨hkind, hfinishes.of_step hstep hs⟩

end

/-- Only strict texts of documents are read, whatever is wanted of them. -/
theorem exists_strict_of_read {shape : Shape} {text : String} {v : Value}
    (h : read shape text = .ok v) : ∃ d : Tree, d.Strict text := by
  obtain ⟨ts, t, symbols, hscan, hts, hspaced⟩ :=
    Token.exists_spaced_scanFrom .start text.toList
  rw [read, Token.scan, hscan] at h
  obtain ⟨hkind, hfinishes⟩ := Finishes.of_run hts h
  cases hfinishes with
  | value d hrest =>
    cases hrest
    rw [List.append_nil] at hspaced
    exact ⟨d, hspaced hkind⟩

end Stencil.Json
