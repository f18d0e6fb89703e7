import Stencil.Proofs.Json.Printing
import Stencil.Proofs.Json.Reading
import Stencil.Proofs.Table

/-!
# Printed documents are read back

A document of the shape that is wanted is read from its printed text as it was, character by
character of its texts and field by field of its tables: printing loses nothing, and neither the
removal of comments nor the reading changes anything. Its containers must not nest too deep, and its
tables must be in order, as all tables are that are filled by `insert`.
-/

namespace Stencil.Json

/-- A document of a shape without numbers whose containers nest at most `depth` levels deep. Its
tables are in order, and its records have known fields only. -/
inductive Conforms : (depth : Nat) → Shape → Value → Prop
  | text {n} (s) : Conforms n .text (.text s)
  | flag {n} (b) : Conforms n .flag (.bool b)
  | list {n item items} : (∀ v ∈ items, Conforms n item v) →
      Conforms (n + 1) (.list item) (.list items)
  | table {n shape fields} : Table.Ordered fields → (∀ e ∈ fields, Conforms n shape e.2) →
      Conforms (n + 1) (.table shape) (.table fields)
  | record {n title known fields} : Table.Ordered fields →
      (∀ e ∈ fields, (Table.get? e.1 known).isSome) →
      (∀ e ∈ fields, ∀ shape, Table.get? e.1 known = some shape → Conforms n shape e.2) →
      Conforms (n + 1) (.record title known) (.table fields)

/-! ## Readings that end -/

/-- From a reader, the tokens of some symbols lead to another one. -/
def Arrives (r : Reader) (symbols : List Symbol) (r' : Reader) : Prop := r.steps symbols = .ok r'

section

variable {r r' r'' : Reader} {s : Symbol} {symbols more : List Symbol}

theorem Arrives.nil : Arrives r [] r := rfl

/-- One step and then the rest of the symbols lead on. -/
theorem Arrives.cons (hs : r.step s.token = .ok r') (h : Arrives r' symbols r'') :
    Arrives r (s :: symbols) r'' := by
  rw [Arrives, Reader.steps_cons, hs]
  exact h

/-- Symbols that follow each other lead on from where the first ones arrived. -/
theorem Arrives.append (h : Arrives r symbols r') (hmore : Arrives r' more r'') :
    Arrives r (symbols ++ more) r'' := by
  rw [Arrives] at h
  rw [Arrives, Reader.steps_append, h]
  exact hmore

/-- Where the first token leads to the same reader, all the tokens do. -/
theorem Arrives.of_step_eq (hs : r.step s.token = r'.step s.token)
    (h : Arrives r' (s :: symbols) r'') : Arrives r (s :: symbols) r'' := by
  rw [Arrives, Reader.steps_cons] at h ⊢
  rwa [hs]

end

/-- A document that is read as a value where a shape is wanted, inside of so many containers that
`depth` more are allowed. -/
def Tree.IsReadAs (depth : Nat) (shape : Shape) (d : Tree) (v : Value) : Prop :=
  ∀ stack, stack.length + depth ≤ Reader.depthLimit →
    Arrives ⟨.value shape, stack⟩ (d.symbols false) (Reader.complete v stack)

namespace Tree.IsReadAs

variable {n : Nat} {item shape : Shape} {d : Tree} {v : Value} {stack : List Frame}

/-- A string that spells a text is read as that text. -/
theorem text {pieces : List Piece} {s : String} (h : Spell pieces s) :
    (Tree.literal (.string pieces)).IsReadAs n .text (.text s) := by
  intro stack _
  refine .cons ?_ .nil
  rw [Symbol.token, Symbol.kind, h.kind_eq]
  rfl

/-- A truth value is read as itself. -/
theorem flag (b : Bool) : (Tree.literal (.bool b)).IsReadAs n .flag (.bool b) := by
  intro stack _
  refine .cons ?_ .nil
  rw [Symbol.token, Symbol.kind, (Literal.isRead_bool b).kind_eq]
  rfl

/-! ### Lists -/

/-- An item that is due is taken into its list. -/
theorem arrives_item {stage : Stage} {items : List Value} (h : ItemDue item stage items)
    (hd : d.IsReadAs n item v) (hdepth : stack.length + (n + 1) ≤ Reader.depthLimit) :
    Arrives ⟨stage, stack⟩ (d.symbols false) ⟨.next (.list item (v :: items)), stack⟩ := by
  have hvalue := hd (.list item items :: stack) (by rw [List.length_cons]; omega)
  obtain ⟨s, rest, hs, hcloses⟩ := d.exists_symbols_eq_cons false
  rw [hs] at hvalue ⊢
  exact hvalue.of_step_eq
    (step_item h (Symbol.kind_ne_closeList hcloses) s.kind_ne_ending stack)

/-- The further items of a list are taken one after the other. -/
theorem arrives_moreItems {ds : List Tree} {vs : List Value}
    (h : List.Forall₂ (IsReadAs n item) ds vs)
    (hdepth : stack.length + (n + 1) ≤ Reader.depthLimit) (items : List Value) :
    Arrives ⟨.next (.list item items), stack⟩ (moreItems false ds)
      ⟨.next (.list item (vs.reverse ++ items)), stack⟩ := by
  induction h generalizing items with
  | nil => exact .nil
  | @cons d v ds vs hd _ ih =>
    rw [List.reverse_cons, List.append_assoc, List.singleton_append]
    exact (Arrives.cons rfl (arrives_item (.inr rfl) hd hdepth)).append (ih (v :: items))

/-- An opening bracket is taken where the containers are not too deep. -/
theorem arrives_enter {frame : Frame} {s : Symbol}
    (h : Reader.step ⟨.value shape, stack⟩ s.token = Reader.enter frame s.token stack)
    (hdepth : stack.length + (n + 1) ≤ Reader.depthLimit) :
    Arrives ⟨.value shape, stack⟩ [s] ⟨.first frame, stack⟩ := by
  have hshallow : ¬ Reader.depthLimit ≤ stack.length := by omega
  refine .cons ?_ .nil
  rw [h, Reader.enter, if_neg (by simp [hshallow])]

/-- A list is read as the list of what its items are read as. -/
theorem list {ds : List Tree} {vs : List Value} (h : List.Forall₂ (IsReadAs n item) ds vs) :
    (Tree.list ds false).IsReadAs (n + 1) (.list item) (.list vs) := by
  intro stack hdepth
  rw [symbols, extraSymbols_strict, List.append_nil]
  have hopen : Arrives ⟨.value (.list item), stack⟩ [.openList] ⟨.first (.list item []), stack⟩ :=
    arrives_enter rfl hdepth
  cases h with
  | nil => exact hopen.append (.cons rfl .nil)
  | @cons d v ds vs hd hrest =>
    have hitems := (arrives_item (.inl rfl) hd hdepth).append (arrives_moreItems hrest hdepth [v])
    have hclose : Arrives ⟨.next (.list item (vs.reverse ++ [v])), stack⟩ [.closeList]
        (Reader.complete (.list (v :: vs)) stack) := by
      refine .cons ?_ .nil
      change Except.ok (Reader.complete (.list (vs.reverse ++ [v]).reverse) stack) = _
      rw [List.reverse_append, List.reverse_reverse]
      rfl
    exact (hopen.append hitems).append hclose

end Tree.IsReadAs

/-! ### Tables and records -/

/-- A container of some fields in which a field has the shape that belongs to its name, if any. -/
inductive Frame.Takes : Frame → (String → Option Shape) → Fields → Prop
  | table {shape fields name} : Takes (.table shape fields name) (fun _ => some shape) fields
  | record {known fields name} : Takes (.record known fields name) (Table.get? · known) fields

/-- A field that is read as a name and a value where fields of some shapes are wanted. -/
def IsReadAsField (depth : Nat) (shapeOf : String → Option Shape) (d : List Piece × Tree)
    (e : String × Value) : Prop :=
  Spell d.1 e.1 ∧ ∃ shape, shapeOf e.1 = some shape ∧ d.2.IsReadAs depth shape e.2

section

variable {n : Nat} {shapeOf : String → Option Shape} {fields : Fields} {frame : Frame}
  {stack : List Frame}

/-- A field goes into the container, if it is new there. -/
theorem Frame.Takes.arrives_field (h : frame.Takes shapeOf fields) {stage : Stage}
    (hstage : stage = .first frame ∨ stage = .again frame) {pieces : List Piece} {name : String}
    {d : Tree} {v : Value} (hd : IsReadAsField n shapeOf (pieces, d) (name, v))
    (hnew : Table.get? name fields = none)
    (hdepth : stack.length + (n + 1) ≤ Reader.depthLimit) :
    ∃ frame', frame'.Takes shapeOf (Table.insert name v fields) ∧
      Arrives ⟨stage, stack⟩ (.literal (.string pieces) :: .colon :: d.symbols false)
        ⟨.next frame', stack⟩ := by
  obtain ⟨hname, shape, hshape, hvalue⟩ := hd
  obtain ⟨frame', hname', htakes⟩ : ∃ frame' : Frame,
      Reader.step ⟨stage, stack⟩ (Symbol.literal (.string pieces)).token =
        .ok ⟨.colon shape, frame' :: stack⟩ ∧
      (frame'.add v).Takes shapeOf (Table.insert name v fields) := by
    rw [Symbol.token, Symbol.kind, hname.kind_eq]
    cases h with
    | table =>
      obtain rfl := Option.some.inj hshape
      refine ⟨.table _ fields name, ?_, .table⟩
      rcases hstage with rfl | rfl <;> rfl
    | @record known _ _ =>
      -- A field that is known and new is started alike whatever name was read before.
      have hstart (old : Option String) : Reader.startField (.record known fields old) name stack =
          ⟨.colon shape, .record known fields (some name) :: stack⟩ := by
        simp only [Reader.startField, hshape, hnew]
        rfl
      refine ⟨.record known fields (some name), ?_, .record⟩
      rw [← hstart]
      rcases hstage with rfl | rfl <;> rfl
  refine ⟨frame'.add v, htakes, .cons hname' (.cons rfl (hvalue (frame' :: stack) ?_))⟩
  rw [List.length_cons]
  omega

/-- A field whose name comes after all the others goes to their end. -/
theorem Frame.Takes.arrives_lastField (h : frame.Takes shapeOf fields) {stage : Stage}
    (hstage : stage = .first frame ∨ stage = .again frame) {d : List Piece × Tree}
    {e : String × Value} (hd : IsReadAsField n shapeOf d e)
    (hlast : ∀ name ∈ Table.names fields, name < e.1)
    (hdepth : stack.length + (n + 1) ≤ Reader.depthLimit) :
    ∃ frame', frame'.Takes shapeOf (fields ++ [e]) ∧
      Arrives ⟨stage, stack⟩ (.literal (.string d.1) :: .colon :: d.2.symbols false)
        ⟨.next frame', stack⟩ := by
  have hnew : Table.get? e.1 fields = none :=
    Table.get?_eq_none fun hmem => String.lt_irrefl _ (hlast _ hmem)
  have hfield := h.arrives_field hstage hd hnew hdepth
  rwa [Table.insert_of_forall_lt hlast] at hfield

/-- A container that takes fields goes on after a comma. -/
theorem Frame.Takes.step_comma (h : frame.Takes shapeOf fields) (stack : List Frame) :
    Reader.step ⟨.next frame, stack⟩ Symbol.comma.token = .ok ⟨.again frame, stack⟩ := by
  cases h <;> rfl

/-- The further fields of a table are taken one after the other, if their names are in order. -/
theorem Frame.Takes.arrives_moreFields {ds : List (List Piece × Tree)} {es : List (String × Value)}
    (hds : List.Forall₂ (IsReadAsField n shapeOf) ds es)
    (hdepth : stack.length + (n + 1) ≤ Reader.depthLimit) (h : frame.Takes shapeOf fields)
    (hordered : Table.Ordered (fields ++ es)) :
    ∃ frame', frame'.Takes shapeOf (fields ++ es) ∧
      Arrives ⟨.next frame, stack⟩ (Tree.moreFields false ds) ⟨.next frame', stack⟩ := by
  induction hds generalizing frame fields with
  | nil =>
    rw [List.append_nil]
    exact ⟨frame, h, .nil⟩
  | @cons d e ds es hd _ ih =>
    have hlast : ∀ name ∈ Table.names fields, name < e.1 := by
      rw [Table.Ordered, Table.names, List.map_append, List.pairwise_append] at hordered
      exact fun name hname => hordered.2.2 name hname e.1 List.mem_cons_self
    obtain ⟨frame', hframe', hfield⟩ := h.arrives_lastField (.inr rfl) hd hlast hdepth
    rw [List.append_cons] at hordered ⊢
    obtain ⟨frame'', hframe'', hmore⟩ := ih hframe' hordered
    obtain ⟨pieces, d⟩ := d
    exact ⟨frame'', hframe'', (Arrives.cons (Frame.Takes.step_comma h stack) hfield).append hmore⟩

/-- The closing bracket completes the fields of a container. -/
theorem Frame.Takes.arrives_close (h : frame.Takes shapeOf fields) {stage : Stage}
    (hstage : stage = .first frame ∨ stage = .next frame) :
    Arrives ⟨stage, stack⟩ [.closeTable] (Reader.complete (.table fields) stack) := by
  refine .cons ?_ .nil
  rcases hstage with rfl | rfl <;> cases h <;> rfl

/-- The fields of a table are taken up to its closing brace, if their names are in order. -/
theorem Frame.Takes.arrives_fields {ds : List (List Piece × Tree)} {es : List (String × Value)}
    (hds : List.Forall₂ (IsReadAsField n shapeOf) ds es)
    (hdepth : stack.length + (n + 1) ≤ Reader.depthLimit) (h : frame.Takes shapeOf [])
    (hordered : Table.Ordered es) :
    Arrives ⟨.first frame, stack⟩ (Tree.fieldSymbols false ds ++ [.closeTable])
      (Reader.complete (.table es) stack) := by
  cases hds with
  | nil => exact h.arrives_close (.inl rfl)
  | @cons d e ds es hd hrest =>
    obtain ⟨frame', hframe', hfield⟩ := h.arrives_lastField (.inl rfl) hd nofun hdepth
    obtain ⟨frame'', hframe'', hmore⟩ := hframe'.arrives_moreFields hrest hdepth hordered
    exact (hfield.append hmore).append (hframe''.arrives_close (.inr rfl))

end

namespace Tree.IsReadAs

variable {n : Nat} {ds : List (List Piece × Tree)} {es : List (String × Value)}

/-- A table whose fields have one shape is read as the table of what they are read as. -/
theorem table {shape : Shape} (h : List.Forall₂ (IsReadAsField n fun _ => some shape) ds es)
    (hordered : Table.Ordered es) :
    (Tree.table ds false).IsReadAs (n + 1) (.table shape) (.table es) := by
  intro stack hdepth
  rw [symbols, extraSymbols_strict, List.append_nil]
  exact (arrives_enter rfl hdepth).append (Frame.Takes.table.arrives_fields h hdepth hordered)

/-- A table whose names are known is read as the record of what its fields are read as. -/
theorem record {title : String} {known : List (String × Shape)}
    (h : List.Forall₂ (IsReadAsField n (Table.get? · known)) ds es)
    (hordered : Table.Ordered es) :
    (Tree.table ds false).IsReadAs (n + 1) (.record title known) (.table es) := by
  intro stack hdepth
  rw [symbols, extraSymbols_strict, List.append_nil]
  exact (arrives_enter rfl hdepth).append (Frame.Takes.record.arrives_fields h hdepth hordered)

end Tree.IsReadAs

/-! ## Documents that are printed and read -/

/-- What there is for each thing in a list makes a list. -/
theorem exists_forall₂ {α β : Type} {R : α → β → Prop} {bs : List β}
    (h : ∀ b ∈ bs, ∃ a, R a b) : ∃ as, List.Forall₂ R as bs := by
  induction bs with
  | nil => exact ⟨[], .nil⟩
  | cons b bs ih =>
    obtain ⟨hb, hbs⟩ := List.forall_mem_cons.1 h
    obtain ⟨a, ha⟩ := hb
    obtain ⟨as, has⟩ := ih hbs
    exact ⟨a :: as, .cons ha has⟩

/-- A document that conforms to a shape is printed with symbols that are read as the document. -/
theorem Conforms.exists_tree {n : Nat} {shape : Shape} {v : Value} (h : Conforms n shape v) :
    ∃ d : Tree, d.Lays v ∧ d.IsReadAs n shape v := by
  -- A field is printed with its name and read under it, in tables and in records alike.
  have hfield {n : Nat} {shapeOf : String → Option Shape} {shape : Shape} {e : String × Value}
      (hshape : shapeOf e.1 = some shape) (h : ∃ d : Tree, d.Lays e.2 ∧ d.IsReadAs n shape e.2) :
      ∃ d, Tree.LaysField d e ∧ IsReadAsField n shapeOf d e := by
    obtain ⟨pieces, hchars, hspell⟩ := exists_spell e.1
    obtain ⟨d, hlays, hread⟩ := h
    exact ⟨(pieces, d), ⟨hchars, hlays⟩, hspell, shape, hshape, hread⟩
  induction h with
  | text s =>
    obtain ⟨pieces, hchars, hspell⟩ := exists_spell s
    exact ⟨_, .text hchars, .text hspell⟩
  | flag b => exact ⟨_, .bool b, .flag b⟩
  | list _ ih =>
    obtain ⟨ds, hds⟩ := exists_forall₂ ih
    exact ⟨_, .list (hds.imp fun _ _ h => h.1), .list (hds.imp fun _ _ h => h.2)⟩
  | @table n shape fields hordered _ ih =>
    have hfields (e : String × Value) (he : e ∈ fields) :
        ∃ d, Tree.LaysField d e ∧ IsReadAsField n (fun _ => some shape) d e :=
      hfield rfl (ih e he)
    obtain ⟨ds, hds⟩ := exists_forall₂ hfields
    exact ⟨_, .table (hds.imp fun _ _ h => h.1), .table (hds.imp fun _ _ h => h.2) hordered⟩
  | @record n title known fields hordered hknown _ ih =>
    have hfields (e : String × Value) (he : e ∈ fields) :
        ∃ d, Tree.LaysField d e ∧ IsReadAsField n (Table.get? · known) d e := by
      obtain ⟨shape, hshape⟩ := Option.isSome_iff_exists.1 (hknown e he)
      exact hfield hshape (ih e he shape hshape)
    obtain ⟨ds, hds⟩ := exists_forall₂ hfields
    exact ⟨_, .table (hds.imp fun _ _ h => h.1), .record (hds.imp fun _ _ h => h.2) hordered⟩

/-- A document that conforms to a shape is read from its printed text, comments removed or not. -/
theorem Conforms.read_pretty {n : Nat} {shape : Shape} {v : Value} (h : Conforms n shape v)
    (hdepth : n ≤ Reader.depthLimit) :
    stripComments v.pretty = v.pretty ∧ read shape v.pretty = .ok v := by
  obtain ⟨d, hlays, hread⟩ := h.exists_tree
  have hstrict := hlays.strict_pretty
  have hsteps : Reader.steps ⟨.value shape, []⟩ (d.symbols false) = .ok ⟨.whole v, []⟩ :=
    hread [] (by simpa using hdepth)
  have halike := hstrict.alike_read shape
  rw [Tree.tokens, Reader.run_steps, hsteps] at halike
  refine ⟨hstrict.stripComments_eq, ?_⟩
  exact Alike.ok halike.symm

end Stencil.Json
