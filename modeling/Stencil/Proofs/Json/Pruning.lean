import Stencil.Json.Prune
import Stencil.Proofs.Json.Conforming

/-!
# What pruning leaves

Pruning drops items and fields and keeps all others where they are. So a pruned document has the
shape that the document had, and a field of it is what pruning leaves of the field of that name.
-/

namespace Stencil.Json

namespace Value

/-- Pruning items keeps those of which something is left. -/
theorem pruneItems_eq_filterMap (items : List Value) :
    pruneItems items = items.filterMap prune := by
  induction items with
  | nil => rfl
  | cons v rest ih =>
    rw [pruneItems, ih, List.filterMap_cons]
    cases v.prune <;> rfl

/-- Pruning fields keeps those of whose values something is left. -/
theorem pruneFields_eq_filterMap (fields : Fields) :
    pruneFields fields = fields.filterMap fun e => e.2.prune.map (e.1, ·) := by
  induction fields with
  | nil => rfl
  | cons e rest ih =>
    obtain ⟨name, v⟩ := e
    rw [pruneFields, ih, List.filterMap_cons]
    cases v.prune <;> rfl

/-- What is left of a list is a list of what is left of its items. -/
theorem eq_list_of_prune {items : List Value} {w : Value} (h : (list items).prune = some w) :
    w = .list (pruneItems items) := by
  rw [prune] at h
  split at h
  · cases h
  · exact (Option.some.inj h).symm

/-- A list of which nothing is left has no items of which anything is. -/
theorem pruneItems_eq_nil {items : List Value} (h : (list items).prune = none) :
    pruneItems items = [] := by
  rw [prune] at h
  split at h
  · assumption
  · cases h

/-- What is left of a table is a table of what is left of its fields. -/
theorem eq_table_of_prune {fields : Fields} {w : Value} (h : (table fields).prune = some w) :
    w = .table (pruneFields fields) := by
  rw [prune] at h
  split at h
  · cases h
  · exact (Option.some.inj h).symm

/-- A table of which nothing is left has no fields of which anything is. -/
theorem pruneFields_eq_nil {fields : Fields} (h : (table fields).prune = none) :
    pruneFields fields = [] := by
  rw [prune] at h
  split at h
  · assumption
  · cases h

/-- An empty table stands for one that is pruned away. -/
theorem getD_prune_table (fields : Fields) :
    (table fields).prune.getD (.table []) = .table (pruneFields fields) := by
  cases h : (table fields).prune with
  | some w => exact eq_table_of_prune h
  | none =>
    rw [pruneFields_eq_nil h]
    rfl

/-- What is left of a field has the name of the field. -/
theorem exists_of_mem_pruneFields {fields : Fields} {e : String × Value}
    (h : e ∈ pruneFields fields) : ∃ v, (e.1, v) ∈ fields ∧ v.prune = some e.2 := by
  rw [pruneFields_eq_filterMap] at h
  obtain ⟨⟨name, v⟩, hmem, he⟩ := List.mem_filterMap.1 h
  obtain ⟨w, hw, rfl⟩ := Option.map_eq_some_iff.1 he
  exact ⟨v, hmem, hw⟩

/-- Pruning fields keeps the order of their names. -/
theorem names_pruneFields_sublist (fields : Fields) :
    (Table.names (pruneFields fields)).Sublist (Table.names fields) := by
  induction fields with
  | nil => exact List.Sublist.refl _
  | cons e rest ih =>
    obtain ⟨name, v⟩ := e
    rw [pruneFields]
    split
    · exact ih.cons _
    · exact ih.cons_cons _

/-- A field of a pruned table is what is left of the field. -/
theorem get?_pruneFields {fields : Fields} (h : (fields.map (·.1)).Nodup) (name : String) :
    Table.get? name (pruneFields fields) = (Table.get? name fields).bind prune := by
  induction fields with
  | nil => rfl
  | cons e rest ih =>
    obtain ⟨n, v⟩ := e
    rw [List.map_cons, List.nodup_cons] at h
    have ih := ih h.2
    rw [pruneFields, Table.get?]
    by_cases hname : (n == name) = true
    · have hnone : Table.get? name rest = none :=
        Table.get?_eq_none (eq_of_beq hname ▸ h.1)
      rw [if_pos hname, Option.bind_some]
      cases v.prune with
      | none =>
        rw [hnone] at ih
        exact ih
      | some w => exact if_pos hname
    · rw [if_neg hname, ← ih]
      cases v.prune with
      | none => rfl
      | some w => exact if_neg hname

/-! ## Texts -/

/-- An empty text is nothing. -/
theorem prune_text (s : String) : (text s).prune = if s = "" then none else some (.text s) := by
  rw [prune]
  by_cases h : s = ""
  · rw [if_pos h, if_pos (by rw [h]; rfl)]
  · rw [if_neg h, if_neg (by simpa [String.isEmpty_iff] using h)]

/-- What is left of a list of texts are those that are not empty. -/
theorem pruneItems_texts (l : List String) :
    pruneItems (l.map .text) = (l.filter (· ≠ "")).map .text := by
  induction l with
  | nil => rfl
  | cons s rest ih =>
    rw [List.map_cons, pruneItems, prune_text, ih, List.filter_cons]
    by_cases h : s = "" <;> simp [h]

/-- Pruning fields that are texts takes out the empty ones. -/
theorem pruneFields_texts (t : Table String) :
    pruneFields (t.map fun e => (e.1, .text e.2)) =
      (t.filter (·.2 ≠ "")).map fun e => (e.1, .text e.2) := by
  induction t with
  | nil => rfl
  | cons e rest ih =>
    obtain ⟨name, s⟩ := e
    rw [List.map_cons, pruneFields, prune_text, ih, List.filter_cons]
    by_cases h : s = "" <;> simp [h]

end Value

/-- What pruning leaves of a document has the shape of the document. -/
theorem Conforms.prune {n : Nat} {shape : Shape} {v w : Value} (h : Conforms n shape v)
    (hw : v.prune = some w) : Conforms n shape w := by
  -- Items and fields only get fewer, so their order stays, and each keeps its shape by induction.
  induction h generalizing w with
  | text s =>
    rw [Value.prune_text] at hw
    split at hw <;> cases hw
    exact .text s
  | flag b =>
    cases b <;> cases hw
    exact .flag true
  | list _ ih =>
    obtain rfl := Value.eq_list_of_prune hw
    refine .list fun v hv => ?_
    rw [Value.pruneItems_eq_filterMap] at hv
    obtain ⟨v', hmem, hv⟩ := List.mem_filterMap.1 hv
    exact ih v' hmem hv
  | table hordered _ ih =>
    obtain rfl := Value.eq_table_of_prune hw
    refine .table (hordered.sublist (Value.names_pruneFields_sublist _)) fun e he => ?_
    obtain ⟨v, hmem, hv⟩ := Value.exists_of_mem_pruneFields he
    exact ih (e.1, v) hmem hv
  | record hordered hknown _ ih =>
    obtain rfl := Value.eq_table_of_prune hw
    refine .record (hordered.sublist (Value.names_pruneFields_sublist _)) (fun e he => ?_)
      fun e he shape hshape => ?_
    · obtain ⟨v, hmem, -⟩ := Value.exists_of_mem_pruneFields he
      exact hknown (e.1, v) hmem
    · obtain ⟨v, hmem, hv⟩ := Value.exists_of_mem_pruneFields he
      exact ih (e.1, v) hmem shape hshape hv

/-- A record has its shape with what pruning leaves of its fields, be it none. -/
theorem Conforms.getD_prune {n : Nat} {title : String} {known : List (String × Shape)} {v : Value}
    (h : Conforms n (.record title known) v) :
    Conforms n (.record title known) (v.prune.getD (.table [])) := by
  cases hv : v.prune with
  | some w => exact h.prune hv
  | none =>
    cases h
    exact .record .nil nofun nofun

end Stencil.Json
