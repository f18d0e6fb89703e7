import Stencil.Proofs.Json.Pruning

/-!
# What a document sets

Only `true`, numbers and texts that are not empty set anything by themselves; everything else in a
document is void, or a container that sets what its parts set. Pruning leaves nothing void at any
depth and drops nothing that is set: its values stay in their order, and those under names alone
stay under the same names.
-/

namespace Stencil.Json.Value

/-! ## Parts of documents -/

/-- A value that sets something by itself. -/
def isSet : Value → Bool
  | .bool b => b
  | .number _ => true
  | .text s => !s.isEmpty
  | _ => false

/-- A value without any content. -/
def isVoid : Value → Bool
  | .null => true
  | .bool b => !b
  | .number _ => false
  | .text s => s.isEmpty
  | .list items => items.isEmpty
  | .table fields => fields.isEmpty

/-- A value stands in a document, at any depth. -/
inductive Inside (u : Value) : Value → Prop
  | self : Inside u u
  | item {v items} : v ∈ items → Inside u v → Inside u (.list items)
  | field {name v fields} : (name, v) ∈ fields → Inside u v → Inside u (.table fields)

mutual

/-- The values in a document that are set, from its start to its end. -/
def settled : Value → List Value
  | .list items => settledItems items
  | .table fields => settledFields fields
  | v => if v.isSet then [v] else []

/-- The values in the items of a list that are set. -/
def settledItems : List Value → List Value
  | [] => []
  | v :: rest => v.settled ++ settledItems rest

/-- The values in the fields of a table that are set. -/
def settledFields : List (String × Value) → List Value
  | [] => []
  | (_, v) :: rest => v.settled ++ settledFields rest

end

/-- The value in a document under some names, each in the table under the names before it. -/
def at? : List String → Value → Option Value
  | [], v => some v
  | name :: rest, .table fields => (Table.get? name fields).bind (at? rest)
  | _ :: _, _ => none

/-- What holds of a value if it holds of all its items and fields holds of all values. -/
@[elab_as_elim]
theorem induction {P : Value → Prop} (null : P .null) (bool : ∀ b, P (.bool b))
    (number : ∀ n, P (.number n)) (text : ∀ s, P (.text s))
    (list : ∀ items, (∀ v ∈ items, P v) → P (.list items))
    (table : ∀ fields : Fields, (∀ e ∈ fields, P e.2) → P (.table fields)) (v : Value) : P v :=
  match v with
  | .null => null
  | .bool b => bool b
  | .number n => number n
  | .text s => text s
  | .list items => list items fun v _ => induction null bool number text list table v
  | .table fields => table fields fun (_, v) _ => induction null bool number text list table v
decreasing_by
  · decreasing_tactic
  · have := List.sizeOf_lt_of_mem ‹_ ∈ fields›
    simp only [Prod.mk.sizeOf_spec, Value.table.sizeOf_spec] at this ⊢
    omega

/-- What is set in items is what is set in each of them. -/
theorem settledItems_eq_flatMap (items : List Value) :
    settledItems items = items.flatMap settled := by
  induction items with
  | nil => rfl
  | cons v rest ih => rw [settledItems, ih, List.flatMap_cons]

/-- What is set in fields is what is set in the value of each. -/
theorem settledFields_eq_flatMap (fields : Fields) :
    settledFields fields = fields.flatMap fun e => e.2.settled := by
  induction fields with
  | nil => rfl
  | cons e rest ih => rw [settledFields, ih, List.flatMap_cons]

/-- What sets something in a document is among the values that are set. -/
theorem Inside.of_isSet {u v : Value} (h : Inside u v) (hu : u.isSet = true) : u ∈ v.settled := by
  induction h with
  | self =>
    cases u with
    | list _ => cases hu
    | table _ => cases hu
    | _ => simp [settled, hu]
  | item hv _ ih =>
    rw [settled, settledItems_eq_flatMap]
    exact List.mem_flatMap.2 ⟨_, hv, ih⟩
  | field hv _ ih =>
    rw [settled, settledFields_eq_flatMap]
    exact List.mem_flatMap.2 ⟨_, hv, ih⟩

/-- The values that are set stand in the document, and set something. -/
theorem inside_of_mem_settled {u v : Value} (h : u ∈ v.settled) :
    Inside u v ∧ u.isSet = true := by
  have leaf {v : Value} (h : u ∈ if v.isSet then [v] else []) : Inside u v ∧ u.isSet = true := by
    split at h
    · rename_i hv
      obtain rfl := List.mem_singleton.1 h
      exact ⟨.self, hv⟩
    · cases h
  induction v using induction with
  | null => exact leaf h
  | bool b => exact leaf h
  | number n => exact leaf h
  | text s => exact leaf h
  | list items ih =>
    rw [settled, settledItems_eq_flatMap] at h
    obtain ⟨v, hv, hu⟩ := List.mem_flatMap.1 h
    obtain ⟨hin, hset⟩ := ih v hv hu
    exact ⟨.item hv hin, hset⟩
  | table fields ih =>
    rw [settled, settledFields_eq_flatMap] at h
    obtain ⟨e, he, hu⟩ := List.mem_flatMap.1 h
    obtain ⟨hin, hset⟩ := ih e he hu
    exact ⟨.field he hin, hset⟩

/-- Nothing is settled in a document exactly if no value inside it is set. -/
theorem settled_eq_nil_iff {v : Value} : v.settled = [] ↔ ∀ u, Inside u v → ¬ u.isSet = true := by
  rw [List.eq_nil_iff_forall_not_mem]
  exact ⟨fun h u hin hset => h u (hin.of_isSet hset), fun h u hu =>
    h u (inside_of_mem_settled hu).1 (inside_of_mem_settled hu).2⟩

/-! ## What is left -/

/-- Something is left of a value that is set, and of a container with something left inside. -/
theorem prune_cases {v w : Value} (h : v.prune = some w) :
    (v.isSet = true ∧ w = v) ∨
      (∃ items, v = .list items ∧ pruneItems items ≠ [] ∧ w = .list (pruneItems items)) ∨
      ∃ fields, v = .table fields ∧ pruneFields fields ≠ [] ∧ w = .table (pruneFields fields) := by
  unfold prune at h
  split at h
  · cases h
  · rename_i b
    cases b <;> cases h
    exact .inl ⟨rfl, rfl⟩
  · cases h
    exact .inl ⟨rfl, rfl⟩
  · split at h <;> cases h
    rename_i hs
    exact .inl ⟨by rwa [isSet, Bool.not_eq_true', ← Bool.not_eq_true], rfl⟩
  · split at h <;> cases h
    rename_i hne
    exact .inr (.inl ⟨_, rfl, hne, rfl⟩)
  · split at h <;> cases h
    rename_i hne
    exact .inr (.inr ⟨_, rfl, hne, rfl⟩)

/-- What sets something is not void. -/
theorem not_isVoid_of_isSet {v : Value} (h : v.isSet = true) : ¬ v.isVoid = true := by
  cases v with
  | bool b => rwa [isVoid, Bool.not_eq_true', Bool.not_eq_false]
  | number n => exact Bool.false_ne_true
  | text s => rwa [isSet, Bool.not_eq_true', ← Bool.not_eq_true] at h
  | _ => cases h

/-- What pruning leaves is not void. -/
theorem not_isVoid_of_prune {v w : Value} (h : v.prune = some w) : ¬ w.isVoid = true := by
  obtain ⟨hset, rfl⟩ | ⟨items, -, hne, rfl⟩ | ⟨fields, -, hne, rfl⟩ := prune_cases h
  · exact not_isVoid_of_isSet hset
  · rwa [isVoid, List.isEmpty_iff]
  · rwa [isVoid, List.isEmpty_iff]

/-- What is left as a list was one, of which items are left. -/
theorem exists_list_of_prune {v : Value} {kept : List Value} (h : v.prune = some (.list kept)) :
    ∃ items, v = .list items ∧ kept = pruneItems items := by
  obtain ⟨hset, rfl⟩ | ⟨items, rfl, -, heq⟩ | ⟨fields, rfl, -, heq⟩ := prune_cases h
  · cases hset
  · exact ⟨items, rfl, Value.list.inj heq⟩
  · cases heq

/-- What is left as a table was one, of which fields are left. -/
theorem exists_table_of_prune {v : Value} {kept : Fields} (h : v.prune = some (.table kept)) :
    ∃ fields, v = .table fields ∧ kept = pruneFields fields := by
  obtain ⟨hset, rfl⟩ | ⟨items, rfl, -, heq⟩ | ⟨fields, rfl, -, heq⟩ := prune_cases h
  · cases hset
  · cases heq
  · exact ⟨fields, rfl, Value.table.inj heq⟩

/-- What stands in a pruned document is what is left of something in the document. -/
theorem Inside.exists_of_prune {u v w : Value} (h : Inside u w) (hw : v.prune = some w) :
    ∃ u', Inside u' v ∧ u'.prune = some u := by
  induction h generalizing v with
  | self => exact ⟨v, .self, hw⟩
  | item hmem _ ih =>
    obtain ⟨items, rfl, rfl⟩ := exists_list_of_prune hw
    rw [pruneItems_eq_filterMap] at hmem
    obtain ⟨v', hv', hprune⟩ := List.mem_filterMap.1 hmem
    obtain ⟨u', hin, hu'⟩ := ih hprune
    exact ⟨u', .item hv' hin, hu'⟩
  | field hmem _ ih =>
    obtain ⟨fields, rfl, rfl⟩ := exists_table_of_prune hw
    obtain ⟨v', hv', hprune⟩ := exists_of_mem_pruneFields hmem
    obtain ⟨u', hin, hu'⟩ := ih hprune
    exact ⟨u', .field hv' hin, hu'⟩

/-- A document with nothing void inside is left as it is. -/
theorem prune_eq_self {v : Value} (h : ∀ u, Inside u v → ¬ u.isVoid = true) :
    v.prune = some v := by
  have hvoid := h v .self
  -- No item is dropped, each being without anything void itself.
  induction v using induction with
  | null => exact absurd rfl hvoid
  | bool b =>
    cases b with
    | false => exact absurd rfl hvoid
    | true => rfl
  | number n => rfl
  | text s =>
    rw [isVoid] at hvoid
    rw [prune, if_neg hvoid]
  | list items ih =>
    have hitems : pruneItems items = items := by
      rw [pruneItems_eq_filterMap]
      refine (List.filterMap_congr fun v hv => ?_).trans List.filterMap_some
      exact ih v hv (fun u hu => h u (.item hv hu)) (h v (.item hv .self))
    rw [prune, hitems]
    split
    · exact absurd rfl hvoid
    · rfl
  | table fields ih =>
    have hfields : pruneFields fields = fields := by
      rw [pruneFields_eq_filterMap]
      refine (List.filterMap_congr fun e he => ?_).trans List.filterMap_some
      rw [ih e he (fun u hu => h u (.field he hu)) (h e.2 (.field he .self))]
      rfl
    rw [prune, hfields]
    split
    · exact absurd rfl hvoid
    · rfl

/-- Collecting from what is kept is collecting from everything, where nothing comes of the rest. -/
theorem flatMap_filterMap {α β γ : Type} (f : α → Option β) (g : β → List γ) (l : List α) :
    (l.filterMap f).flatMap g = l.flatMap fun a => (f a).elim [] g := by
  rw [List.filterMap_eq_flatMap_toList, List.flatMap_assoc]
  refine List.flatMap_congr fun a _ => ?_
  cases f a with
  | none => rfl
  | some b => exact List.append_nil _

/-- Pruning drops nothing that is set, and moves nothing. -/
theorem settled_prune (v : Value) : v.prune.elim [] settled = v.settled := by
  -- What is dropped holds nothing that is set, so item by item the same is set as before.
  induction v using induction with
  | null => rfl
  | bool b => cases b <;> rfl
  | number n => rfl
  | text s =>
    rw [prune_text]
    split
    · rename_i hs
      rw [hs]
      rfl
    · rfl
  | list items ih =>
    have hitems : settledItems (pruneItems items) = settledItems items := by
      rw [settledItems_eq_flatMap, settledItems_eq_flatMap, pruneItems_eq_filterMap,
        flatMap_filterMap]
      exact List.flatMap_congr ih
    cases h : (list items).prune with
    | none =>
      rw [pruneItems_eq_nil h] at hitems
      exact hitems
    | some w =>
      rw [eq_list_of_prune h]
      exact hitems
  | table fields ih =>
    have hfields : settledFields (pruneFields fields) = settledFields fields := by
      rw [settledFields_eq_flatMap, settledFields_eq_flatMap, pruneFields_eq_filterMap,
        flatMap_filterMap]
      refine List.flatMap_congr fun e he => ?_
      rw [Option.elim_map]
      exact ih e he
    cases h : (table fields).prune with
    | none =>
      rw [pruneFields_eq_nil h] at hfields
      exact hfields
    | some w =>
      rw [eq_table_of_prune h]
      exact hfields

/-- A document with nothing void inside sets something. -/
theorem settled_ne_nil {v : Value} (h : ∀ u, Inside u v → ¬ u.isVoid = true) : v.settled ≠ [] := by
  have hvoid := h v .self
  -- A container that is not void has a first item, which sets something by induction.
  induction v using induction with
  | null => exact absurd rfl hvoid
  | bool b =>
    cases b with
    | false => exact absurd rfl hvoid
    | true => exact List.cons_ne_nil _ _
  | number n => exact List.cons_ne_nil _ _
  | text s =>
    rw [isVoid] at hvoid
    simp [settled, isSet, hvoid]
  | list items ih =>
    cases items with
    | nil => exact absurd rfl hvoid
    | cons v rest =>
      have hv := ih v List.mem_cons_self (fun u hu => h u (.item List.mem_cons_self hu))
        (h v (.item List.mem_cons_self .self))
      rw [settled, settledItems]
      exact List.append_ne_nil_of_left_ne_nil hv _
  | table fields ih =>
    cases fields with
    | nil => exact absurd rfl hvoid
    | cons e rest =>
      have hv := ih e List.mem_cons_self (fun u hu => h u (.field List.mem_cons_self hu))
        (h e.2 (.field List.mem_cons_self .self))
      rw [settled, settledFields]
      exact List.append_ne_nil_of_left_ne_nil hv _

/-! ### Under their names -/

/-- What sets something is left as it is. -/
theorem prune_of_isSet {v : Value} (h : v.isSet = true) : v.prune = some v := by
  cases v with
  | bool b =>
    rw [isSet] at h
    rw [h]
    rfl
  | number n => rfl
  | text s =>
    rw [isSet, Bool.not_eq_true'] at h
    rw [prune, h]
    rfl
  | _ => cases h

/-- If something is left of a field, it is what is found under the name of the field. -/
theorem get?_pruneFields_of_some {fields : Fields} {name : String} {v w : Value}
    (h : Table.get? name fields = some v) (hw : v.prune = some w) :
    Table.get? name (pruneFields fields) = some w := by
  induction fields with
  | nil => cases h
  | cons e rest ih =>
    obtain ⟨n, v'⟩ := e
    rw [Table.get?] at h
    rw [pruneFields]
    split at h
    · rename_i hname
      obtain rfl := Option.some.inj h
      rw [hw]
      exact if_pos hname
    · rename_i hname
      split
      · exact ih h
      · exact (if_neg hname).trans (ih h)

/-- A table of which fields are left is a table of these. -/
theorem prune_table {fields : Fields} (h : pruneFields fields ≠ []) :
    (table fields).prune = some (.table (pruneFields fields)) := by
  rw [prune]
  split
  · contradiction
  · rfl

/-- A value that is set stays under its names. -/
theorem at?_prune {path : List String} {u v : Value} (h : v.at? path = some u)
    (hu : u.isSet = true) : ∃ w, v.prune = some w ∧ w.at? path = some u := by
  induction path generalizing v with
  | nil =>
    obtain rfl := Option.some.inj h
    exact ⟨v, prune_of_isSet hu, rfl⟩
  | cons name path ih =>
    cases v with
    | table fields =>
      obtain ⟨v, hv, hpath⟩ := Option.bind_eq_some_iff.1 h
      obtain ⟨w, hw, hfound⟩ := ih hpath
      have hget := get?_pruneFields_of_some hv hw
      refine ⟨.table (pruneFields fields), prune_table fun hnil => ?_, ?_⟩
      · rw [hnil] at hget
        cases hget
      · exact Option.bind_eq_some_iff.2 ⟨w, hget, hfound⟩
    | _ => cases h

/-! ## Exactness -/

/-- A document is what pruning should leave of another one. -/
structure Pruned (v w : Value) : Prop where
  /-- Nothing in it is void. -/
  full : ∀ u, Inside u w → ¬ u.isVoid = true
  /-- So nothing more can be pruned. -/
  again : w.prune = some w
  /-- What is set stays in its order. -/
  settled : w.settled = v.settled
  /-- What is set under names alone stays under these names. -/
  named : ∀ path u, u.isSet = true → v.at? path = some u → w.at? path = some u

/-- Nothing void stands in what is left. -/
theorem full_of_prune {v w : Value} (h : v.prune = some w) :
    ∀ u, Inside u w → ¬ u.isVoid = true := by
  intro u hu
  obtain ⟨u', -, hu'⟩ := hu.exists_of_prune h
  exact not_isVoid_of_prune hu'

/-- What is left of a document is what should be. -/
theorem pruned_of_prune {v w : Value} (h : v.prune = some w) : Pruned v w where
  full := full_of_prune h
  again := prune_eq_self (full_of_prune h)
  settled := by
    rw [← settled_prune v, h]
    rfl
  named path u hu hpath := by
    obtain ⟨w', hw', hfound⟩ := at?_prune hpath hu
    rw [h] at hw'
    rw [Option.some.inj hw']
    exact hfound

/-- Nothing is left of a document exactly if nothing is set in it. -/
theorem prune_eq_none_iff {v : Value} : v.prune = none ↔ v.settled = [] := by
  constructor
  · intro h
    rw [← settled_prune, h]
    rfl
  · intro h
    cases hw : v.prune with
    | none => rfl
    | some w =>
      have hpruned := pruned_of_prune hw
      exact absurd (hpruned.settled.trans h) (settled_ne_nil hpruned.full)

/-- Pruning leaves nothing of a document exactly if no value in it, at any depth, is set. Of any
other document it leaves one without anything void, with all that was set. -/
theorem prune_exact (v : Value) :
    (v.prune = none ↔ ∀ u, Inside u v → ¬ u.isSet = true) ∧
      ∀ w ∈ v.prune, Pruned v w :=
  ⟨prune_eq_none_iff.trans settled_eq_nil_iff, fun _ => pruned_of_prune⟩

/-- Empty texts are taken out of tables and lists, and so are tables with nothing else. -/
theorem prune_exact_nested :
    Pruned
      (.table [("a", .text ""), ("b", .table [("c", .text ""), ("d", .bool false)]),
        ("e", .list [.text "", .text "x"]), ("f", .bool true)])
      (.table [("e", .list [.text "x"]), ("f", .bool true)]) :=
  (prune_exact _).2 _ rfl

end Stencil.Json.Value
