import Mathlib.Data.List.Pairwise
import Mathlib.Data.List.Perm.Basic
import Stencil.Table

/-!
# Tables and the lists that they are made of

A table that is made of things under different names holds all of them, each under its name, in the
ascending order of the names. Made of things that are in this order already, it is their list.
-/

namespace Stencil.Table

variable {α β : Type}

/-! ## What is found -/

/-- Putting things under other names leaves what is under a name. -/
theorem get?_foldl_insert_of_ne {name : String} {entries : List (String × α)}
    (h : name ∉ entries.map (·.1)) (t : Table α) :
    get? name (entries.foldl (fun t e => insert e.1 e.2 t) t) = get? name t := by
  induction entries generalizing t with
  | nil => rfl
  | cons e rest ih =>
    rw [List.map_cons, List.mem_cons, not_or] at h
    rw [List.foldl_cons, ih h.2, get?_insert_of_ne h.1]

/-- What is found under a name is in the table. -/
theorem mem_of_get? {name : String} {value : α} {t : Table α} (h : get? name t = some value) :
    (name, value) ∈ t := by
  induction t with
  | nil => cases h
  | cons e rest ih =>
    rw [get?] at h
    split_ifs at h with hname
    · cases h
      rw [← eq_of_beq hname]
      exact List.mem_cons_self
    · exact List.mem_cons_of_mem _ (ih h)

/-- Nothing is found under a name that is not there. -/
theorem get?_eq_none {name : String} {t : Table α} (h : name ∉ t.names) : get? name t = none := by
  cases hget : get? name t with
  | none => rfl
  | some value => exact absurd (List.mem_map.2 ⟨_, mem_of_get? hget, rfl⟩) h

/-- Something is found under a name that is there. -/
theorem exists_get?_of_mem {name : String} {t : Table α} (h : name ∈ t.names) :
    ∃ value, get? name t = some value := by
  induction t with
  | nil => cases h
  | cons e rest ih =>
    rw [get?]
    split
    · exact ⟨_, rfl⟩
    · rename_i hname
      refine ih ((List.mem_cons.1 h).resolve_left fun heq => hname ?_)
      rw [heq]
      exact beq_self_eq_true _

/-- Things under different names are all found where they are. -/
theorem get?_of_mem {name : String} {value : α} {t : Table α} (hn : (t.map (·.1)).Nodup)
    (h : (name, value) ∈ t) : get? name t = some value := by
  induction t with
  | nil => cases h
  | cons e rest ih =>
    rw [List.map_cons, List.nodup_cons] at hn
    rw [get?]
    rcases List.mem_cons.1 h with rfl | h
    · exact if_pos (beq_self_eq_true name)
    · have hne : ¬ (e.1 == name) = true := fun he =>
        hn.1 (eq_of_beq he ▸ List.mem_map.2 ⟨_, h, rfl⟩)
      rw [if_neg hne, ih hn.2 h]

/-- Things under different names are all found in the table of them. -/
theorem get?_ofList_of_mem {name : String} {value : α} {entries : List (String × α)}
    (hn : (entries.map (·.1)).Nodup) (h : (name, value) ∈ entries) :
    get? name (ofList entries) = some value := by
  rw [ofList]
  generalize ([] : Table α) = t
  induction entries generalizing t with
  | nil => cases h
  | cons e rest ih =>
    rw [List.map_cons, List.nodup_cons] at hn
    rw [List.foldl_cons]
    rcases List.mem_cons.1 h with rfl | h
    · rw [get?_foldl_insert_of_ne hn.1, get?_insert_self]
    · exact ih hn.2 h _

/-- What is made of things under different names is found under their names. -/
theorem get?_ofList_map {β : Type} (make : α → β) {entries : List (String × α)}
    (hn : (entries.map (·.1)).Nodup) {e : String × α} (h : e ∈ entries) :
    get? e.1 (ofList (entries.map fun e => (e.1, make e.2))) = some (make e.2) := by
  refine get?_ofList_of_mem ?_ (List.mem_map.2 ⟨e, h, rfl⟩)
  rwa [List.map_map]

/-! ## What a table holds -/

/-- Changing the things under their names changes what is put there, not where. -/
theorem insert_map (make : α → β) (name : String) (value : α) (t : Table α) :
    insert name (make value) (t.map fun e => (e.1, make e.2)) =
      (insert name value t).map fun e => (e.1, make e.2) := by
  induction t with
  | nil => rfl
  | cons e rest ih =>
    obtain ⟨n, v⟩ := e
    rw [List.map_cons, insert, insert, ih]
    split_ifs <;> rfl

/-- Making something of the entries of a table is making it of those that the table is made of. -/
theorem ofList_map (make : α → β) (entries : List (String × α)) :
    ofList (entries.map fun e => (e.1, make e.2)) =
      (ofList entries).map fun e => (e.1, make e.2) := by
  suffices h : ∀ t : Table α, (entries.map fun e => (e.1, make e.2)).foldl
      (fun t e => insert e.1 e.2 t) (t.map fun e => (e.1, make e.2)) =
        (entries.foldl (fun t e => insert e.1 e.2 t) t).map fun e => (e.1, make e.2) from h []
  induction entries with
  | nil => exact fun t => rfl
  | cons e rest ih =>
    intro t
    rw [List.map_cons, List.foldl_cons, List.foldl_cons, ← ih, ← insert_map]

/-- Putting a thing under a new name adds one entry. -/
theorem perm_insert {name : String} {t : Table α} (h : name ∉ t.names) (value : α) :
    (insert name value t).Perm ((name, value) :: t) := by
  induction t with
  | nil => exact List.Perm.refl _
  | cons e rest ih =>
    obtain ⟨n, v⟩ := e
    rw [names, List.map_cons, List.mem_cons, not_or] at h
    have hne : ¬ (name == n) = true := by simpa using h.1
    rw [insert, if_neg hne]
    split_ifs
    · exact List.Perm.refl _
    · exact ((ih h.2).cons _).trans (List.Perm.swap _ _ _)

/-- A table of things under different names holds these things and no others. -/
theorem perm_ofList {entries : List (String × α)} (h : (entries.map (·.1)).Nodup) :
    (ofList entries).Perm entries := by
  suffices hall : ∀ t : Table α, (∀ name ∈ entries.map (·.1), name ∉ t.names) →
      (entries.foldl (fun t e => insert e.1 e.2 t) t).Perm (entries ++ t) by
    have hperm := hall [] fun _ _ => List.not_mem_nil
    rwa [List.append_nil] at hperm
  induction entries with
  | nil => exact fun t _ => List.Perm.refl _
  | cons e rest ih =>
    intro t ht
    rw [List.map_cons, List.nodup_cons] at h
    rw [List.map_cons, List.forall_mem_cons] at ht
    have hinsert := perm_insert ht.1 e.2
    have hnames (name : String) (hname : name ∈ rest.map (·.1)) :
        name ∉ (insert e.1 e.2 t).names := by
      rw [names, (hinsert.map (·.1)).mem_iff, List.map_cons, List.mem_cons, not_or]
      exact ⟨fun heq => h.1 (heq ▸ hname), ht.2 name hname⟩
    rw [List.foldl_cons]
    exact (ih h.2 _ hnames).trans
      ((hinsert.append_left rest).trans List.perm_middle)

/-! ## Order -/

/-- The names of a table ascend, so each of them is there once. -/
def Ordered (t : Table α) : Prop := t.names.Pairwise (· < ·)

/-- The names of a table are different. -/
theorem Ordered.nodup {t : Table α} (h : t.Ordered) : (t.map (·.1)).Nodup := by
  refine List.Pairwise.imp (fun {n m} hlt heq => ?_) h
  exact String.lt_irrefl m (heq ▸ hlt)

theorem Ordered.sublist {t t' : Table α} (h : t.Ordered) (hsub : (t'.map (·.1)).Sublist t.names) :
    t'.Ordered := List.Pairwise.sublist hsub h

/-- Putting a thing under a name adds no other name. -/
theorem mem_names_insert {name n : String} {value : α} {t : Table α}
    (h : n ∈ (insert name value t).names) : n = name ∨ n ∈ t.names := by
  fun_induction insert name value t with
  | case1 => exact .inl (List.mem_singleton.1 h)
  | case2 => exact List.mem_cons.1 h
  | case3 m v rest _ he =>
    exact (List.mem_cons.1 h).imp_right (List.mem_cons_of_mem m)
  | case4 m v rest _ _ ih =>
    rcases List.mem_cons.1 h with h | h
    · exact .inr (h ▸ List.mem_cons_self)
    · exact (ih h).imp_right (List.mem_cons_of_mem m)

/-- Names stay in order as things are put under them. -/
theorem ordered_insert {t : Table α} (h : t.Ordered) (name : String) (value : α) :
    (insert name value t).Ordered := by
  fun_induction insert name value t with
  | case1 => exact List.pairwise_singleton _ _
  | case2 n v rest hlt =>
    refine List.pairwise_cons.2 ⟨fun m hm => ?_, h⟩
    rcases List.mem_cons.1 hm with rfl | hm
    · exact hlt
    · exact String.lt_trans hlt ((List.pairwise_cons.1 h).1 m hm)
  | case3 n v rest _ he =>
    obtain rfl : name = n := by simpa using he
    exact h
  | case4 n v rest hlt hne ih =>
    obtain ⟨hhead, hrest⟩ := List.pairwise_cons.1 h
    refine List.pairwise_cons.2 ⟨fun m hm => ?_, ih hrest⟩
    rcases mem_names_insert hm with rfl | hm
    · refine String.not_le.1 fun hle => hne ?_
      rw [String.le_antisymm hle (String.not_lt.1 hlt)]
      exact beq_self_eq_true _
    · exact hhead m hm

/-- A table that is made of entries is in order. -/
theorem ordered_ofList (entries : List (String × α)) : (ofList entries).Ordered := by
  suffices h : ∀ t : Table α, t.Ordered →
      (entries.foldl (fun t e => insert e.1 e.2 t) t).Ordered from h [] List.Pairwise.nil
  induction entries with
  | nil => exact fun t h => h
  | cons e rest ih => exact fun t h => ih _ (ordered_insert h e.1 e.2)

/-- A thing whose name comes after all the others is put at the end. -/
theorem insert_of_forall_lt {name : String} {t : Table α} (h : ∀ n ∈ t.names, n < name)
    (value : α) : insert name value t = t ++ [(name, value)] := by
  induction t with
  | nil => rfl
  | cons e rest ih =>
    obtain ⟨n, v⟩ := e
    obtain ⟨hn, hrest⟩ := List.forall_mem_cons.1 h
    have hne : ¬ (name == n) = true := fun he => String.lt_irrefl n (eq_of_beq he ▸ hn)
    rw [insert, if_neg (String.lt_asymm hn), if_neg hne, ih hrest]
    rfl

end Stencil.Table
