/-!
# Tables

Things under names, in ascending order of the names and each name once. `insert` keeps this order,
so that a table has one form however it was filled.
-/

namespace Stencil

/-- Things under names. -/
abbrev Table (α : Type) := List (String × α)

namespace Table

variable {α : Type}

/-- Puts a thing under a name, replacing the one that was there. -/
def insert (name : String) (value : α) : Table α → Table α
  | [] => [(name, value)]
  | (n, v) :: rest =>
    if name < n then (name, value) :: (n, v) :: rest
    else if name == n then (name, value) :: rest
    else (n, v) :: insert name value rest

/-- The thing under a name. -/
def get? (name : String) : Table α → Option α
  | [] => none
  | (n, v) :: rest => if n == name then some v else get? name rest

/-- The names, in ascending order. -/
def names (t : Table α) : List String := t.map (·.1)

/-- The table of some named things, a later one replacing an earlier one of its name. -/
def ofList (entries : List (String × α)) : Table α :=
  entries.foldl (fun t e => insert e.1 e.2 t) []

/-- Changing the things under their names changes what is found, not where. -/
theorem get?_map {β : Type} (f : String → α → β) (name : String) (t : Table α) :
    get? name (t.map fun e => (e.1, f e.1 e.2)) = (get? name t).map (f name) := by
  induction t with
  | nil => rfl
  | cons e rest ih =>
    obtain ⟨n, v⟩ := e
    rw [List.map_cons, get?, get?]
    by_cases h : (n == name) = true
    · rw [if_pos h, if_pos h, ← eq_of_beq h]
      rfl
    · rw [if_neg h, if_neg h]
      exact ih

/-- What was put under a name is found there. -/
theorem get?_insert_self (name : String) (value : α) (t : Table α) :
    get? name (insert name value t) = some value := by
  fun_induction insert name value t with
  | case1 => simp [get?]
  | case2 => simp [get?]
  | case3 => simp [get?]
  | case4 n v rest _ hne ih =>
    have : (n == name) = false := by
      simp only [beq_eq_false_iff_ne, ne_eq, Bool.not_eq_true] at hne ⊢
      exact fun h => hne h.symm
    simp [get?, this, ih]

/-- Putting a thing under a name leaves what is under the others. -/
theorem get?_insert_of_ne {name other : String} (h : other ≠ name) (value : α) (t : Table α) :
    get? other (insert name value t) = get? other t := by
  fun_induction insert name value t with
  | case1 => simp [get?, Ne.symm h]
  | case2 => simp [get?, Ne.symm h]
  | case3 n v rest _ he =>
    have : name = n := by simpa using he
    subst this
    simp [get?, Ne.symm h]
  | case4 n v rest _ _ ih => simp [get?, ih]

end Table

end Stencil
