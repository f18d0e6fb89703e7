import Mathlib.Data.List.Nodup
import Mathlib.Logic.Relation
import Stencil.Upload.Plan

/-!
# Adding files

A file is added at the end of a plan and under a key of its own, or it is there already and the plan
stays as it is. The index of a plan tells which: it has the place of every file under its key inside
the folder, and nothing else. The address that adding answers with is that of the key, whatever was
added before.
-/

namespace Stencil.Upload

/-! ## Adding to a plan -/

namespace Plan

/-- A plan with a file at the end, under its key inside the folder. -/
def extend (p : Plan) (relative : String) (item : Planned) : Plan :=
  { p with
    items := p.items ++ [item]
    index := Table.insert relative p.items.length p.index
    stage := p.stage.added }

/-- Everything that adding a file can come to. -/
inductive Adding (p : Plan) (source : String) : Except Error (String × Plan) → Prop
  | malformed {e} : sourceKey source = .error e → Adding p source (.error e)
  | homeless {relative e} : sourceKey source = .ok relative →
      p.container.urlOf (p.keyOf relative) = .error e → Adding p source (.error e)
  | known {relative item} : sourceKey source = .ok relative → p.find? relative = some item →
      Adding p source (.ok (item.url.text, p))
  | new {relative url} : sourceKey source = .ok relative → p.find? relative = none →
      p.container.urlOf (p.keyOf relative) = .ok url →
      Adding p source (.ok (url.text, p.extend relative ⟨source, p.keyOf relative, url, false⟩))

/-- Adding a file comes to one of these. -/
theorem adding_add (p : Plan) (source : String) : Adding p source (p.add source) := by
  unfold add
  cases hr : sourceKey source with
  | error e => exact .malformed hr
  | ok relative =>
    cases hf : p.find? relative with
    | some item => simpa only [hf] using .known hr hf
    | none =>
      cases hu : p.container.urlOf (p.keyOf relative) with
      | error e => simpa only [hf, hu] using .homeless hr hu
      | ok url => simpa only [hf, hu] using .new hr hf hu

/-- Different keys inside the folder are different keys in the container. -/
theorem keyOf_injective (p : Plan) : Function.Injective p.keyOf := by
  intro a b h
  have := congrArg String.toList h
  simp only [keyOf, String.toList_append, List.append_cancel_left_eq] at this
  exact String.toList_inj.1 this

/-! ## The index -/

/-- The index of a plan has the places of its files, each under its key inside the folder, and
nothing else. -/
def Indexed (p : Plan) : Prop :=
  ∀ relative i, Table.get? relative p.index = some i ↔
    (p.items.map (·.key))[i]? = some (p.keyOf relative)

namespace Indexed

variable {p : Plan} {relative : String}

/-- A file that is found by its key is in the plan. -/
theorem find_eq_some (h : p.Indexed) {item : Planned} (hf : p.find? relative = some item) :
    item ∈ p.items ∧ item.key = p.keyOf relative := by
  obtain ⟨i, hi, hitem⟩ := Option.bind_eq_some_iff.1 hf
  have hkey := (h relative i).1 hi
  rw [List.getElem?_map, hitem] at hkey
  exact ⟨List.mem_of_getElem? hitem, Option.some.inj hkey⟩

/-- No file of the plan has a key by which none is found. -/
theorem find_eq_none (h : p.Indexed) (hf : p.find? relative = none) :
    p.keyOf relative ∉ p.items.map (·.key) := by
  intro hmem
  obtain ⟨i, hi⟩ := List.mem_iff_getElem?.1 hmem
  rw [find?, (h relative i).2 hi, Option.bind_some] at hf
  rw [List.getElem?_map, hf] at hi
  cases hi

/-- A file that the index does not know yet goes to the place after all others. -/
theorem extend (h : p.Indexed) (hf : p.find? relative = none) {item : Planned}
    (hkey : item.key = p.keyOf relative) : (p.extend relative item).Indexed := by
  intro other i
  have hlen : (p.items.map (·.key)).length = p.items.length := List.length_map _
  show Table.get? other (Table.insert relative p.items.length p.index) = some i ↔
    ((p.items ++ [item]).map (·.key))[i]? = some (p.keyOf other)
  rw [List.map_append, List.map_singleton, hkey]
  by_cases ho : other = relative
  · subst ho
    rw [Table.get?_insert_self, Option.some.injEq]
    constructor
    · rintro rfl
      rw [← hlen, List.getElem?_concat_length]
    · intro hi
      -- The key stands at no earlier place.
      rcases Nat.lt_trichotomy i p.items.length with hlt | heq | hgt
      · rw [List.getElem?_append_left (by omega)] at hi
        exact absurd (List.mem_of_getElem? hi) (h.find_eq_none hf)
      · exact heq.symm
      · rw [List.getElem?_eq_none (by simp; omega)] at hi
        cases hi
  · rw [Table.get?_insert_of_ne ho, h other i]
    rcases Nat.lt_or_ge i p.items.length with hlt | hge
    · rw [List.getElem?_append_left (by omega)]
    · have hother : some (p.keyOf relative) ≠ some (p.keyOf other) :=
        fun he => ho (p.keyOf_injective (Option.some.inj he)).symm
      rw [List.getElem?_eq_none (by omega), List.getElem?_append_right (by omega)]
      cases i - (p.items.map (·.key)).length <;> simp [hother]

end Indexed

/-- Every file of a plan stands at the address of its key, and at its place in the index. -/
structure Placed (p : Plan) : Prop where
  address : ∀ item ∈ p.items, p.container.urlOf item.key = .ok item.url
  indexed : p.Indexed

/-- A plan without files has all of them in their places. -/
theorem placed_empty (container : Container) (folder : String) (online : Bool) :
    (empty container folder online).Placed where
  address := fun _ hmem => absurd hmem List.not_mem_nil
  indexed := fun relative i => by simp [empty, Table.get?]

/-- A new file at its address takes its place in the plan. -/
theorem Placed.extend {p : Plan} (h : p.Placed) {relative : String}
    (hf : p.find? relative = none) {item : Planned} (hkey : item.key = p.keyOf relative)
    (hi : p.container.urlOf item.key = .ok item.url) : (p.extend relative item).Placed where
  address := by
    intro other hmem
    rcases List.mem_append.1 hmem with hmem | hmem
    · exact h.address other hmem
    · rw [List.mem_singleton.1 hmem]
      exact hi
  indexed := h.indexed.extend hf hkey

/-- Files stay at their places while their keys and addresses stay as they are. -/
theorem Placed.of_map_eq {p : Plan} (h : p.Placed) {items : List Planned}
    (he : items.map (fun item => (item.key, item.url)) =
      p.items.map fun item => (item.key, item.url)) (stage : Stage) :
    Placed { p with items, stage } where
  address := by
    intro item hmem
    have hitem := List.mem_map_of_mem (f := fun item : Planned => (item.key, item.url)) hmem
    rw [he] at hitem
    obtain ⟨old, hold, heq⟩ := List.mem_map.1 hitem
    rw [Prod.mk.injEq] at heq
    rw [← heq.1, ← heq.2]
    exact h.address old hold
  indexed := by
    have hkeys := congrArg (List.map Prod.fst) he
    rw [List.map_map, List.map_map] at hkeys
    intro relative i
    rw [show items.map (·.key) = p.items.map (·.key) from hkeys]
    exact h.indexed relative i

/-- The address that a local file has in a plan. -/
def address (p : Plan) (source : String) : Except Error String :=
  match sourceKey source with
  | .error e => .error e
  | .ok relative => (p.container.urlOf (p.keyOf relative)).map (·.text)

/-- Addresses depend on the place alone. -/
theorem address_congr {p q : Plan} (hc : p.container = q.container) (hf : p.folder = q.folder) :
    p.address = q.address := by
  funext source
  simp only [address, keyOf, hc, hf]

/-- Adding a file answers with its address. -/
theorem add_address {p : Plan} (h : p.Placed) (source : String) :
    (p.add source).map (·.1) = p.address source := by
  have ha := adding_add p source
  generalize p.add source = r at ha
  unfold address
  cases ha with
  | malformed hr =>
    rw [hr]
    rfl
  | homeless hr hu =>
    simp only [hr, hu]
    rfl
  | known hr hf =>
    obtain ⟨hmem, hkey⟩ := h.indexed.find_eq_some hf
    simp only [hr, ← hkey, h.address _ hmem]
    rfl
  | new hr _ hu =>
    simp only [hr, hu]
    rfl

end Plan

/-! ## Adding to an uploader -/

namespace Uploader

/-- Every file of the plan stands at the address of its key, and at its place in the index. -/
def Placed : Uploader → Prop
  | .disabled _ => True
  | .enabled p => p.Placed

/-- The address that a local file has. -/
def address (u : Uploader) (source : String) : Except Error String :=
  match u with
  | .disabled reason => .error (.forbidden reason)
  | .enabled p => p.address source

theorem address_enabled (p : Plan) : (Uploader.enabled p).address = p.address := rfl

/-- Whether files may be sent. -/
def online : Uploader → Bool
  | .disabled _ => false
  | .enabled p => p.online

/-- An uploader whose plan refuses a file stays as it is. -/
theorem add_enabled_error {p : Plan} {source : String} {e : Error} (h : p.add source = .error e) :
    (Uploader.enabled p).add source = (.error e, .enabled p) := by
  simp only [add, h]

/-- An uploader whose plan takes a file holds the plan with it. -/
theorem add_enabled_ok {p p' : Plan} {source url : String} (h : p.add source = .ok (url, p')) :
    (Uploader.enabled p).add source = (.ok url, .enabled p') := by
  simp only [add, h]

/-- Everything that adding a file to an uploader can come to: it stays as it is, or it has a new
file at the end, under a key that its index does not know yet. -/
theorem add_cases (u : Uploader) (source : String) :
    (u.add source).2 = u ∨
      ∃ p relative item, u = .enabled p ∧ item.source = source ∧ item.sent = false ∧
        (sourceKey source = .ok relative ∧ p.find? relative = none) ∧
        (item.key = p.keyOf relative ∧ p.container.urlOf item.key = .ok item.url) ∧
        (u.add source).2 = .enabled (p.extend relative item) := by
  cases u with
  | disabled reason => exact .inl rfl
  | enabled p =>
    have ha := Plan.adding_add p source
    generalize hr : p.add source = r at ha
    cases ha with
    | malformed _ => exact .inl (by rw [add_enabled_error hr])
    | homeless _ _ => exact .inl (by rw [add_enabled_error hr])
    | known _ _ => exact .inl (by rw [add_enabled_ok hr])
    | @new relative url hk hf hu =>
      exact .inr ⟨p, relative, ⟨source, p.keyOf relative, url, false⟩, rfl, rfl, rfl, ⟨hk, hf⟩,
        ⟨rfl, hu⟩, by rw [add_enabled_ok hr]⟩

/-- Adding a file answers with its address. -/
theorem add_answer {u : Uploader} (h : u.Placed) (source : String) :
    (u.add source).1 = u.address source := by
  cases u with
  | disabled reason => rfl
  | enabled p =>
    rw [address, ← Plan.add_address h]
    cases hr : p.add source with
    | error e =>
      rw [add_enabled_error hr]
      rfl
    | ok r =>
      obtain ⟨url, p'⟩ := r
      rw [add_enabled_ok hr]
      rfl

/-- An uploader to which some files were added. -/
def Adds : Uploader → Uploader → Prop :=
  Relation.ReflTransGen fun u u' => ∃ source, u' = (u.add source).2

/-- Files were added to an uploader: what every single addition keeps is kept. -/
theorem Adds.keeps {P : Uploader → Prop} (step : ∀ u source, P u → P (u.add source).2)
    {u u' : Uploader} (h : u.Adds u') (hu : P u) : P u' := by
  induction h with
  | refl => exact hu
  | tail _ hs ih =>
    obtain ⟨source, rfl⟩ := hs
    exact step _ source ih

/-- Adding a file keeps all of them in their places. -/
theorem placed_add {u : Uploader} (h : u.Placed) (source : String) : (u.add source).2.Placed := by
  rcases add_cases u source with he | ⟨p, relative, item, hp, _, _, ⟨_, hf⟩, ⟨hkey, hu⟩, he⟩
  · rwa [he]
  · subst hp
    rw [he]
    exact Plan.Placed.extend h hf hkey hu

/-- Adding a file changes no address. -/
theorem address_add (u : Uploader) (source : String) : (u.add source).2.address = u.address := by
  rcases add_cases u source with he | ⟨p, relative, item, hp, _, _, _, _, he⟩
  · rw [he]
  · subst hp
    rw [he, address_enabled, address_enabled]
    exact Plan.address_congr rfl rfl

/-- Adding a file does not change whether files may be sent. -/
theorem online_add (u : Uploader) (source : String) : (u.add source).2.online = u.online := by
  rcases add_cases u source with he | ⟨p, relative, item, hp, _, _, _, _, he⟩
  · rw [he]
  · subst hp
    rw [he]
    rfl

/-- Adding a file keeps the keys different. -/
theorem nodup_keys_add {u : Uploader} (hp : u.Placed) (h : (u.items.map (·.key)).Nodup)
    (source : String) : ((u.add source).2.items.map (·.key)).Nodup := by
  rcases add_cases u source with he | ⟨p, relative, item, rfl, _, _, ⟨_, hf⟩, ⟨hkey, _⟩, he⟩
  · rwa [he]
  · rw [he, items, Plan.extend, List.map_append, List.nodup_append']
    refine ⟨h, List.nodup_singleton _, ?_⟩
    rw [List.map_singleton, List.disjoint_singleton, hkey]
    exact Plan.Placed.indexed hp |>.find_eq_none hf

/-- Adding files does not change whether they may be sent. -/
theorem Adds.online {u u' : Uploader} (h : u.Adds u') : u'.online = u.online :=
  h.keeps (P := fun v => v.online = u.online)
    (fun v source hv => (online_add v source).trans hv) rfl

/-- What is added waits at the end. -/
theorem Adds.items {u u' : Uploader} (h : u.Adds u') :
    ∃ new, u'.items = u.items ++ new ∧ ∀ item ∈ new, item.sent = false := by
  induction h with
  | refl => exact ⟨[], by simp, by simp⟩
  | @tail v w _ hs ih =>
    obtain ⟨new, hnew, hw⟩ := ih
    obtain ⟨source, rfl⟩ := hs
    rcases add_cases v source with he | ⟨p, relative, item, hp, _, hsent, _, _, he⟩
    · exact ⟨new, by rw [he, hnew], hw⟩
    · subst hp
      -- The last file stands after all that were added before it.
      refine ⟨new ++ [item], ?_, ?_⟩
      · rw [he, ← List.append_assoc, ← hnew]
        rfl
      · intro other hmem
        rcases List.mem_append.1 hmem with hmem | hmem
        · exact hw other hmem
        · rw [List.mem_singleton.1 hmem]
          exact hsent

end Uploader

end Stencil.Upload
