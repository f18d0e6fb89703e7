import Stencil.Proofs.Upload.Sources

/-!
# The order of files

Several files that are added one after the other stand after those that were there, each key once
and in the order in which it came up first.
-/

namespace Stencil.Upload

namespace Uploader

variable {u u' : Uploader} {source : String}

/-- What the file of a local path is known by: its key inside the folder. -/
def sourceKeys (u : Uploader) : List (Except Error String) :=
  u.items.map fun item => sourceKey item.source

/-- Files stay known as others are added. -/
theorem Adds.sourceKeys_subset (h : u.Adds u') : u.sourceKeys ⊆ u'.sourceKeys := by
  obtain ⟨new, hnew, _⟩ := h.items
  rw [sourceKeys, sourceKeys, hnew, List.map_append]
  exact List.subset_append_left _ _

/-- The address of a file is that of its source. -/
theorem address_eq_of_mem (hp : u.Placed) (hn : u.Named) {item : Planned} (hi : item ∈ u.items)
    (h : sourceKey item.source = sourceKey source) : u.address source = .ok item.url.text := by
  cases u with
  | disabled reason => cases hi
  | enabled p =>
    obtain ⟨relative, hr, hkey⟩ := hn item hi
    have hurl := Plan.Placed.address hp item hi
    rw [address_enabled, Plan.address, ← h, hr]
    simp only
    rw [← hkey, hurl]
    rfl

/-- The key of a file that was added is among those of the plan. -/
theorem sourceKey_mem_of_add (hp : u.Placed) (hn : u.Named) {a : String}
    (h : (u.add source).1 = .ok a) : sourceKey source ∈ (u.add source).2.sourceKeys := by
  obtain ⟨item, hi, _, hparts⟩ := add_registers hp hn h
  have hkey := (named_add hn source).sourceKey_eq hi hparts
  exact List.mem_map.2 ⟨item, hi, hkey⟩

/-- Adding a file changes nothing if its key is there, and else puts the file at the end. -/
theorem add_eq_or (hp : u.Placed) (hn : u.Named) (source : String) :
    (sourceKey source ∈ u.sourceKeys → (u.add source).2 = u) ∧
      ∀ a, (u.add source).1 = .ok a → sourceKey source ∉ u.sourceKeys →
        ∃ item, (u.add source).2.items = u.items ++ [item] ∧ item.source = source := by
  rcases add_cases u source with he | ⟨p, relative, item, hu, hs, _, ⟨hr, hf⟩, _, he⟩
  · refine ⟨fun _ => he, fun a ha hnot => absurd ?_ hnot⟩
    have hmem := sourceKey_mem_of_add hp hn ha
    rwa [he] at hmem
  · refine ⟨fun hmem => ?_, fun _ _ _ => ⟨item, by rw [he, hu]; rfl, hs⟩⟩
    subst hu
    -- A file with this key would be in the index, which does not know it.
    obtain ⟨old, hold, hkey⟩ := List.mem_map.1 hmem
    obtain ⟨relative', hr', hkey'⟩ := hn old hold
    rw [hr', hr, Except.ok.injEq] at hkey
    subst hkey
    refine absurd ?_ (Plan.Placed.indexed hp |>.find_eq_none hf)
    exact hkey' ▸ List.mem_map_of_mem hold

/-- Adds some files one after the other. -/
def addAll (sources : List String) (u : Uploader) : Uploader :=
  sources.foldl (fun u source => (u.add source).2) u

/-- Adding files one after the other may be done in two parts. -/
theorem addAll_append (sources later : List String) (u : Uploader) :
    addAll (sources ++ later) u = addAll later (addAll sources u) :=
  List.foldl_append

/-- Files that can all be added stand after those that were there: each key that was not there is
there once, in the order in which it came up first. -/
theorem items_addAll (hp : u.Placed) (hn : u.Named) {sources : List String}
    (hok : ∀ source ∈ sources, ∃ a, u.address source = .ok a) :
    ∃ new, (addAll sources u).items = u.items ++ new ∧
      new.map (fun item => sourceKey item.source) =
        ((sources.map sourceKey).filter (· ∉ u.sourceKeys)).eraseDups := by
  induction sources generalizing u with
  | nil => exact ⟨[], (List.append_nil _).symm, rfl⟩
  | cons source rest ih =>
    obtain ⟨⟨a, ha⟩, hrest⟩ := List.forall_mem_cons.1 hok
    rw [← add_answer hp] at ha
    have hrest' : ∀ s ∈ rest, ∃ a, (u.add source).2.address s = .ok a := by
      rwa [address_add]
    obtain ⟨new, hnew, hkeys⟩ := ih (placed_add hp source) (named_add hn source) hrest'
    obtain ⟨hknown, hfresh⟩ := add_eq_or hp hn source
    show ∃ new, (addAll rest (u.add source).2).items = _ ∧ _
    -- A key that is known adds nothing now, and a new one is known to all that follow.
    by_cases hmem : sourceKey source ∈ u.sourceKeys
    · rw [hknown hmem] at hnew hkeys ⊢
      refine ⟨new, hnew, ?_⟩
      rw [hkeys, List.map_cons, List.filter_cons_of_neg (by simpa using hmem)]
    · obtain ⟨item, hitems, hsource⟩ := hfresh a ha hmem
      refine ⟨item :: new, by rw [hnew, hitems, List.append_assoc]; rfl, ?_⟩
      have hnow : (u.add source).2.sourceKeys = u.sourceKeys ++ [sourceKey source] := by
        rw [sourceKeys, hitems, List.map_append, List.map_singleton, hsource]
        rfl
      rw [List.map_cons, hkeys, hsource, List.map_cons,
        List.filter_cons_of_pos (by simpa using hmem), List.eraseDups_cons, List.filter_filter,
        hnow]
      congr 2
      refine List.filter_congr fun key _ => ?_
      rw [Bool.eq_iff_iff]
      simp [and_comm]

end Uploader

end Stencil.Upload
