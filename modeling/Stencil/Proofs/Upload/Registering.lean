import Stencil.Proofs.Upload.Lifecycle
import Stencil.Proofs.Upload.Order

/-!
# Registering a file

What a plan answers for a local path does not depend on what happened to the plan: neither on the
files that it has, nor on which of them were sent. Registering changes the plan only where the path
is a new one, and then puts one waiting file at the end. So all spellings of a path, however often
they are registered and whatever is sent in between, have one address and one file.
-/

namespace Stencil.Upload

variable {ω : Type} {u u' : Uploader} {folder : String}

/-! ## What a plan answers -/

/-- The address of a local path depends on its key. -/
theorem Uploader.address_congr {source other : String} (h : sourceKey other = sourceKey source) :
    u.address other = u.address source := by
  cases u with
  | disabled reason => rfl
  | enabled p => simp only [address_enabled, Plan.address, h]

/-- Executing an uploader changes no address. -/
theorem Executes.address {result : Except Error Nat} {es : List Event}
    (h : Executes u (result, u') es) : u'.address = u.address := by
  cases h with
  | forbidden => rfl
  | idle _ => rfl
  | finished _ _ _ =>
    rw [Uploader.address_enabled, Uploader.address_enabled]
    exact Plan.address_congr rfl rfl
  | stopped _ _ _ =>
    rw [Uploader.address_enabled, Uploader.address_enabled]
    exact Plan.address_congr rfl rfl

namespace Scene

variable (host : Host (StateM ω)) (s : Scene ω)

/-- No address changes, whatever happens. -/
theorem address_step (op : Operation ω) :
    (s.step host op).uploader.address = s.uploader.address := by
  rcases s.step_cases host op with ⟨ha, _⟩ | ⟨result, es, hx, _⟩
  · exact ha.keeps (P := fun u => u.address = s.uploader.address)
      (fun u source hu => (u.address_add source).trans hu) rfl
  · exact hx.address

/-- No address changes over any history. -/
theorem address_run (history : List (Operation ω)) :
    (s.run host history).uploader.address = s.uploader.address := by
  induction history generalizing s with
  | nil => rfl
  | cons op rest ih => exact (ih (s.step host op)).trans (s.address_step host op)

/-! ## Files and keys -/

/-- A key that was registered once stays so. -/
theorem sourceKeys_run_subset (history : List (Operation ω)) :
    s.uploader.sourceKeys ⊆ (s.run host history).uploader.sourceKeys := by
  have hkeys (u : Uploader) : u.sourceKeys =
      ((u.items.map Planned.registered).map Planned.source).map sourceKey := by
    simp only [Uploader.sourceKeys, List.map_map, Function.comp_def, Planned.registered]
  rw [hkeys, hkeys]
  exact List.map_subset _ (List.map_subset _ (s.registered_run host history).subset)

end Scene

namespace Uploader.Regular

/-- The files of a regular uploader stand at their places. -/
theorem placed (h : u.Regular folder) : u.Placed := by
  obtain ⟨p, rfl, _, hp⟩ := h
  exact hp.placed

/-- The files of a regular uploader have the keys of their sources. -/
theorem named (h : u.Regular folder) : u.Named := by
  obtain ⟨p, rfl, _, hp⟩ := h
  exact hp.named

/-- Every key is the key of one file. -/
theorem nodup_sourceKeys (h : u.Regular folder) : u.sourceKeys.Nodup := by
  obtain ⟨p, rfl, _, hp⟩ := h
  have hkeys : (Uploader.enabled p).sourceKeys.map (fun key => key.map p.keyOf) =
      (p.items.map (·.key)).map Except.ok := by
    rw [sourceKeys, List.map_map, List.map_map]
    refine List.map_congr_left fun item hmem => ?_
    obtain ⟨relative, hr, hkey⟩ := hp.named item hmem
    simp only [Function.comp_apply, hr, hkey]
    rfl
  exact List.Nodup.of_map _ (hkeys ▸ hp.nodup.map fun _ _ => Except.ok.inj)

end Uploader.Regular

/-! ## Adding -/

namespace Uploader

variable {p : Plan} {source : String}

/-- An uploader that refuses a file stays as it is. -/
theorem add_error {e : Error} (h : (u.add source).1 = .error e) : (u.add source).2 = u := by
  cases u with
  | disabled reason => rfl
  | enabled p =>
    cases hr : p.add source with
    | error e => rw [add_enabled_error hr]
    | ok r =>
      rw [add_enabled_ok hr] at h
      cases h

/-- A file with a new key waits at the end, and its place is noted under the key. -/
theorem add_new (hp : p.Placed) (hn : (Uploader.enabled p).Named) {address : String}
    (h : ((Uploader.enabled p).add source).1 = .ok address)
    (hnew : sourceKey source ∉ (Uploader.enabled p).sourceKeys) :
    ∃ relative item, sourceKey source = .ok relative ∧
      (item.source = source ∧ item.key = p.keyOf relative ∧ item.url.text = address ∧
        item.sent = false) ∧
      ((Uploader.enabled p).add source).2 = .enabled (p.extend relative item) := by
  have ha := Plan.adding_add p source
  generalize hr : p.add source = r at ha
  cases ha with
  | malformed _ =>
    rw [add_enabled_error hr] at h
    cases h
  | homeless _ _ =>
    rw [add_enabled_error hr] at h
    cases h
  | known hk hf =>
    -- A file that the index knows has its key among those of the plan.
    have hmem := sourceKey_mem_of_add (u := .enabled p) hp hn h
    rw [add_enabled_ok hr] at hmem
    exact absurd hmem hnew
  | @new relative url hk _ _ =>
    rw [add_enabled_ok hr] at h ⊢
    exact ⟨relative, _, hk, ⟨rfl, rfl, Except.ok.inj h, rfl⟩, rfl⟩

end Uploader

/-- After any history a plan answers for a local path what a plan without files answers. It stays as
it is where it refuses the path or has a file with its key, and else has one waiting file more, at
the end. From then on, whatever happens, every path with this key has that address, changes nothing,
and there is one file with the key. -/
theorem registered_independently (host : Host (StateM ω)) (container : Container)
    (folder : String) (online : Bool) (machine : ω) (history : List (Operation ω)) :
    let s := (Scene.start container folder online machine).run host history
    ∃ p, s.uploader = .enabled p ∧ ∀ source,
      let r := s.uploader.add source
      (∀ fresh, r.1 = ((Uploader.enabled (.empty container folder fresh)).add source).1) ∧
      (∀ e, r.1 = .error e → r.2 = s.uploader) ∧
      (sourceKey source ∈ s.uploader.sourceKeys → r.2 = s.uploader) ∧
      (∀ address, r.1 = .ok address → sourceKey source ∉ s.uploader.sourceKeys →
        ∃ relative item, sourceKey source = .ok relative ∧
          (item.source = source ∧ item.key = folder ++ "/" ++ relative ∧
            item.url.text = address ∧ item.sent = false) ∧
          r.2 = .enabled { p with
            items := p.items ++ [item]
            index := Table.insert relative p.items.length p.index
            stage := p.stage.added }) ∧
      ∀ address, r.1 = .ok address → ∀ other, sourceKey other = sourceKey source → ∀ later,
        let t := (s.step host (.add source)).run host later
        t.uploader.add other = (.ok address, t.uploader) ∧
          t.uploader.sourceKeys.count (sourceKey source) = 1 := by
  intro s
  have hs : s.uploader.Regular folder := Scene.regular_run host
    ⟨_, rfl, rfl, Plan.regular_empty container folder online⟩ history
  have hplaced := hs.placed
  have hnamed := hs.named
  obtain ⟨p, hu, hfolder, hp⟩ := hs
  refine ⟨p, hu, fun source => ⟨fun fresh => ?_, fun e => Uploader.add_error,
    (Uploader.add_eq_or hplaced hnamed source).1, fun address h hnew => ?_,
    fun address h other hother later => ?_⟩⟩
  -- What is answered is the address of the path, and no history changes addresses.
  · have haddress : s.uploader.address =
        (Uploader.enabled (.empty container folder fresh)).address :=
      (Scene.address_run host _ history).trans <| by
        rw [Scene.start, Uploader.address_enabled, Uploader.address_enabled]
        exact Plan.address_congr rfl rfl
    rw [Uploader.add_answer hplaced, haddress,
      Uploader.add_answer (u := .enabled _) (Plan.placed_empty container folder fresh)]
  · rw [hu] at h hnew ⊢
    rw [← hfolder]
    exact Uploader.add_new hp.placed hp.named h hnew
  · intro t
    have ht : t.uploader.Regular folder := Scene.regular_run host
      (Scene.regular_step host ⟨p, hu, hfolder, hp⟩ (.add source)) later
    have hmem : sourceKey source ∈ t.uploader.sourceKeys :=
      Scene.sourceKeys_run_subset host _ later (Uploader.sourceKey_mem_of_add hplaced hnamed h)
    -- The other path has the same key, so the same address, and the key is known by now.
    have haddress : t.uploader.address other = .ok address := by
      rw [Uploader.address_congr hother, Scene.address_run, Scene.address_step,
        ← Uploader.add_answer hplaced, h]
    refine ⟨Prod.ext ?_ ?_, List.count_eq_one_of_mem ht.nodup_sourceKeys hmem⟩
    · rw [Uploader.add_answer ht.placed, haddress]
    · refine (Uploader.add_eq_or ht.placed ht.named other).1 ?_
      rw [hother]
      exact hmem

end Stencil.Upload
