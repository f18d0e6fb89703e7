import Stencil.Proofs.Upload.Sources

/-!
# The life of a plan

Whatever happens to a plan, its index has the places of its files under the keys of their sources,
the keys differ, and what it waits for is what its files say: nothing while there are none, a
sending while one of them waits, nothing more once all are sent. A file never leaves its place, and
all that ever changes of it is that it is sent.
-/

namespace Stencil.Upload

variable {ω : Type}

/-! ## What the stage says -/

namespace Plan

/-- What a plan waits for, read off its files. -/
def due (p : Plan) : Stage :=
  if p.items.isEmpty then .idle else if p.pending.isEmpty then .done else .planning

theorem pending_eq_nil_iff {p : Plan} : p.pending = [] ↔ ∀ item ∈ p.items, item.sent = true := by
  simp [pending]

/-- A plan is done if it has files and all of them were sent. -/
theorem due_eq_done {p : Plan} (hne : p.items ≠ []) (hs : ∀ item ∈ p.items, item.sent = true) :
    p.due = .done := by
  rw [due, if_neg (by simpa using hne), if_pos (by simpa using pending_eq_nil_iff.2 hs)]

/-- A plan is under way while a file waits. -/
theorem due_eq_planning {p : Plan} {item : Planned} (hmem : item ∈ p.items)
    (hw : item.sent = false) : p.due = .planning := by
  have hpending : p.pending ≠ [] := fun h => by
    rw [pending_eq_nil_iff.1 h item hmem] at hw
    cases hw
  rw [due, if_neg (by simpa using List.ne_nil_of_mem hmem), if_neg (by simpa using hpending)]

/-- A plan is idle without files, under way while one waits, and else done. -/
theorem due_cases (p : Plan) :
    (p.due = .idle ∧ p.items = []) ∨
      (p.due = .planning ∧ ∃ item ∈ p.items, item.sent = false) ∨
      (p.due = .done ∧ p.items ≠ [] ∧ ∀ item ∈ p.items, item.sent = true) := by
  by_cases hne : p.items = []
  · exact .inl ⟨by rw [due, if_pos (by simpa using hne)], hne⟩
  · by_cases hs : ∀ item ∈ p.items, item.sent = true
    · exact .inr (.inr ⟨due_eq_done hne hs, hne, hs⟩)
    · simp only [not_forall, Bool.not_eq_true] at hs
      obtain ⟨item, hmem, hw⟩ := hs
      exact .inr (.inl ⟨due_eq_planning hmem hw, item, hmem, hw⟩)

/-- A plan whose files stand at their places, under the keys of their sources, and which waits for
what its files say. -/
structure Regular (p : Plan) : Prop where
  placed : p.Placed
  named : (Uploader.enabled p).Named
  stage : p.stage = p.due

/-- A plan without files is regular. -/
theorem regular_empty (container : Container) (folder : String) (online : Bool) :
    (empty container folder online).Regular :=
  ⟨placed_empty container folder online, fun _ hmem => absurd hmem List.not_mem_nil, rfl⟩

end Plan

/-- An uploader with a regular plan for a folder. -/
def Uploader.Regular (folder : String) (u : Uploader) : Prop :=
  ∃ p, u = .enabled p ∧ p.folder = folder ∧ p.Regular

variable {folder : String} {u u' : Uploader}

/-! ## Adding -/

/-- A plan to which a new file is added waits for what its files say. -/
theorem Plan.stage_extend {p : Plan} (h : p.stage = p.due) (relative : String) {item : Planned}
    (hw : item.sent = false) : (p.extend relative item).stage = (p.extend relative item).due := by
  rw [due_eq_planning (List.mem_append_right p.items List.mem_cons_self) hw]
  show p.stage.added = .planning
  rw [h]
  rcases p.due_cases with ⟨hd, _⟩ | ⟨hd, _⟩ | ⟨hd, _⟩ <;> rw [hd] <;> rfl

/-- Adding a file keeps an uploader regular. -/
theorem Uploader.Regular.add (h : u.Regular folder) (source : String) :
    (u.add source).2.Regular folder := by
  obtain ⟨p, hu, hfolder, hp⟩ := h
  have hplaced : u.Placed := by
    rw [hu]
    exact hp.placed
  have hnamed : u.Named := by
    rw [hu]
    exact hp.named
  have hplaced' := Uploader.placed_add hplaced source
  have hnamed' := Uploader.named_add hnamed source
  rcases Uploader.add_cases u source with he | ⟨p', relative, item, hu', _, hw, _, _, he⟩
  · exact ⟨p, he.trans hu, hfolder, hp⟩
  · rw [hu', Uploader.enabled.injEq] at hu
    subst hu
    rw [he] at hplaced' hnamed'
    exact ⟨_, he, hfolder, hplaced', hnamed', p'.stage_extend hp.stage relative hw⟩

/-! ## Executing -/

/-- A sending that does not fail leaves no file waiting. -/
theorem Sends.all_sent {items items' : List Planned} {n : Nat} {es : List Event}
    (h : Sends items (items', n, none) es) : ∀ item ∈ items', item.sent = true := by
  generalize hr : (items', n, (none : Option Error)) = r at h
  induction h generalizing items' n with
  | nil =>
    cases hr
    exact fun _ hmem => absurd hmem List.not_mem_nil
  | kept hs _ ih =>
    cases hr
    exact List.forall_mem_cons.2 ⟨hs, ih rfl⟩
  | failed _ _ => cases hr
  | sent _ _ _ ih =>
    cases hr
    exact List.forall_mem_cons.2 ⟨rfl, ih rfl⟩

/-- A sending that fails leaves a file waiting. -/
theorem Sends.exists_waiting {items items' : List Planned} {n : Nat} {e : Error} {es : List Event}
    (h : Sends items (items', n, some e) es) : ∃ item ∈ items', item.sent = false := by
  generalize hr : (items', n, some e) = r at h
  induction h generalizing items' n with
  | nil => cases hr
  | kept _ _ ih =>
    cases hr
    obtain ⟨item, hmem, hw⟩ := ih rfl
    exact ⟨item, List.mem_cons_of_mem _ hmem, hw⟩
  | failed hw _ =>
    cases hr
    exact ⟨_, List.mem_cons_self, hw⟩
  | sent _ _ _ ih =>
    cases hr
    obtain ⟨item, hmem, hw⟩ := ih rfl
    exact ⟨item, List.mem_cons_of_mem _ hmem, hw⟩

/-- Files have the keys of their own sources while both stay as they are. -/
theorem Uploader.Named.of_map_eq {p : Plan} (h : (Uploader.enabled p).Named) {items : List Planned}
    (he : items.map (fun item => (item.source, item.key)) =
      p.items.map fun item => (item.source, item.key)) (stage : Stage) :
    (Uploader.enabled { p with items, stage }).Named := by
  intro item hmem
  have hitem := List.mem_map_of_mem (f := fun item : Planned => (item.source, item.key)) hmem
  rw [he] at hitem
  obtain ⟨old, hold, heq⟩ := List.mem_map.1 hitem
  rw [Prod.mk.injEq] at heq
  rw [← heq.1, ← heq.2]
  exact h old hold

/-- Executing leaves every file under the key of its own source. -/
theorem Executes.named {result : Except Error Nat} {es : List Event}
    (h : Executes u (result, u') es) (hu : u.Named) : u'.Named := by
  have hmap := h.map_eq (f := fun item => (item.source, item.key)) fun _ => rfl
  cases h with
  | forbidden => exact hu
  | idle _ => exact hu
  | finished _ _ _ => exact hu.of_map_eq hmap .done
  | stopped _ _ _ => exact hu.of_map_eq hmap .planning

/-- The files of every uploader of a program have the keys of their sources. -/
theorem Uploader.Reachable.named (h : u.Reachable) : u.Named := by
  induction h with
  | disabled reason => exact trivial
  | empty container folder online => exact fun _ hmem => absurd hmem List.not_mem_nil
  | add source _ ih => exact named_add ih source
  | execute host w _ ih =>
    obtain ⟨es, _, he⟩ := execute_recorded host _ w []
    exact he.named ih

/-- Executing leaves a regular plan, whether it sends all files or fails. -/
theorem Executes.regular {result : Except Error Nat} {es : List Event}
    (h : Executes u (result, u') es) (hu : u.Regular folder) : u'.Regular folder := by
  obtain ⟨p, rfl, hfolder, hp⟩ := hu
  have hplaced := h.placed hp.placed
  have hnamed := h.named hp.named
  have hlength := h.map_eq (f := Planned.source) fun _ => rfl
  cases h with
  | idle _ => exact ⟨p, rfl, hfolder, hp⟩
  | @finished _ items n _ hpending _ hs =>
    have hne : items ≠ [] := by
      rintro rfl
      have hnil : p.items = [] := List.map_eq_nil_iff.1 hlength.symm
      exact hpending (by rw [Plan.pending, hnil, List.filter_nil])
    exact ⟨_, rfl, hfolder, hplaced, hnamed,
      (Plan.due_eq_done (p := { p with items, stage := .done }) hne hs.all_sent).symm⟩
  | @stopped _ items n _ _ _ _ hs =>
    obtain ⟨item, hmem, hw⟩ := hs.exists_waiting
    exact ⟨_, rfl, hfolder, hplaced, hnamed,
      (Plan.due_eq_planning (p := { p with items, stage := .planning }) hmem hw).symm⟩

/-! ## Files over time -/

/-- What can become of a file: it stays as it is, or it is sent. -/
inductive Planned.Becomes (item : Planned) : Planned → Prop
  | same : Becomes item item
  | sent : item.sent = false → Becomes item item.marked

/-- What a file becomes in two steps it becomes. -/
theorem Planned.Becomes.trans {i j k : Planned} (h : i.Becomes j) (h' : j.Becomes k) :
    i.Becomes k := by
  cases h with
  | same => exact h'
  | sent hw =>
    cases h' with
    | same => exact .sent hw
    | sent hw' => cases hw'

/-- Every file of a list has its place in another one, as it was or sent. -/
def Stay (items items' : List Planned) : Prop :=
  ∀ (i : Nat) (item : Planned), items[i]? = some item →
    ∃ item', items'[i]? = some item' ∧ item.Becomes item'

theorem Stay.refl (items : List Planned) : Stay items items := fun _ item h => ⟨item, h, .same⟩

/-- Files that stay over two steps stay over both. -/
theorem Stay.trans {items items' items'' : List Planned} (h : Stay items items')
    (h' : Stay items' items'') : Stay items items'' := by
  intro i item hi
  obtain ⟨item', hi', hb⟩ := h i item hi
  obtain ⟨item'', hi'', hb'⟩ := h' i item' hi'
  exact ⟨item'', hi'', hb.trans hb'⟩

/-- Files stay if the first becomes something and the others stay. -/
theorem Stay.cons {item item' : Planned} {items items' : List Planned} (hb : item.Becomes item')
    (h : Stay items items') : Stay (item :: items) (item' :: items') := by
  intro i old hi
  cases i with
  | zero =>
    obtain rfl := Option.some.inj hi
    exact ⟨item', rfl, hb⟩
  | succ i => exact h i old hi

/-- Files stay as others are added. -/
theorem Uploader.Adds.stay (h : u.Adds u') : Stay u.items u'.items := by
  obtain ⟨new, hnew, _⟩ := h.items
  intro i item hi
  have hlt := (List.getElem?_eq_some_iff.1 hi).1
  exact ⟨item, by rw [hnew, List.getElem?_append_left hlt, hi], .same⟩

/-- Files stay as they are sent. -/
theorem Sends.stay {items items' : List Planned} {n : Nat} {failed : Option Error}
    {es : List Event} (h : Sends items (items', n, failed) es) : Stay items items' := by
  generalize hr : (items', n, failed) = r at h
  induction h generalizing items' n failed with
  | nil =>
    cases hr
    exact .refl []
  | kept _ _ ih =>
    cases hr
    exact .cons .same (ih rfl)
  | failed _ _ =>
    cases hr
    exact .refl _
  | sent hw _ _ ih =>
    cases hr
    exact .cons (.sent hw) (ih rfl)

/-- Files stay as an uploader is executed. -/
theorem Executes.stay {result : Except Error Nat} {es : List Event}
    (h : Executes u (result, u') es) : Stay u.items u'.items := by
  cases h with
  | forbidden => exact .refl _
  | idle _ => exact .refl _
  | finished _ _ hs => exact hs.stay
  | stopped _ _ hs => exact hs.stay

/-! ## Histories -/

namespace Scene

variable (host : Host (StateM ω)) {s : Scene ω}

/-- Files stay whatever happens. -/
theorem stay_step (s : Scene ω) (op : Operation ω) :
    Stay s.uploader.items (s.step host op).uploader.items := by
  rcases s.step_cases host op with ⟨ha, _⟩ | ⟨result, es, hx, _⟩
  · exact ha.stay
  · exact hx.stay

/-- Files stay over every history. -/
theorem stay_run (s : Scene ω) (history : List (Operation ω)) :
    Stay s.uploader.items (s.run host history).uploader.items := by
  induction history generalizing s with
  | nil => exact .refl _
  | cons op rest ih => exact (s.stay_step host op).trans (ih (s.step host op))

/-- An uploader stays regular whatever happens. -/
theorem regular_step (h : s.uploader.Regular folder) (op : Operation ω) :
    (s.step host op).uploader.Regular folder := by
  rcases s.step_cases host op with ⟨ha, _⟩ | ⟨result, es, hx, _⟩
  · exact ha.keeps (P := Uploader.Regular folder) (fun _ source hu => hu.add source) h
  · exact hx.regular h

/-- An uploader stays regular over every history. -/
theorem regular_run (h : s.uploader.Regular folder) (history : List (Operation ω)) :
    (s.run host history).uploader.Regular folder := by
  induction history generalizing s with
  | nil => exact h
  | cons op rest ih => exact ih (regular_step host h op)

end Scene

/-! ## The whole life -/

/-- What a plan is between operations. -/
structure Plan.Orderly (p : Plan) : Prop where
  index : ∀ relative i, Table.get? relative p.index = some i ↔
    ∃ item, p.items[i]? = some item ∧ sourceKey item.source = .ok relative
  key : ∀ item ∈ p.items, ∃ relative, sourceKey item.source = .ok relative ∧
    item.key = p.folder ++ "/" ++ relative
  distinct : (p.items.map (·.key)).Nodup
  idle : p.stage = .idle ↔ p.items = []
  planning : p.stage = .planning ↔ ∃ item ∈ p.items, item.sent = false
  done : p.stage = .done ↔ p.items ≠ [] ∧ ∀ item ∈ p.items, item.sent = true
  quiet : p.stage ≠ .executing

/-- A key tells the place of its file. -/
theorem Plan.Regular.nodup {p : Plan} (h : p.Regular) : (p.items.map (·.key)).Nodup := by
  rw [List.nodup_iff_getElem?_ne_getElem?]
  intro i j hij hj he
  obtain ⟨item, hitem⟩ : ∃ item, p.items[i]? = some item :=
    ⟨_, List.getElem?_eq_getElem (by rw [List.length_map] at hj; omega)⟩
  obtain ⟨relative, _, hkey⟩ := h.named item (List.mem_of_getElem? hitem)
  have hi : (p.items.map (·.key))[i]? = some (p.keyOf relative) := by
    rw [List.getElem?_map, hitem, Option.map_some, hkey]
  have hfirst := (h.placed.indexed relative i).2 hi
  have hsecond := (h.placed.indexed relative j).2 (he ▸ hi)
  rw [hfirst, Option.some.injEq] at hsecond
  omega

/-- The index of a regular plan has the place of the file with each key. -/
theorem Plan.Regular.index {p : Plan} (h : p.Regular) (relative : String) (i : Nat) :
    Table.get? relative p.index = some i ↔
      ∃ item, p.items[i]? = some item ∧ sourceKey item.source = .ok relative := by
  rw [h.placed.indexed, List.getElem?_map, Option.map_eq_some_iff]
  refine exists_congr fun item => and_congr_right fun hitem => ?_
  obtain ⟨relative', hr, hkey⟩ := h.named item (List.mem_of_getElem? hitem)
  rw [hkey, p.keyOf_injective.eq_iff, hr, Except.ok.injEq]

/-- A regular plan is orderly. -/
theorem Plan.Regular.orderly {p : Plan} (h : p.Regular) : p.Orderly where
  index := h.index
  key := h.named
  distinct := h.nodup
  idle := by
    rcases p.due_cases with ⟨hd, hi⟩ | ⟨hd, item, hmem, _⟩ | ⟨hd, hne, _⟩ <;> rw [h.stage, hd]
    · simp [hi]
    · simp [List.ne_nil_of_mem hmem]
    · simp [hne]
  planning := by
    rcases p.due_cases with ⟨hd, hi⟩ | ⟨hd, hw⟩ | ⟨hd, _, hs⟩ <;> rw [h.stage, hd]
    · simp [hi]
    · simpa using hw
    · simpa using hs
  done := by
    rcases p.due_cases with ⟨hd, hi⟩ | ⟨hd, item, hmem, hw⟩ | ⟨hd, hne, hs⟩ <;> rw [h.stage, hd]
    · simp [hi]
    · simpa using fun _ => ⟨item, hmem, hw⟩
    · simpa [hne] using hs
  quiet := by
    rcases p.due_cases with ⟨hd, _⟩ | ⟨hd, _⟩ | ⟨hd, _⟩ <;> rw [h.stage, hd] <;> decide

/-- After any history, online or not and whatever failed, the plan is orderly: its index has exactly
the places of its files under the keys of their sources, keys differ, and what it waits for is what
its files say. All that ever happens to a file is that it is sent, at its place. -/
theorem orderly_at_any_time (host : Host (StateM ω)) (container : Container) (folder : String)
    (online : Bool) (machine : ω) (history : List (Operation ω)) :
    let s := (Scene.start container folder online machine).run host history
    ∃ p, s.uploader = .enabled p ∧ p.folder = folder ∧ p.Orderly ∧
      ∀ later, ∃ q, (s.run host later).uploader = .enabled q ∧ Stay p.items q.items := by
  intro s
  have hs : s.uploader.Regular folder := Scene.regular_run host
    ⟨_, rfl, rfl, Plan.regular_empty container folder online⟩ history
  obtain ⟨p, hp, hfolder, hr⟩ := hs
  refine ⟨p, hp, hfolder, hr.orderly, fun later => ?_⟩
  obtain ⟨q, hq, _⟩ := Scene.regular_run host ⟨p, hp, hfolder, hr⟩ later
  have hstay := s.stay_run host later
  rw [hp, hq] at hstay
  exact ⟨q, hq, hstay⟩

end Stencil.Upload
