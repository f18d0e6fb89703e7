import Stencil.Proofs.Text.Blank
import Stencil.Proofs.Text.Split
import Stencil.Proofs.Upload.History

/-!
# Local paths and files

The key of a local path gives its parts back, so two paths are one file of a plan exactly if they
have the same parts once the blanks around them are left out. Between paths without such blanks that
are all absolute or all relative, that is to be the same path; a file then holds what the host reads
at that path.
-/

namespace Stencil.Upload

open Text

variable {ω : Type}

/-! ## Keys and parts -/

/-- The parts of a local path once the blanks around it are left out. -/
def sourceParts (source : String) : List String :=
  Container.keyParts (String.ofList (trim isBlank source.toList))

/-- A path has a key if it has parts and none of them goes up; the key is made of the parts. -/
theorem sourceKey_eq_ok_iff {source relative : String} :
    sourceKey source = .ok relative ↔
      sourceParts source ≠ [] ∧ ".." ∉ sourceParts source ∧
        "/".intercalate (sourceParts source) = relative := by
  rw [sourceKey, ← sourceParts]
  split <;> rename_i h
  · rw [Bool.or_eq_true, List.isEmpty_iff, List.contains_iff_mem] at h
    simp only [reduceCtorEq, false_iff, not_and]
    intro hne hup
    exact absurd h (not_or.2 ⟨hne, hup⟩)
  · rw [Bool.or_eq_true, List.isEmpty_iff, List.contains_iff_mem, not_or] at h
    simp [h]

namespace Container

/-- A part of a key names something and is not cut further. -/
theorem of_mem_keyParts {key part : String} (h : part ∈ keyParts key) :
    part ≠ "" ∧ part ≠ "." ∧ '/' ∉ part.toList := by
  obtain ⟨hmem, hp⟩ := List.mem_filter.1 h
  obtain ⟨piece, hpiece, rfl⟩ := List.mem_map.1 hmem
  rw [Bool.and_eq_true, bne_iff_ne, bne_iff_ne] at hp
  refine ⟨hp.1, hp.2, ?_⟩
  rw [String.toList_ofList]
  exact not_mem_of_mem_split hpiece

/-- The parts of a key in a folder are those of the folder and those of the key. -/
theorem keyParts_append (folder relative : String) :
    keyParts (folder ++ "/" ++ relative) = keyParts folder ++ keyParts relative := by
  have hchars : (folder ++ "/" ++ relative).toList =
      folder.toList ++ '/' :: relative.toList := by
    simp
  simp only [keyParts, splitString, hchars, split_eq_splitOn, List.splitOn_append_cons_self,
    List.map_append, List.filter_append]

/-- Parts are those of the key that has a slash between them. -/
theorem keyParts_intercalate {parts : List String} (hne : parts ≠ [])
    (h : ∀ part ∈ parts, part ≠ "" ∧ part ≠ "." ∧ '/' ∉ part.toList) :
    keyParts ("/".intercalate parts) = parts := by
  have hchars : ("/".intercalate parts).toList = ['/'].intercalate (parts.map String.toList) :=
    String.toList_intercalate
  have hpieces : ∀ piece ∈ parts.map String.toList, '/' ∉ piece := by
    intro piece hp
    obtain ⟨part, hpart, rfl⟩ := List.mem_map.1 hp
    exact (h part hpart).2.2
  rw [keyParts, splitString, hchars, split_eq_splitOn,
    List.splitOn_intercalate _ hpieces (by simpa using hne), List.map_map]
  have hid : String.ofList ∘ String.toList = id := funext fun _ => String.ofList_toList
  rw [hid, List.map_id, List.filter_eq_self]
  intro part hpart
  obtain ⟨hempty, hdot, _⟩ := h part hpart
  rw [Bool.and_eq_true, bne_iff_ne, bne_iff_ne]
  exact ⟨hempty, hdot⟩

end Container

/-- The parts of a local path can be read off its key. -/
theorem keyParts_sourceKey {source relative : String} (h : sourceKey source = .ok relative) :
    Container.keyParts relative = sourceParts source := by
  obtain ⟨hne, _, rfl⟩ := sourceKey_eq_ok_iff.1 h
  exact Container.keyParts_intercalate hne fun _ hp => Container.of_mem_keyParts hp

/-- Paths have the same key if they have the same parts. -/
theorem sourceKey_inj {s t a b : String} (hs : sourceKey s = .ok a) (ht : sourceKey t = .ok b) :
    a = b ↔ sourceParts s = sourceParts t := by
  constructor
  · rintro rfl
    rw [← keyParts_sourceKey hs, keyParts_sourceKey ht]
  · intro h
    obtain ⟨_, _, rfl⟩ := sourceKey_eq_ok_iff.1 hs
    obtain ⟨_, _, rfl⟩ := sourceKey_eq_ok_iff.1 ht
    rw [h]

/-! ## Files and their sources -/

namespace Uploader

/-- Every file has the key of its own source. -/
def Named : Uploader → Prop
  | .disabled _ => True
  | .enabled p =>
    ∀ item ∈ p.items, ∃ relative, sourceKey item.source = .ok relative ∧ item.key = p.keyOf relative

/-- Adding a file gives it the key of its source. -/
theorem named_add {u : Uploader} (h : u.Named) (source : String) : (u.add source).2.Named := by
  cases u with
  | disabled reason => exact trivial
  | enabled p =>
    have ha := Plan.adding_add p source
    generalize hr : p.add source = r at ha
    cases ha with
    | malformed _ => rwa [add_enabled_error hr]
    | homeless _ _ => rwa [add_enabled_error hr]
    | known _ _ => rwa [add_enabled_ok hr]
    | @new relative url hk _ _ =>
      rw [add_enabled_ok hr]
      intro item hmem
      rcases List.mem_append.1 hmem with hmem | hmem
      · exact h item hmem
      · rw [List.mem_singleton.1 hmem]
        exact ⟨relative, hk, rfl⟩

/-- A file that was added is in the plan, under some source with the same parts. -/
theorem add_registers {u : Uploader} (hp : u.Placed) (h : u.Named) {source a : String}
    (ha : (u.add source).1 = .ok a) :
    ∃ item ∈ (u.add source).2.items, item.url.text = a ∧
      sourceParts item.source = sourceParts source := by
  cases u with
  | disabled reason => cases ha
  | enabled p =>
    have hadd := Plan.adding_add p source
    generalize hr : p.add source = r at hadd
    -- A known key finds the file that was added with it first, by an equal source.
    cases hadd with
    | malformed _ =>
      rw [add_enabled_error hr] at ha
      cases ha
    | homeless _ _ =>
      rw [add_enabled_error hr] at ha
      cases ha
    | @known relative item hk hf =>
      obtain ⟨hmem, hkey⟩ := Plan.Placed.indexed hp |>.find_eq_some hf
      rw [add_enabled_ok hr] at ha ⊢
      obtain ⟨relative', hk', hkey'⟩ := h item hmem
      have hsame : relative' = relative := p.keyOf_injective (hkey'.symm.trans hkey)
      exact ⟨item, hmem, Except.ok.inj ha, (sourceKey_inj hk' hk).1 hsame⟩
    | @new relative url hk _ _ =>
      rw [add_enabled_ok hr] at ha ⊢
      exact ⟨_, List.mem_append_right _ List.mem_cons_self, Except.ok.inj ha, rfl⟩

/-- A path with the parts of a file has its key. -/
theorem Named.sourceKey_eq {u : Uploader} (h : u.Named) {item : Planned} (hi : item ∈ u.items)
    {source : String} (hp : sourceParts item.source = sourceParts source) :
    sourceKey item.source = sourceKey source := by
  cases u with
  | disabled reason => cases hi
  | enabled p =>
    obtain ⟨relative, hr, _⟩ := h item hi
    have hsource : sourceKey source = .ok relative := by
      rw [sourceKey_eq_ok_iff, ← hp]
      exact sourceKey_eq_ok_iff.1 hr
    rw [hr, hsource]

/-- Files of one plan are the same exactly if their sources have the same parts. -/
theorem eq_iff_sourceParts_eq {u : Uploader} (h : u.Named) (hd : (u.items.map (·.key)).Nodup)
    {i j : Planned} (hi : i ∈ u.items) (hj : j ∈ u.items) :
    i = j ↔ sourceParts i.source = sourceParts j.source := by
  cases u with
  | disabled reason => cases hi
  | enabled p =>
    obtain ⟨a, ha, hkey⟩ := h i hi
    obtain ⟨b, hb, hkey'⟩ := h j hj
    constructor
    · rintro rfl
      rfl
    · intro hparts
      refine List.inj_on_of_nodup_map hd hi hj ?_
      rw [hkey, hkey', (sourceKey_inj ha hb).2 hparts]

end Uploader

/-! ## The same local path -/

/-- A local path that starts at the root. -/
def isAbsolute (source : String) : Bool := source.toList.head? == some '/'

/-- Two spellings of one local path. -/
def SamePath (s t : String) : Prop :=
  isAbsolute s = isAbsolute t ∧ Container.keyParts s = Container.keyParts t

instance (s t : String) : Decidable (SamePath s t) := inferInstanceAs (Decidable (_ ∧ _))

/-- Two local paths without blanks around them that are both absolute or both relative. -/
structure Comparable (s t : String) : Prop where
  starts : ¬ Starts isBlank s.toList ∧ ¬ Starts isBlank t.toList
  ends : ¬ Ends isBlank s.toList ∧ ¬ Ends isBlank t.toList
  root : isAbsolute s = isAbsolute t

/-- A path without blanks around it has the parts between its slashes. -/
theorem sourceParts_of_tight {source : String} (hs : ¬ Starts isBlank source.toList)
    (he : ¬ Ends isBlank source.toList) : sourceParts source = Container.keyParts source := by
  have hstart : trimStart isBlank source.toList = source.toList :=
    trimStart_eq_iff.2 ⟨[], rfl, nofun, hs⟩
  have hend : trimEnd isBlank source.toList = source.toList :=
    trimEnd_eq_iff.2 ⟨[], (List.append_nil _).symm, nofun, he⟩
  rw [sourceParts, trim, hstart, hend, String.ofList_toList]

/-- Comparable paths are spellings of one path if they have the same parts. -/
theorem Comparable.samePath_iff {s t : String} (h : Comparable s t) :
    SamePath s t ↔ sourceParts s = sourceParts t := by
  rw [sourceParts_of_tight h.starts.1 h.ends.1, sourceParts_of_tight h.starts.2 h.ends.2]
  exact and_iff_right h.root

/-! ## What is sent -/

/-- A file was read at its source and sent to its address as it was read. -/
def Delivered (item : Planned) (log : List Event) : Prop :=
  ∃ octets, [.read item.source (.ok octets), .send item.url.text octets (.ok ())] <:+: log

/-- Sending all files that wait delivers each of them. -/
theorem Sends.delivered {items items' : List Planned} {n : Nat} {es : List Event}
    (h : Sends items (items', n, none) es) :
    ∀ item ∈ items, item.sent = false → Delivered item es := by
  generalize hr : (items', n, (none : Option Error)) = r at h
  induction h generalizing items' n with
  | nil => exact fun _ hm => absurd hm List.not_mem_nil
  | @kept item rest items n failed es hsent _ ih =>
    cases hr
    intro other hm hw
    rcases List.mem_cons.1 hm with rfl | hm
    · rw [hsent] at hw
      cases hw
    · exact ih rfl other hm hw
  | failed _ _ => cases hr
  | @sent item rest items n failed es es' _ ha _ ih =>
    cases hr
    intro other hm hw
    rcases List.mem_cons.1 hm with rfl | hm
    · cases ha with
      | @sent octets => exact ⟨octets, (List.prefix_append _ _).isInfix⟩
    · obtain ⟨octets, ho⟩ := ih rfl other hm hw
      exact ⟨octets, ho.trans (List.suffix_append _ _).isInfix⟩

/-- All files of an online plan are delivered when it is executed with success. -/
theorem Uploader.delivered_of_execute {u : Uploader} (hw : ∀ item ∈ u.items, item.sent = false)
    (honline : u.online = true) (host : Host (StateM ω)) (machine : ω) {n : Nat}
    (h : ((u.execute host.recorded).run (machine, [])).1.1 = .ok n) :
    ∀ item ∈ u.items, Delivered item ((u.execute host.recorded).run (machine, [])).2.2 := by
  intro item hmem
  obtain ⟨es, he, hx⟩ := execute_recorded host u machine []
  rw [he] at h ⊢
  rw [List.nil_append]
  generalize ((u.execute host).run machine).1 = r at h hx
  obtain ⟨result, u'⟩ := r
  obtain rfl : result = .ok n := h
  cases hx with
  | @idle p hidle =>
    have hp : p.online = true := honline
    have hpending : item ∈ p.pending := List.mem_filter.2 ⟨hmem, by rw [hw item hmem]; rfl⟩
    rw [hp, Bool.not_true, Bool.or_false, List.isEmpty_iff] at hidle
    rw [hidle] at hpending
    cases hpending
  | finished _ _ hs => exact hs.delivered item hmem (hw item hmem)

namespace Uploader

/-- What holds of an uploader to which files were added only. -/
structure Registered (u : Uploader) (online : Bool) : Prop where
  placed : u.Placed
  named : u.Named
  distinct : (u.items.map (·.key)).Nodup
  waiting : ∀ item ∈ u.items, item.sent = false
  online : u.online = online

/-- An uploader without files has only added some. -/
theorem registered_empty (container : Container) (folder : String) (online : Bool) :
    (Uploader.enabled (.empty container folder online)).Registered online :=
  ⟨Plan.placed_empty container folder online, fun _ h => absurd h List.not_mem_nil, List.nodup_nil,
    fun _ h => absurd h List.not_mem_nil, rfl⟩

/-- What holds where files were only added holds after more of that. -/
theorem Registered.adds {u u' : Uploader} {online : Bool} (h : u.Registered online)
    (ha : u.Adds u') : u'.Registered online where
  placed := ha.keeps (P := Placed) (fun _ source hv => placed_add hv source) h.placed
  named := ha.keeps (P := Named) (fun _ source hv => named_add hv source) h.named
  distinct := (ha.keeps (P := fun v => v.Placed ∧ (v.items.map (·.key)).Nodup)
    (fun _ source hv => ⟨placed_add hv.1 source, nodup_keys_add hv.1 hv.2 source⟩)
    ⟨h.placed, h.distinct⟩).2
  waiting := by
    obtain ⟨new, hnew, hw⟩ := ha.items
    intro item hmem
    rw [hnew] at hmem
    exact (List.mem_append.1 hmem).elim (h.waiting item) (hw item)
  online := ha.online.trans h.online

end Uploader

/-- Two local paths that a plan accepts each get a file, under a source with the same key. Between
comparable paths this is one file exactly if they are the same path, and then the source is that
path too; what is sent to the address of a file is what was read at its source. -/
theorem file_eq_iff_samePath (container : Container) (folder : String) (online : Bool)
    {u v : Uploader} {s t a b : String}
    (hu : (Uploader.enabled (.empty container folder online)).Adds u)
    (hs : (u.add s).1 = .ok a) (hv : (u.add s).2.Adds v) (ht : (v.add t).1 = .ok b) :
    ∃ i ∈ (v.add t).2.items, ∃ j ∈ (v.add t).2.items,
      (i.url.text = a ∧ sourceKey i.source = sourceKey s) ∧
      (j.url.text = b ∧ sourceKey j.source = sourceKey t) ∧
      (Comparable s t → (i = j ↔ SamePath s t)) ∧
      (Comparable i.source s → SamePath i.source s) ∧
      (Comparable j.source t → SamePath j.source t) ∧
      (online = true → ∀ (ω : Type) (host : Host (StateM ω)) (machine : ω) (n : Nat),
        (((v.add t).2.execute host.recorded).run (machine, [])).1.1 = .ok n →
          Delivered i (((v.add t).2.execute host.recorded).run (machine, [])).2.2 ∧
            Delivered j (((v.add t).2.execute host.recorded).run (machine, [])).2.2) := by
  have hstart := Uploader.registered_empty container folder online
  have hu' := hstart.adds hu
  have hv' := (hu'.adds (.single ⟨s, rfl⟩)).adds hv
  have hw := hv'.adds (.single ⟨t, rfl⟩)
  obtain ⟨i, hi, hia, hip⟩ := Uploader.add_registers hu'.placed hu'.named hs
  obtain ⟨j, hj, hjb, hjp⟩ := Uploader.add_registers hv'.placed hv'.named ht
  -- The files of a plan stay in it when others are added.
  have hlater : (u.add s).2.Adds (v.add t).2 := hv.tail ⟨t, rfl⟩
  obtain ⟨new, hnew, _⟩ := hlater.items
  have hi' : i ∈ (v.add t).2.items := hnew ▸ List.mem_append_left new hi
  refine ⟨i, hi', j, hj, ⟨hia, hw.named.sourceKey_eq hi' hip⟩, ⟨hjb, hw.named.sourceKey_eq hj hjp⟩,
    fun hc => ?_, fun hc => hc.samePath_iff.2 hip, fun hc => hc.samePath_iff.2 hjp,
    fun honline ω host machine n hok => ?_⟩
  · rw [Uploader.eq_iff_sourceParts_eq hw.named hw.distinct hi' hj, hip, hjp, hc.samePath_iff]
  · have hsent :=
      Uploader.delivered_of_execute hw.waiting (hw.online.trans honline) host machine hok
    exact ⟨hsent i hi', hsent j hj⟩

/-- A plan for a container at the root of a host. -/
def Plan.sample : Plan :=
  .empty ⟨⟨"https".toList, some ⟨[], .name "store".toList, none⟩, .segments [[]], none, none⟩,
    "files"⟩ "run" true

/-- Two files that are added one after the other. -/
theorem file_eq_iff_samePath_two :
    ∃ i ∈ ((Uploader.enabled .sample).add "a" |>.2.add "b").2.items,
      ∃ j ∈ ((Uploader.enabled .sample).add "a" |>.2.add "b").2.items,
        i.url.text = "https://store/files/run/a" ∧ j.url.text = "https://store/files/run/b" ∧
          i ≠ j := by
  have hs : ((Uploader.enabled .sample).add "a").1 = .ok "https://store/files/run/a" := by
    decide +kernel
  have ht : (((Uploader.enabled .sample).add "a").2.add "b").1 =
      .ok "https://store/files/run/b" := by
    decide +kernel
  obtain ⟨i, hi, j, hj, ⟨hia, _⟩, ⟨hjb, _⟩, hij, _⟩ :=
    file_eq_iff_samePath _ _ _ .refl hs .refl ht
  have hc : Comparable "a" "b" :=
    ⟨by decide, by decide, by decide⟩
  exact ⟨i, hi, j, hj, hia, hjb, mt (hij hc).1 (by decide +kernel)⟩

/-- A path from the root shares the file of a relative one, and so does one with blanks around. -/
theorem shared_file :
    ((Uploader.enabled .sample).add "a" |>.2.add "/a" |>.2.add " a").2.items.map (·.source) =
        ["a"] ∧
      (∀ source ∈ ["a", "/a", " a"],
        ((Uploader.enabled .sample).add "a" |>.2.add source).1 =
          .ok "https://store/files/run/a") ∧
      ¬ SamePath "a" "/a" ∧ ¬ SamePath "a" " a" := by
  decide +kernel

end Stencil.Upload
