import Stencil.Proofs.Upload.Sources
import Stencil.Proofs.Url.Segments

/-!
# Addresses of files

The address of a file goes on from that of the folder by one segment for each part of its source.
Addresses leave some characters out: as long as each part still names something without them, the
file stands below the folder, and two files share an address exactly if their parts are the same
without these characters.
-/

namespace Stencil.Upload

open Url

/-! ## Below the folder -/

/-- The segments of a key are those of the folder, and then its own. -/
theorem Container.keySegments_keyOf (p : Plan) (before : List (List Char)) (relative : String) :
    p.container.keySegments before (p.keyOf relative) =
      (keyParts relative).foldl pushSegment (p.container.keySegments before p.folder) := by
  simp only [keySegments, Plan.keyOf, keyParts_append, List.foldl_cons, List.foldl_append]

/-- The address of a key goes on from that of the folder. -/
theorem Plan.urlOf_keyOf {p : Plan} {relative : String} {url : Url}
    (h : p.container.urlOf (p.keyOf relative) = .ok url) :
    ∃ d before, p.destination = .ok d ∧ d.path = .segments before ∧
      url = { d with
        path := .segments ((Container.keyParts relative).foldl pushSegment before) } := by
  unfold Plan.destination Container.urlOf at *
  cases hp : p.container.endpoint.path with
  | plain cs =>
    rw [hp] at h
    cases h
  | segments before =>
    rw [hp] at h
    refine ⟨_, _, rfl, rfl, ?_⟩
    rw [← Except.ok.inj h, Container.keySegments_keyOf]

namespace Plan

variable {p : Plan} {i j : Planned}

/-- A file whose parts name something stands below the folder. -/
theorem url_eq (hp : p.Placed) (hn : (Uploader.enabled p).Named) (hi : i ∈ p.items)
    (hparts : ∀ part ∈ sourceParts i.source, Names part) :
    ∃ d before, p.destination = .ok d ∧ d.path = .segments before ∧
      i.url = { d with
        path := .segments (asDirectory before ++ (sourceParts i.source).map segmentOf) } := by
  obtain ⟨relative, hr, hkey⟩ := hn i hi
  have hurl := hp.address i hi
  rw [hkey] at hurl
  obtain ⟨d, before, hd, hbefore, he⟩ := urlOf_keyOf hurl
  refine ⟨d, before, hd, hbefore, ?_⟩
  rw [he, keyParts_sourceKey hr, foldl_pushSegment hparts (sourceKey_eq_ok_iff.1 hr).1]

/-- Files share an address exactly if their parts are the same without the characters that are
left out. -/
theorem url_text_eq_iff (hp : p.Placed) (hn : (Uploader.enabled p).Named) (hi : i ∈ p.items)
    (hj : j ∈ p.items) (hip : ∀ part ∈ sourceParts i.source, Names part)
    (hjp : ∀ part ∈ sourceParts j.source, Names part) :
    i.url.text = j.url.text ↔
      (sourceParts i.source).map remaining = (sourceParts j.source).map remaining := by
  obtain ⟨d, before, hd, hbefore, hiu⟩ := url_eq hp hn hi hip
  obtain ⟨d', before', hd', hbefore', hju⟩ := url_eq hp hn hj hjp
  -- Both files go on from the same folder.
  obtain rfl := Except.ok.inj (hd.symm.trans hd')
  obtain rfl := Path.segments.inj (hbefore.symm.trans hbefore')
  have hmap {xs ys : List String} :
      xs.map segmentOf = ys.map segmentOf ↔ xs.map remaining = ys.map remaining := by
    induction xs generalizing ys with
    | nil => cases ys <;> simp
    | cons x xs ih =>
      cases ys with
      | nil => simp
      | cons y ys => rw [List.map_cons, List.map_cons, List.cons.injEq, segmentOf_eq_iff, ih,
          List.map_cons, List.map_cons, List.cons.injEq]
  have hnames {source : String} (h : ∀ part ∈ sourceParts source, Names part) :
      ∀ s ∈ (sourceParts source).map segmentOf, s ≠ [] ∧ '/' ∉ s := by
    intro s hs
    obtain ⟨part, hpart, rfl⟩ := List.mem_map.1 hs
    exact ⟨(h part hpart).segmentOf_ne_nil, slash_not_mem_segmentOf part⟩
  have hne {k : Planned} (hk : k ∈ p.items) : sourceParts k.source ≠ [] := by
    obtain ⟨relative, hr, _⟩ := hn k hk
    exact (sourceKey_eq_ok_iff.1 hr).1
  rw [← hmap, hiu, hju]
  constructor
  · intro h
    have hin := hnames hip
    have hjn := hnames hjp
    obtain ⟨x, xs, hx⟩ := List.exists_cons_of_ne_nil (hne hi)
    obtain ⟨y, ys, hy⟩ := List.exists_cons_of_ne_nil (hne hj)
    rw [hx, hy, List.map_cons, List.map_cons] at h
    rw [hx, List.map_cons] at hin
    rw [hy, List.map_cons] at hjn
    rw [hx, hy, List.map_cons, List.map_cons]
    exact text_append_inj hin hjn h
  · intro h
    rw [h]

end Plan

/-! ## Sources without the characters that are left out -/

/-- A local path none of whose parts has a character that addresses leave out. -/
def Legible (source : String) : Prop :=
  ∀ part ∈ sourceParts source, ∀ c ∈ part.toList, isLeftOut c = false

/-- Addresses leave nothing out of the parts of a legible path. -/
theorem Legible.remaining_eq {source part : String} (h : Legible source)
    (hp : part ∈ sourceParts source) : remaining part = part.toList := by
  rw [remaining, List.filter_eq_self]
  intro c hc
  rw [h part hp c hc]
  rfl

/-- The parts of a legible path are names. -/
theorem Legible.names {source relative part : String} (h : Legible source)
    (hr : sourceKey source = .ok relative) (hp : part ∈ sourceParts source) : Names part := by
  obtain ⟨hempty, hdot, _⟩ := Container.of_mem_keyParts hp
  obtain ⟨_, hup, _⟩ := sourceKey_eq_ok_iff.1 hr
  have hne {s : String} (hs : part ≠ s) : remaining part ≠ s.toList := by
    rw [h.remaining_eq hp]
    exact mt String.toList_inj.1 hs
  have hdoubleDot : part ≠ ".." := by
    rintro rfl
    exact hup hp
  exact ⟨hne hempty, hne hdot, hne hdoubleDot⟩

/-- Addresses leave nothing out of a legible path. -/
theorem Legible.map_remaining {source : String} (h : Legible source) :
    (sourceParts source).map remaining = (sourceParts source).map String.toList :=
  List.map_congr_left fun _ hp => h.remaining_eq hp

instance (source : String) : Decidable (Legible source) :=
  have (part : String) : Decidable (∀ c ∈ part.toList, isLeftOut c = false) :=
    List.decidableBAll _ _
  List.decidableBAll _ _

/-- Where files were added only, the folder is as it was. -/
theorem Uploader.Adds.destination {p : Plan} {u : Uploader} (h : (Uploader.enabled p).Adds u) :
    ∃ q, u = .enabled q ∧ q.destination = p.destination := by
  refine h.keeps (P := fun v => ∃ q, v = .enabled q ∧ q.destination = p.destination) ?_
    ⟨p, rfl, rfl⟩
  rintro v source ⟨q, rfl, hq⟩
  rcases Uploader.add_cases (.enabled q) source with he | ⟨q', _, item, hv, _, _, _, _, he⟩
  · exact ⟨q, he, hq⟩
  · cases hv
    exact ⟨_, he, hq⟩

/-- In a plan to which files were added, every file of a legible source stands below the folder, by
one segment for each part of its source, and no two such files share an address. -/
theorem address_below_folder (container : Container) (folder : String) (online : Bool)
    {u : Uploader} (h : (Uploader.enabled (.empty container folder online)).Adds u) :
    (∀ item ∈ u.items, Legible item.source →
      ∃ d before, (Plan.empty container folder online).destination = .ok d ∧
        d.path = .segments before ∧
        item.url = { d with
          path := .segments (asDirectory before ++ (sourceParts item.source).map fun part =>
            percentEncode inSpecialSegment part.toList) } ∧
        ∀ part ∈ sourceParts item.source,
          let segment := percentEncode inSpecialSegment part.toList
          segment ≠ [] ∧ '/' ∉ segment ∧ isDot segment = false ∧ isDoubleDot segment = false) ∧
    ∀ i ∈ u.items, ∀ j ∈ u.items, Legible i.source → Legible j.source → i.key ≠ j.key →
      i.url.text ≠ j.url.text := by
  have hr := (Uploader.registered_empty container folder online).adds h
  have hplaced : u.Placed := hr.placed
  obtain ⟨p, rfl, hdest⟩ := h.destination
  have hnames {k : Planned} (hk : k ∈ p.items) (hl : Legible k.source) :
      ∀ part ∈ sourceParts k.source, Names part := by
    obtain ⟨relative, hkey, _⟩ := hr.named k hk
    exact fun part hp => hl.names hkey hp
  -- Nothing of a legible part is left out, so its segment is the part in percent encoding.
  have hsegment {k : Planned} (hl : Legible k.source) {part : String}
      (hp : part ∈ sourceParts k.source) :
      segmentOf part = percentEncode inSpecialSegment part.toList := by
    rw [segmentOf, hl.remaining_eq hp]
  refine ⟨fun item hi hl => ?_, fun i hi j hj hil hjl hne he => hne ?_⟩
  · obtain ⟨d, before, hd, hbefore, hu⟩ := Plan.url_eq hplaced hr.named hi (hnames hi hl)
    refine ⟨d, before, hdest.symm.trans hd, hbefore, ?_, fun part hp => ?_⟩
    · rw [hu, List.map_congr_left fun part hp => hsegment hl hp]
    · have hn := hnames hi hl part hp
      rw [← hsegment hl hp]
      exact ⟨hn.segmentOf_ne_nil, slash_not_mem_segmentOf part, hn.isDot_eq_false,
        hn.isDoubleDot_eq_false⟩
  · have hsame := (Plan.url_text_eq_iff hplaced hr.named hi hj (hnames hi hil) (hnames hj hjl)).1 he
    rw [hil.map_remaining, hjl.map_remaining] at hsame
    have hparts := List.map_injective_iff.2 (fun _ _ => String.toList_inj.1) hsame
    rw [(Uploader.eq_iff_sourceParts_eq hr.named hr.distinct hi hj).2 hparts]

/-- Two files that are added one after the other. -/
theorem address_below_folder_two :
    (∀ item ∈ ((Uploader.enabled .sample).add "a b" |>.2.add "c/d").2.items,
      Legible item.source) ∧
    ∀ i ∈ ((Uploader.enabled .sample).add "a b" |>.2.add "c/d").2.items,
      ∀ j ∈ ((Uploader.enabled .sample).add "a b" |>.2.add "c/d").2.items, i.key ≠ j.key →
        i.url.text ≠ j.url.text := by
  have hadds : (Uploader.enabled .sample).Adds
      ((Uploader.enabled .sample).add "a b" |>.2.add "c/d").2 :=
    .tail (.single ⟨_, rfl⟩) ⟨_, rfl⟩
  have hlegible : ∀ item ∈ ((Uploader.enabled .sample).add "a b" |>.2.add "c/d").2.items,
      Legible item.source := by
    decide +kernel
  refine ⟨hlegible, fun i hi j hj => ?_⟩
  exact (address_below_folder _ _ _ hadds).2 i hi j hj (hlegible i hi) (hlegible j hj)

/-- A tab is left out of the address, so that two files meet there; and a part that goes up without
its tab leaves the folder. -/
theorem shared_address :
    ((Uploader.enabled .sample).add "x\ty" |>.2.add "xy" |>.2.add "..\t/z").2.items.map
        (fun item => (item.key, item.url.text)) =
      [("run/x\ty", "https://store/files/run/xy"), ("run/xy", "https://store/files/run/xy"),
        ("run/..\t/z", "https://store/files//z")] := by
  decide +kernel

end Stencil.Upload
