import Stencil.Proofs.Settings.Paths
import Stencil.Proofs.Text.Casing

/-!
# Paths in any letter case

No two names of settings that stand in one place have the same letters. So the path of a setting
finds it however its letters are written. Names of variables may have the same letters, but each of
them is found as it is written.
-/

namespace Stencil.Settings

open Json (Value)

/-! ## Fields in any letter case -/

/-- Names that differ in more than the case of their letters. -/
def Distinguished (names : List String) : Prop :=
  ∀ n ∈ names, ∀ m ∈ names, Text.sameLetters n m = true → n = m

/-- A field is found under any name with the same letters, if no other field has these letters. -/
theorem findField_of_sameLetters {fields : Table Value} {name name' : String} {v : Value}
    (hd : Distinguished fields.names) (hn : fields.names.Nodup)
    (h : Table.get? name fields = some v) (hs : Text.sameLetters name' name = true) :
    findField name' fields = some v := by
  -- Whatever is found by its letters is the field of that name.
  have hsame {n : String} {w : Value} (he : (n, w) ∈ fields)
      (hl : Text.sameLetters n name = true) : w = v := by
    have hname : n = name :=
      hd _ (List.mem_map_of_mem he) _ (List.mem_map_of_mem (Table.mem_of_get? h)) hl
    have hget := Table.get?_of_mem hn he
    rw [hname, h] at hget
    exact (Option.some.inj hget).symm
  unfold findField
  split
  · rename_i w hw
    rw [hsame (Table.mem_of_get? hw) hs]
  · cases hfind : fields.find? fun e => Text.sameLetters e.1 name' with
    | none =>
      have hnot := List.find?_eq_none.1 hfind _ (Table.mem_of_get? h)
      exact absurd (Text.sameLetters_symm hs) hnot
    | some e =>
      have hl : Text.sameLetters e.1 name' = true := by simpa using List.find?_some hfind
      rw [Option.map_some, hsame (List.mem_of_find?_eq_some hfind) (Text.sameLetters_trans hl hs)]

/-- What is made of things under distinguished names is found by their letters. -/
theorem findField_ofList_map {α : Type} (make : α → Value) {entries : List (String × α)}
    (hn : (entries.map (·.1)).Nodup) (hd : Distinguished (entries.map (·.1))) {e : String × α}
    (h : e ∈ entries) {name : String} (hs : Text.sameLetters name e.1 = true) :
    findField name (Table.ofList (entries.map fun e => (e.1, make e.2))) = some (make e.2) := by
  have hmap : (entries.map fun e => (e.1, make e.2)).map (·.1) = entries.map (·.1) :=
    List.map_map
  have hperm := (Table.perm_ofList (hmap ▸ hn)).map (·.1)
  rw [hmap] at hperm
  refine findField_of_sameLetters (fun n hn' m hm' => ?_) (hperm.nodup_iff.2 hn)
    (Table.get?_ofList_map make hn h) hs
  exact hd n (hperm.mem_iff.1 hn') m (hperm.mem_iff.1 hm')

/-! ## Scalar settings -/

/-- What a scalar setting holds, as a text. -/
def Setting.scalar? {α : Type} (a : α) : Setting α → Option String
  | .text place => some (place.get a)
  | .flag place => some (toString (place.get a))
  | .texts _ => none
  | .named _ => none

/-- What a scalar setting holds is the scalar that stands for it in a document. -/
theorem Setting.scalarText?_value {α : Type} {a : α} {setting : Setting α} {t : String}
    (h : setting.scalar? a = some t) : scalarText? (setting.value a) = some t := by
  cases setting with
  | text place => exact h
  | flag place => exact h
  | texts place => cases h
  | named place => cases h

namespace Config

/-- Settings of a group, under their paths. -/
def under (group : String) (scalars : List (String × String)) : List (String × String) :=
  scalars.map fun e => (group ++ "." ++ e.1, e.2)

/-- The scalar settings: the path of each, and what it holds as a text. -/
def scalars (c : Config) : List (String × String) :=
  [("id", c.id), ("tenantId", c.tenantId), ("clientId", c.clientId),
      ("subscriptionId", c.subscriptionId), ("hashNS", c.hashNS)] ++
    under "storage"
      [("location", c.storage.location), ("resourceGroup", c.storage.resourceGroup),
        ("accountName", c.storage.accountName), ("accountId", c.storage.accountId),
        ("containerName", c.storage.containerName), ("containerId", c.storage.containerId),
        ("prefix", c.storage.filePrefix), ("blobEndpoint", c.storage.blobEndpoint)] ++
    under "identity"
      [("location", c.identity.location), ("resourceGroup", c.identity.resourceGroup),
        ("identityName", c.identity.identityName), ("identityId", c.identity.identityId)] ++
    under "machine"
      [("resourceGroup", c.machine.resourceGroup), ("machineName", c.machine.machineName),
        ("machineId", c.machine.machineId)] ++
    under "image"
      [("location", c.image.location), ("resourceGroup", c.image.resourceGroup),
        ("imageName", c.image.imageName), ("imageId", c.image.imageId),
        ("skipSetup", toString c.image.skipSetup), ("skipCreate", toString c.image.skipCreate)] ++
    under "gallery"
      [("location", c.gallery.location), ("resourceGroup", c.gallery.resourceGroup),
        ("galleryName", c.gallery.galleryName), ("galleryId", c.gallery.galleryId),
        ("galleryImageName", c.gallery.galleryImageName),
        ("galleryImageId", c.gallery.galleryImageId), ("publisher", c.gallery.publisher),
        ("offer", c.gallery.offer), ("sku", c.gallery.sku), ("osState", c.gallery.osState),
        ("osType", c.gallery.osType), ("hyperVGeneration", c.gallery.hyperVGeneration),
        ("excludeFromLatest", toString c.gallery.excludeFromLatest),
        ("storageAccountType", c.gallery.storageAccountType),
        ("skipSetup", toString c.gallery.skipSetup),
        ("skipCreate", toString c.gallery.skipCreate)] ++
    under "builder"
      [("location", c.builder.location), ("resourceGroup", c.builder.resourceGroup),
        ("builderName", c.builder.builderName), ("builderId", c.builder.builderId)]

/-- The scalar settings that are declared in a part. -/
def scalarsOf (c : Config) : String × Part Config → List (String × String)
  | (name, .single setting) => (setting.scalar? c).toList.map (name, ·)
  | (group, .group _ settings) =>
    under group (settings.filterMap fun e => (e.2.scalar? c).map (e.1, ·))

/-- The scalar settings are those that are declared. -/
theorem scalars_eq_flatMap (c : Config) : c.scalars = parts.flatMap (scalarsOf c) := rfl

/-- The parts of the settings differ in more than the case of their names. -/
theorem distinguished_parts : Distinguished (parts.map (·.1)) := by
  unfold Distinguished
  decide +kernel

/-- The settings of a part differ in more than the case of their names. -/
theorem distinguished_settings : ∀ e ∈ parts, Distinguished ((settingsOf e).map (·.1)) := by
  unfold Distinguished
  decide +kernel

/-- A part is found by the letters of its name. -/
theorem findField_part_of_sameLetters {e : String × Part Config} (h : e ∈ parts) {name : String}
    (hs : Text.sameLetters name e.1 = true) (c : Config) :
    findField name (Table.ofList (parts.map fun e => (e.1, e.2.value c))) = some (e.2.value c) :=
  findField_ofList_map (Part.value c) names_parts.1 distinguished_parts h hs

/-- A path that leads to a scalar finds its text. -/
theorem atPath_eq {c : Config} {path t : String} {v : Value}
    (h : follow path (Text.splitString '.' path) c.value = .ok v) (ht : scalarText? v = some t) :
    c.atPath path = .ok t := by
  rw [atPath, h]
  dsimp only
  rw [ht]

/-- A path of the letters of a part goes on in the part. -/
theorem follow_part {e : String × Part Config} (h : e ∈ parts) {name : String}
    (hs : Text.sameLetters name e.1 = true) (c : Config) (path : String) (rest : List String) :
    follow path (name :: rest) c.value = follow path rest (e.2.value c) := by
  rw [value, partsValue, follow, findField_part_of_sameLetters h hs]

/-- A scalar setting is found by the letters of its path. -/
theorem atPath_of_mem_scalars {c : Config} {e : String × String} (h : e ∈ c.scalars)
    {path : String} (hs : Text.sameLetters path e.1 = true) : c.atPath path = .ok e.2 := by
  -- The pieces of the path are the names in some case, one for a setting, two for one in a group.
  have hpieces := Text.splitString_sameLetters hs
  rw [scalars_eq_flatMap] at h
  obtain ⟨⟨name, part⟩, hpart, he⟩ := List.mem_flatMap.1 h
  cases part with
  | single setting =>
    obtain ⟨t, ht, rfl⟩ := List.mem_map.1 he
    rw [Text.splitString_of_not_mem (names_parts.2 _ hpart), List.forall₂_cons_right_iff] at hpieces
    obtain ⟨name', rest, hname, hnil, hsplit⟩ := hpieces
    obtain rfl := List.forall₂_nil_right_iff.1 hnil
    refine atPath_eq ?_ (Setting.scalarText?_value (Option.mem_toList.1 ht))
    rw [hsplit, follow_part hpart hname]
    rfl
  | group title settings =>
    obtain ⟨inner, hinner, rfl⟩ := List.mem_map.1 he
    obtain ⟨⟨field, setting⟩, hmem, hscalar⟩ := List.mem_filterMap.1 hinner
    obtain ⟨t, ht, rfl⟩ := Option.map_eq_some_iff.1 hscalar
    obtain ⟨hnodup, hdots⟩ := names_settings _ hpart
    rw [Text.splitString_path (names_parts.2 _ hpart) (hdots _ hmem),
      List.forall₂_cons_right_iff] at hpieces
    obtain ⟨name', pieces, hname, hrest, hsplit⟩ := hpieces
    obtain ⟨field', rest, hfield, hnil, rfl⟩ := List.forall₂_cons_right_iff.1 hrest
    obtain rfl := List.forall₂_nil_right_iff.1 hnil
    have hfound : findField field' (Table.ofList (settings.map fun e => (e.1, e.2.value c))) =
        some (setting.value c) :=
      findField_ofList_map (Setting.value c) hnodup (distinguished_settings _ hpart) hmem hfield
    refine atPath_eq ?_ (Setting.scalarText?_value ht)
    rw [hsplit, follow_part hpart hname]
    simp only [Part.value, settingsValue, follow]
    rw [hfound]

/-- A variable is found by its name, behind `variables` in any letter case. -/
theorem atPath_variable {c : Config} {word name t : String}
    (hs : Text.sameLetters word "variables" = true) (hdot : '.' ∉ name.toList)
    (h : Table.get? name c.values = some t) : c.atPath (word ++ "." ++ name) = .ok t := by
  have hpart : ("variables",
      .single (.named ⟨(·.values), fun x a => { a with values := x }⟩)) ∈ parts := by
    simp [parts]
  have hfound : Table.get? name (c.values.map fun e => (e.1, Value.text e.2)) = some (.text t) := by
    rw [Table.get?_map (fun _ => Value.text), h]
    rfl
  have hword : '.' ∉ word.toList := fun hmem =>
    absurd (Text.dot_mem_of_sameLetters hs hmem) (by decide)
  refine atPath_eq (v := .text t) ?_ rfl
  rw [Text.splitString_path hword hdot, follow_part hpart hs]
  simp only [Part.value, Setting.value, follow]
  rw [findField_of_get? hfound]

/-- Every scalar setting is found by its path in any letter case, and every variable without dots
in its name by `variables` in any letter case and its name as it is written, whatever the names of
the other variables are. -/
theorem found_in_any_case (c : Config) :
    (∀ e ∈ c.scalars, ∀ path, Text.sameLetters path e.1 = true → c.atPath path = .ok e.2) ∧
      ∀ env word name, Text.sameLetters word "variables" = true → '.' ∉ name.toList →
        name ∈ c.values.names → ∃ t, c.lookup env .values name = .ok t ∧
          c.atPath (word ++ "." ++ name) = .ok t := by
  refine ⟨fun e he path => atPath_of_mem_scalars he, fun env word name hs hdot hname => ?_⟩
  obtain ⟨t, ht⟩ := Table.exists_get?_of_mem hname
  exact ⟨t, by rw [lookup, ht], atPath_variable hs hdot ht⟩

/-- Two variables whose names have the same letters, and a flag of the gallery. -/
def similar : Config :=
  { values := [("NAME", "upper"), ("name", "lower")], gallery := { excludeFromLatest := true } }

/-- A flag is found in another case, and a variable whose name has the letters of another one's is
found by its own name. -/
theorem found_in_any_case_similar :
    ("gallery.excludeFromLatest", "true") ∈ similar.scalars ∧
      similar.atPath "GALLERY.excludefromlatest" = .ok "true" ∧
      "name" ∈ similar.values.names ∧
      ∃ t, similar.lookup [] .values "name" = .ok t ∧
        similar.atPath ("Variables" ++ "." ++ "name") = .ok t := by
  have hflag : ("gallery.excludeFromLatest", "true") ∈ similar.scalars := by decide +kernel
  have hname : "name" ∈ similar.values.names := by decide
  refine ⟨hflag, ?_, hname, ?_⟩
  · exact (found_in_any_case similar).1 _ hflag _ (by decide)
  · exact (found_in_any_case similar).2 [] "Variables" "name" (by decide) (by decide) hname

end Config

end Stencil.Settings
