import Stencil.Proofs.Texts
import Stencil.Settings.Config

/-!
# The texts of the settings

The visit of the settings goes through the settings as they are declared, one after the other, and
writes each of them back before it goes on to the next: none is left out, and none comes twice. No
setting shares its place with another one, so the texts that the visit comes to are the texts before
the visit.
-/

namespace Stencil.Settings

variable {α σ : Type}

/-! ## The declared visit -/

section

variable {m : Type → Type} [Monad m] (visit : String → m String)

/-- Visits every text of the setting. -/
def Setting.mapTexts (a : α) : Setting α → m α
  | .text place => do return place.set (← visit (place.get a)) a
  | .flag _ => return a
  | .texts place => do return place.set (← mapList visit (place.get a)) a
  | .named place => do return place.set (← mapNamed visit (place.get a)) a

/-- Visits every text of some settings. -/
def mapSettings : List (String × Setting α) → α → m α
  | [], a => return a
  | (_, s) :: rest, a => do mapSettings rest (← s.mapTexts visit a)

/-- The settings of a part under its name. -/
def settingsOf : String × Part α → List (String × Setting α)
  | (name, .single setting) => [(name, setting)]
  | (_, .group _ settings) => settings

variable [LawfulMonad m]

/-- Settings that follow each other are visited one after the other. -/
theorem mapSettings_append (before after : List (String × Setting α)) (a : α) :
    mapSettings visit (before ++ after) a =
      mapSettings visit before a >>= mapSettings visit after := by
  induction before generalizing a with
  | nil => simp [mapSettings]
  | cons e rest ih => simp [mapSettings, ih]

/-- Visiting a setting in a place is visiting it in what the place holds. -/
theorem Setting.mapTexts_inside {β : Type} (place : Lens α β) (setting : Setting β) (a : α)
    (hset : ∀ a, place.set (place.get a) a = a) :
    (setting.inside place).mapTexts visit a =
      (place.set · a) <$> setting.mapTexts visit (place.get a) := by
  cases setting <;> simp [inside, mapTexts, Lens.inside, hset]

/-- Visiting the settings of a group in its place is visiting the group. -/
theorem mapSettings_within {place : Lens Config α} (h : place.Lawful)
    (settings : List (String × Setting α)) (c : Config) :
    mapSettings visit (Config.within place settings) c =
      (place.set · c) <$> mapSettings visit settings (place.get c) := by
  induction settings generalizing c with
  | nil => simp [Config.within, mapSettings, h.set_get]
  | cons e rest ih =>
    rw [Config.within, List.map_cons, mapSettings, ← Config.within]
    simp [ih, Setting.mapTexts_inside visit place e.2 c h.set_get, mapSettings, h.get_set,
      h.set_set]

end

namespace Setting

/-- The texts of the setting, in the order in which they are visited. -/
def leaves : Setting α → α → List String
  | .text place, a => [place.get a]
  | .flag _, _ => []
  | .texts place, a => place.get a
  | .named place, a => (place.get a).map (·.2)

/-- What is written in the setting does not change what `read` reads. -/
def Keeps {β : Type} (read : α → β) : Setting α → Prop
  | .text place => ∀ x a, read (place.set x a) = read a
  | .flag place => ∀ x a, read (place.set x a) = read a
  | .texts place => ∀ x a, read (place.set x a) = read a
  | .named place => ∀ x a, read (place.set x a) = read a

variable (visit : String → StateM σ String)

/-- Visiting a list comes to its texts one after the other. -/
theorem state_mapList (texts : List String) (s : σ) :
    ((mapList visit texts).run s).2 = texts.foldl (fun s t => ((visit t).run s).2) s := by
  induction texts generalizing s with
  | nil => rfl
  | cons t rest ih => exact ih _

/-- Visiting named texts comes to them one after the other. -/
theorem state_mapNamed (texts : Table String) (s : σ) :
    ((mapNamed visit texts).run s).2 =
      (texts.map (·.2)).foldl (fun s t => ((visit t).run s).2) s := by
  induction texts generalizing s with
  | nil => rfl
  | cons e rest ih => exact ih _

/-- Visiting a setting comes to its texts one after the other. -/
theorem state_mapTexts (setting : Setting α) (a : α) (s : σ) :
    ((setting.mapTexts visit a).run s).2 =
      (setting.leaves a).foldl (fun s t => ((visit t).run s).2) s := by
  cases setting with
  | text place => rfl
  | flag place => rfl
  | texts place => exact state_mapList visit (place.get a) s
  | named place => exact state_mapNamed visit (place.get a) s

/-- What does not read a setting is the same after visiting it. -/
theorem Keeps.read_mapTexts {β : Type} {read : α → β} {setting : Setting α}
    (h : setting.Keeps read) (a : α) (s : σ) :
    read ((setting.mapTexts visit a).run s).1 = read a := by
  cases setting with
  | text place => exact h _ a
  | flag place => rfl
  | texts place => exact h _ a
  | named place => exact h _ a

end Setting

/-- The texts of some settings, in the order in which they are visited. -/
def settingsLeaves (settings : List (String × Setting α)) (a : α) : List String :=
  settings.flatMap fun e => e.2.leaves a

/-- What is written in a setting does not change the texts of the later ones. -/
def Apart : List (String × Setting α) → Prop
  | [] => True
  | e :: rest => e.2.Keeps (settingsLeaves rest) ∧ Apart rest

/-- Visiting settings comes to the texts that they hold before the visit. -/
theorem state_mapSettings (visit : String → StateM σ String)
    {settings : List (String × Setting α)} (h : Apart settings) (a : α) (s : σ) :
    ((mapSettings visit settings a).run s).2 =
      (settingsLeaves settings a).foldl (fun s t => ((visit t).run s).2) s := by
  induction settings generalizing a s with
  | nil => rfl
  | cons e rest ih =>
    obtain ⟨hkeeps, hrest⟩ := h
    have hleaves := hkeeps.read_mapTexts visit a s
    rw [settingsLeaves, List.flatMap_cons, List.foldl_append, ← Setting.state_mapTexts]
    rw [settingsLeaves, settingsLeaves] at hleaves
    rw [← hleaves]
    exact ih hrest _ _

/-! ## All settings -/

section

variable {m : Type → Type} [Monad m] [LawfulMonad m] (visit : String → m String)

theorem Storage.mapTexts_eq_mapSettings (a : Storage) :
    a.mapTexts visit = mapSettings visit settings a := by
  simp [Storage.mapTexts, settings, mapSettings, Setting.mapTexts]

theorem Identity.mapTexts_eq_mapSettings (a : Identity) :
    a.mapTexts visit = mapSettings visit settings a := by
  simp [Identity.mapTexts, settings, mapSettings, Setting.mapTexts]

theorem Machine.mapTexts_eq_mapSettings (a : Machine) :
    a.mapTexts visit = mapSettings visit settings a := by
  simp [Machine.mapTexts, settings, mapSettings, Setting.mapTexts]

theorem Image.mapTexts_eq_mapSettings (a : Image) :
    a.mapTexts visit = mapSettings visit settings a := by
  simp [Image.mapTexts, settings, mapSettings, Setting.mapTexts]

theorem Gallery.mapTexts_eq_mapSettings (a : Gallery) :
    a.mapTexts visit = mapSettings visit settings a := by
  simp [Gallery.mapTexts, settings, mapSettings, Setting.mapTexts]

theorem Builder.mapTexts_eq_mapSettings (a : Builder) :
    a.mapTexts visit = mapSettings visit settings a := by
  simp [Builder.mapTexts, settings, mapSettings, Setting.mapTexts]

end

namespace Config

/-- Every setting that is declared is visited, once and in its turn. -/
theorem mapTexts_eq_mapSettings {m : Type → Type} [Monad m] [LawfulMonad m]
    (visit : String → m String) (c : Config) :
    Texts.mapTexts visit c = mapSettings visit (parts.flatMap settingsOf) c := by
  have hstorage (c : Config) : mapSettings visit (within storagePlace Storage.settings) c =
      (fun x => { c with storage := x }) <$> c.storage.mapTexts visit := by
    rw [Storage.mapTexts_eq_mapSettings]
    exact mapSettings_within visit ⟨fun _ _ => rfl, fun _ => rfl, fun _ _ _ => rfl⟩ _ c
  have hidentity (c : Config) : mapSettings visit (within identityPlace Identity.settings) c =
      (fun x => { c with identity := x }) <$> c.identity.mapTexts visit := by
    rw [Identity.mapTexts_eq_mapSettings]
    exact mapSettings_within visit ⟨fun _ _ => rfl, fun _ => rfl, fun _ _ _ => rfl⟩ _ c
  have hmachine (c : Config) : mapSettings visit (within machinePlace Machine.settings) c =
      (fun x => { c with machine := x }) <$> c.machine.mapTexts visit := by
    rw [Machine.mapTexts_eq_mapSettings]
    exact mapSettings_within visit ⟨fun _ _ => rfl, fun _ => rfl, fun _ _ _ => rfl⟩ _ c
  have himage (c : Config) : mapSettings visit (within imagePlace Image.settings) c =
      (fun x => { c with image := x }) <$> c.image.mapTexts visit := by
    rw [Image.mapTexts_eq_mapSettings]
    exact mapSettings_within visit ⟨fun _ _ => rfl, fun _ => rfl, fun _ _ _ => rfl⟩ _ c
  have hgallery (c : Config) : mapSettings visit (within galleryPlace Gallery.settings) c =
      (fun x => { c with gallery := x }) <$> c.gallery.mapTexts visit := by
    rw [Gallery.mapTexts_eq_mapSettings]
    exact mapSettings_within visit ⟨fun _ _ => rfl, fun _ => rfl, fun _ _ _ => rfl⟩ _ c
  have hbuilder (c : Config) : mapSettings visit (within builderPlace Builder.settings) c =
      (fun x => { c with builder := x }) <$> c.builder.mapTexts visit := by
    rw [Builder.mapTexts_eq_mapSettings]
    exact mapSettings_within visit ⟨fun _ _ => rfl, fun _ => rfl, fun _ _ _ => rfl⟩ _ c
  -- The parts are visited one after the other, and each group in its own place.
  change c.mapTexts visit = _
  simp [mapTexts, parts, settingsOf, mapSettings_append, mapSettings, Setting.mapTexts, hstorage,
    hidentity, hmachine, himage, hgallery, hbuilder]

/-- No two settings share a place. -/
theorem apart_parts : Apart (parts.flatMap settingsOf) := by
  simp only [parts, settingsOf, within, Storage.settings, Identity.settings, Machine.settings,
    Image.settings, Gallery.settings, Builder.settings, List.flatMap_cons, List.flatMap_nil,
    List.map_cons, List.map_nil, List.cons_append, List.nil_append, List.append_nil,
    Setting.inside]
  -- Every place is a field of its own: each setting's step holds by computation.
  repeat' first
    | exact trivial
    | refine ⟨fun _ _ => rfl, ?_⟩

instance : LawfulTexts Config where
  texts := settingsLeaves (parts.flatMap settingsOf)
  state_mapTexts visit c s := by
    rw [← state_mapSettings visit apart_parts, ← mapTexts_eq_mapSettings]

end Config

end Stencil.Settings
