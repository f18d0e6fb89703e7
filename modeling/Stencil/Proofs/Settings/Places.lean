import Stencil.Proofs.Settings.Texts

/-!
# Settings in places of their own

A visit of the settings writes what it comes to back into their places. Every setting holds what is
written in it, and none of the others notices. So what the visited settings hold is what they held,
visited in the order of their declaration, and the settings as a whole are a thing that is known by
its texts.
-/

namespace Stencil.Settings

open Json (Value)

variable {α σ τ : Type}

namespace Setting

/-- The setting holds what is written in it. -/
def Holds : Setting α → Prop
  | .text place => ∀ x a, place.get (place.set x a) = x
  | .flag place => ∀ x a, place.get (place.set x a) = x
  | .texts place => ∀ x a, place.get (place.set x a) = x
  | .named place => ∀ x a, place.get (place.set x a) = x

/-- The texts of a setting are those of the document that holds it. -/
theorem leaves_eq_texts (setting : Setting α) (a : α) :
    setting.leaves a = (setting.value a).texts := by
  have hlist (l : List String) : l = Value.textsItems (l.map Value.text) := by
    induction l with
    | nil => rfl
    | cons t rest ih => exact congrArg (t :: ·) ih
  have hnamed (t : Table String) :
      t.map (·.2) = Value.textsFields (t.map fun e => (e.1, Value.text e.2)) := by
    induction t with
    | nil => rfl
    | cons e rest ih => exact congrArg (e.2 :: ·) ih
  cases setting with
  | text place => rfl
  | flag place => rfl
  | texts place => exact hlist _
  | named place => exact hnamed _

section

variable (visit : String → StateM σ String)

/-- Visiting texts as the items of a document returns what visiting them returns. -/
theorem mapTextsItems_text (l : List String) (s : σ) :
    ((Value.mapTextsItems visit (l.map .text)).run s).1 =
      ((mapList visit l).run s).1.map Value.text := by
  induction l generalizing s with
  | nil => rfl
  | cons t rest ih => exact congrArg (Value.text ((visit t).run s).1 :: ·) (ih ((visit t).run s).2)

/-- Visiting named texts as the fields of a document returns what visiting them returns. -/
theorem mapTextsFields_text (t : Table String) (s : σ) :
    ((Value.mapTextsFields visit (t.map fun e => (e.1, .text e.2))).run s).1 =
      ((mapNamed visit t).run s).1.map fun e => (e.1, Value.text e.2) := by
  induction t generalizing s with
  | nil => rfl
  | cons e rest ih =>
    exact congrArg ((e.1, Value.text ((visit e.2).run s).1) :: ·) (ih ((visit e.2).run s).2)

/-- A visited setting is what the visited document of it holds. -/
theorem Holds.value_mapTexts {setting : Setting α} (h : setting.Holds) (a : α) (s : σ) :
    setting.value ((setting.mapTexts visit a).run s).1 =
      (((setting.value a).mapTexts visit).run s).1 := by
  cases setting with
  | text place => exact congrArg Value.text (h _ a)
  | flag place => rfl
  | texts place =>
    exact congrArg Value.list ((congrArg (List.map Value.text) (h _ a)).trans
      (mapTextsItems_text visit _ s).symm)
  | named place =>
    exact congrArg Value.table ((congrArg (List.map fun e => (e.1, Value.text e.2)) (h _ a)).trans
      (mapTextsFields_text visit _ s).symm)

/-- A setting is visited as the document that it holds. -/
theorem state_eq_state_value (setting : Setting α) (a : α) (s : σ) :
    ((setting.mapTexts visit a).run s).2 = (((setting.value a).mapTexts visit).run s).2 := by
  rw [state_mapTexts, Value.state_mapTexts, leaves_eq_texts]

end

/-- Visits that return the same for the texts of a setting write the same in its place. -/
theorem output_mapTexts {visit : String → StateM σ String} {visit' : String → StateM τ String}
    (setting : Setting α) (a : α) {s : σ} {s' : τ}
    (h : outputs visit (setting.leaves a) s = outputs visit' (setting.leaves a) s') :
    ((setting.mapTexts visit a).run s).1 = ((setting.mapTexts visit' a).run s').1 := by
  have hlist (l : List String) (s : σ) (s' : τ) (h : outputs visit l s = outputs visit' l s') :
      ((mapList visit l).run s).1 = ((mapList visit' l).run s').1 := by
    induction l generalizing s s' with
    | nil => rfl
    | cons t rest ih =>
      obtain ⟨hhead, hrest⟩ := List.cons.inj h
      exact congr (congrArg List.cons hhead) (ih _ _ hrest)
  have hnamed (t : Table String) (s : σ) (s' : τ)
      (h : outputs visit (t.map (·.2)) s = outputs visit' (t.map (·.2)) s') :
      ((mapNamed visit t).run s).1 = ((mapNamed visit' t).run s').1 := by
    induction t generalizing s s' with
    | nil => rfl
    | cons e rest ih =>
      obtain ⟨hhead, hrest⟩ := List.cons.inj h
      exact congr (congrArg (fun x l => (e.1, x) :: l) hhead) (ih _ _ hrest)
  cases setting with
  | text place => exact congrArg (fun x => place.set x a) (List.cons.inj h).1
  | flag place => rfl
  | texts place => exact congrArg (fun x => place.set x a) (hlist _ s s' h)
  | named place => exact congrArg (fun x => place.set x a) (hnamed _ s s' h)

end Setting

/-! ## Some settings -/

/-- What some settings hold, in the order of their declaration. -/
def settingsValues (settings : List (String × Setting α)) (a : α) : List Value :=
  settings.map fun e => e.2.value a

/-- The texts of settings are those of the documents that they hold. -/
theorem settingsLeaves_eq_texts (settings : List (String × Setting α)) (a : α) :
    settingsLeaves settings a = Value.textsItems (settingsValues settings a) := by
  induction settings with
  | nil => rfl
  | cons e rest ih =>
    rw [settingsLeaves, List.flatMap_cons, ← settingsLeaves, ih, Setting.leaves_eq_texts]
    rfl

/-- Every setting holds what is written in it, and this changes neither what the later ones hold
nor what `earlier` reads, which includes the earlier ones. -/
def SeparateFrom (earlier : α → List Value) : List (String × Setting α) → Prop
  | [] => True
  | e :: rest =>
    e.2.Holds ∧ e.2.Keeps earlier ∧ e.2.Keeps (settingsValues rest) ∧
      SeparateFrom (fun a => e.2.value a :: earlier a) rest

/-- Visited settings hold what they held, visited one after the other. -/
theorem SeparateFrom.values_mapSettings (visit : String → StateM σ String)
    {settings : List (String × Setting α)} {earlier : α → List Value}
    (h : SeparateFrom earlier settings) (a : α) (s : σ) :
    earlier ((mapSettings visit settings a).run s).1 = earlier a ∧
      settingsValues settings ((mapSettings visit settings a).run s).1 =
        ((Value.mapTextsItems visit (settingsValues settings a)).run s).1 := by
  induction settings generalizing earlier a s with
  | nil => exact ⟨rfl, rfl⟩
  | cons e rest ih =>
    obtain ⟨hholds, hearlier, hlater, hrest⟩ := h
    obtain ⟨hkept, hvalues⟩ :=
      ih hrest ((e.2.mapTexts visit a).run s).1 ((e.2.mapTexts visit a).run s).2
    obtain ⟨hvalue, hkept⟩ := List.cons.inj hkept
    rw [hearlier.read_mapTexts] at hkept
    rw [hholds.value_mapTexts] at hvalue
    rw [hlater.read_mapTexts] at hvalues
    refine ⟨hkept, congr (congrArg List.cons hvalue) (hvalues.trans ?_)⟩
    rw [Setting.state_eq_state_value]
    rfl

/-- Visits that return the same for the texts of some settings write the same in their places. -/
theorem output_mapSettings {visit : String → StateM σ String} {visit' : String → StateM τ String}
    {settings : List (String × Setting α)} (h : Apart settings) (a : α) {s : σ} {s' : τ}
    (ho : outputs visit (settingsLeaves settings a) s =
      outputs visit' (settingsLeaves settings a) s') :
    ((mapSettings visit settings a).run s).1 = ((mapSettings visit' settings a).run s').1 := by
  induction settings generalizing a s s' with
  | nil => rfl
  | cons e rest ih =>
    obtain ⟨hkeeps, hrest⟩ := h
    rw [settingsLeaves, List.flatMap_cons, ← settingsLeaves] at ho
    obtain ⟨hhead, htail⟩ := outputs_append_inj ho
    have hsame := e.2.output_mapTexts a hhead
    rw [← Setting.state_mapTexts, ← Setting.state_mapTexts, ← hkeeps.read_mapTexts visit a s]
      at htail
    refine (ih hrest _ htail).trans ?_
    rw [hsame]
    rfl

namespace Config

/-- Every setting has a place of its own. -/
theorem separate_parts : SeparateFrom (fun _ => []) (parts.flatMap settingsOf) := by
  simp only [parts, settingsOf, within, Storage.settings, Identity.settings, Machine.settings,
    Image.settings, Gallery.settings, Builder.settings, List.flatMap_cons, List.flatMap_nil,
    List.map_cons, List.map_nil, List.cons_append, List.nil_append, List.append_nil,
    Setting.inside]
  -- Every place is a field of its own: each setting's step holds by computation.
  repeat' first
    | exact trivial
    | refine ⟨fun _ _ => rfl, fun _ _ => rfl, fun _ _ => rfl, ?_⟩

instance : FaithfulTexts Config where
  texts_mapTexts visit c s := by
    have h := (separate_parts.values_mapSettings visit c s).2
    rw [mapTexts_eq_mapSettings]
    change settingsLeaves _ _ = outputs visit (settingsLeaves _ c) s
    rw [settingsLeaves_eq_texts, settingsLeaves_eq_texts, h]
    exact Value.texts_mapTextsItems visit _ s
  output_mapTexts {σ τ visit visit' c s s'} h := by
    rw [mapTexts_eq_mapSettings, mapTexts_eq_mapSettings]
    exact output_mapSettings apart_parts c h

end Config

end Stencil.Settings
