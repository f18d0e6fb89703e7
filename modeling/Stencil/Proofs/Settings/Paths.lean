import Stencil.Proofs.Json.Reordering
import Stencil.Proofs.Settings.Places
import Stencil.Proofs.Table
import Stencil.Proofs.Text.Split
import Stencil.Settings.Lookup

/-!
# Texts at paths

`HasText` says which text a setting holds that is reached by its own path: the name of a setting,
the names of a group and of a setting in it, or `variables` and a name without dots. Looking the
path up finds it, and a visit of the settings that returns a value for each text puts there the
value of the text that was there.
-/

namespace Stencil

namespace Text

/-- A text without separators is its only piece. -/
theorem splitString_of_not_mem {separator : Char} {s : String} (h : separator ∉ s.toList) :
    splitString separator s = [s] := by
  rw [splitString, split_of_not_mem h, List.map_singleton, String.ofList_toList]

/-- A path of two names is split into them. -/
theorem splitString_path {first second : String} (h : '.' ∉ first.toList)
    (h' : '.' ∉ second.toList) : splitString '.' (first ++ "." ++ second) = [first, second] := by
  have hcs : (first ++ "." ++ second).toList = first.toList ++ '.' :: second.toList := by simp
  rw [splitString, hcs, split_append_cons, split_of_not_mem h, split_of_not_mem h']
  simp

end Text

namespace Settings

open Json (Value)

/-- A field is found under its own name. -/
theorem findField_of_get? {name : String} {fields : Table Value} {v : Value}
    (h : Table.get? name fields = some v) : findField name fields = some v := by
  rw [findField, h]

namespace Config

/-- The settings hold a text that is reached by a path. -/
inductive HasText (c : Config) : String → String → Prop
  | single {name place} : (name, .single (.text place)) ∈ parts → HasText c name (place.get c)
  | inner {group title settings name place} : (group, .group title settings) ∈ parts →
      (name, .text place) ∈ settings → HasText c (group ++ "." ++ name) (place.get c)
  | named {name t} : Table.get? name c.values = some t → '.' ∉ name.toList →
      HasText c ("variables" ++ "." ++ name) t

/-- The names of all parts differ and hold no dots. -/
theorem names_parts :
    (parts.map (·.1)).Nodup ∧ ∀ e ∈ parts, '.' ∉ e.1.toList := by
  decide +kernel

/-- The names of all settings of a part differ and hold no dots. -/
theorem names_settings : ∀ e ∈ parts, ((settingsOf e).map (·.1)).Nodup ∧
    ∀ e' ∈ settingsOf e, '.' ∉ e'.1.toList := by
  decide +kernel

/-- A part is found under its name. -/
theorem findField_part {e : String × Part Config} (h : e ∈ parts) (c : Config) :
    findField e.1 (Table.ofList (parts.map fun e => (e.1, e.2.value c))) = some (e.2.value c) :=
  findField_of_get? (Table.get?_ofList_map (Part.value c) names_parts.1 h)

/-- Looking a path up finds the text that the settings hold there. -/
theorem HasText.follow_eq {c : Config} {path t : String} (h : c.HasText path t) :
    follow path (Text.splitString '.' path) c.value = .ok (.text t) := by
  cases h with
  | single hmem =>
    rw [Text.splitString_of_not_mem (names_parts.2 _ hmem), value, partsValue, follow,
      findField_part hmem]
    rfl
  | @inner group title settings name place hgroup hmem =>
    obtain ⟨hnodup, hdots⟩ := names_settings _ hgroup
    have hfound : findField name (Table.ofList (settings.map fun e => (e.1, e.2.value c))) =
        some (.text (place.get c)) :=
      findField_of_get? (Table.get?_ofList_map (Setting.value c) hnodup hmem)
    rw [Text.splitString_path (names_parts.2 _ hgroup) (hdots _ hmem), value, partsValue, follow,
      findField_part hgroup]
    simp only [Part.value, settingsValue, follow]
    rw [hfound]
  -- A variable is found under its name among those of the table, which is itself a setting.
  | @named name t hget hdot =>
    have hmem : ("variables", .single (.named ⟨(·.values), fun x a => { a with values := x }⟩)) ∈
        parts := by simp [parts]
    have hfound : Table.get? name (c.values.map fun e => (e.1, Value.text e.2)) =
        some (.text t) := by
      rw [Table.get?_map (fun _ => Value.text), hget]
      rfl
    rw [Text.splitString_path (by decide) hdot, value, partsValue, follow, findField_part hmem]
    simp only [Part.value, Setting.value, follow]
    rw [findField_of_get? hfound]

/-- A text that the settings hold is found at its path. -/
theorem HasText.atPath_eq {c : Config} {path t : String} (h : c.HasText path t) :
    c.atPath path = .ok t := by
  rw [atPath, h.follow_eq]
  rfl

/-- A setting that is a part by itself is one of the settings. -/
theorem mem_of_single {name : String} {setting : Setting Config}
    (h : (name, .single setting) ∈ parts) : (name, setting) ∈ parts.flatMap settingsOf :=
  List.mem_flatMap.2 ⟨_, h, List.mem_singleton_self _⟩

/-- A setting of a part is one of the settings. -/
theorem mem_of_group {group title : String} {settings : List (String × Setting Config)}
    {e : String × Setting Config} (h : (group, .group title settings) ∈ parts)
    (he : e ∈ settings) : e ∈ parts.flatMap settingsOf :=
  List.mem_flatMap.2 ⟨_, h, he⟩

/-- The variables are a part of the settings. -/
theorem mem_values : ("variables", .named ⟨(·.values), fun x a => { a with values := x }⟩) ∈
    parts.flatMap settingsOf := by
  simp [parts, settingsOf]

/-- The variables are among the texts of the settings. -/
theorem mem_texts_of_values {c : Config} {name t : String}
    (h : Table.get? name c.values = some t) : t ∈ LawfulTexts.texts c := by
  exact List.mem_flatMap.2 ⟨_, mem_values, List.mem_map.2 ⟨_, Table.mem_of_get? h, rfl⟩⟩

/-- A text at a path is one of the texts of the settings. -/
theorem HasText.mem_texts {c : Config} {path t : String} (h : c.HasText path t) :
    t ∈ LawfulTexts.texts c := by
  cases h with
  | single hmem => exact List.mem_flatMap.2 ⟨_, mem_of_single hmem, List.mem_singleton_self _⟩
  | inner hgroup hmem =>
    exact List.mem_flatMap.2 ⟨_, mem_of_group hgroup hmem, List.mem_singleton_self _⟩
  | named hget _ => exact mem_texts_of_values hget

/-! ## Replaced texts -/

/-- The settings with another text in the place of each of their texts. -/
def replace (value : String → String) (c : Config) : Config :=
  ((Texts.mapTexts (fun t => (pure (value t) : StateM Unit String)) c).run ()).1

/-- A visit that returns a value for each text makes the settings with these values of it. -/
theorem output_eq_replace {σ : Type} {visit : String → StateM σ String} {value : String → String}
    {c : Config} {s : σ}
    (h : outputs visit (LawfulTexts.texts c) s = (LawfulTexts.texts c).map value) :
    ((Texts.mapTexts visit c).run s).1 = c.replace value :=
  FaithfulTexts.output_mapTexts (h.trans (Value.outputs_pure value _).symm)

/-- What a setting holds is replaced where it stands. -/
theorem value_replace (value : String → String) (c : Config) {e : String × Setting Config}
    (h : e ∈ parts.flatMap settingsOf) :
    e.2.value (c.replace value) = (e.2.value c).replace value := by
  have hitems (items : List Value) : ((Value.mapTextsItems
      (fun t => (pure (value t) : StateM Unit String)) items).run ()).1 =
        items.map (Value.replace value) := by
    induction items with
    | nil => rfl
    | cons v rest ih => exact congrArg (v.replace value :: ·) ih
  have hvalues := (separate_parts.values_mapSettings
    (fun t => (pure (value t) : StateM Unit String)) c ()).2
  rw [hitems, ← mapTexts_eq_mapSettings, settingsValues, settingsValues, List.map_map] at hvalues
  exact List.map_inj_left.1 hvalues e h

/-- A setting that is a text holds the other one after replacing. -/
theorem text_replace (value : String → String) (c : Config) {name : String}
    {place : Lens Config String} (h : (name, .text place) ∈ parts.flatMap settingsOf) :
    place.get (c.replace value) = value (place.get c) :=
  Value.text.inj (value_replace value c h)

/-- The variables hold the other texts after replacing, under the same names. -/
theorem values_replace (value : String → String) (c : Config) :
    (c.replace value).values = c.values.map fun e => (e.1, value e.2) := by
  have h : (c.replace value).values.map (fun e => (e.1, Value.text e.2)) =
      ((Value.mapTextsFields (fun t => (pure (value t) : StateM Unit String))
        (c.values.map fun e => (e.1, .text e.2))).run ()).1 := by
    have hvalue := value_replace value c mem_values
    simp only [Setting.value] at hvalue
    exact Value.table.inj hvalue
  have hnamed (t : Table String) : ((Setting.mapNamed
      (fun t => (pure (value t) : StateM Unit String)) t).run ()).1 =
        t.map fun e => (e.1, value e.2) := by
    induction t with
    | nil => rfl
    | cons e rest ih => exact congrArg ((e.1, value e.2) :: ·) ih
  rw [Setting.mapTextsFields_text, hnamed] at h
  refine List.map_injective_iff.2 (fun e e' he => ?_) h
  obtain ⟨hname, htext⟩ := Prod.mk.inj he
  exact Prod.ext hname (Value.text.inj htext)

/-- The text at a path is replaced there. -/
theorem HasText.replace {c : Config} {path t : String} (h : c.HasText path t)
    (value : String → String) : (c.replace value).HasText path (value t) := by
  cases h with
  | single hmem =>
    rw [← text_replace value c (mem_of_single hmem)]
    exact .single hmem
  | inner hgroup hmem =>
    rw [← text_replace value c (mem_of_group hgroup hmem)]
    exact .inner hgroup hmem
  | named hget hdot =>
    refine .named ?_ hdot
    rw [values_replace, Table.get?_map fun _ => value, hget]
    rfl

end Config

end Settings

end Stencil
