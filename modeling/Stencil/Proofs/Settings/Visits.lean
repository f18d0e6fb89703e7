import Stencil.Proofs.Settings.Paths

/-!
# Visiting settings and visiting their document

The texts of settings are visited as they are listed for the visit, those of a document wherever it
has a text. The document of settings is written as the settings are declared. So the two visits
agree only if the list of every group names each of its texts, once, and nothing else: then visited
settings are written as the visited document, and both visits come to the same texts, though in
another order, since a document has its fields in the order of their names.
-/

namespace Stencil

/-- The texts of a thing in the order in which a visit comes to them. -/
def visited {α : Type} [Texts α] (x : α) : List String :=
  ((Texts.mapTexts (fun t => (do modify (· ++ [t]); return t : StateM (List String) String)) x).run
    []).2

/-- A visit comes to the texts of a thing in their order. -/
theorem visited_eq_texts {α : Type} [Texts α] [LawfulTexts α] (x : α) :
    visited x = LawfulTexts.texts x := by
  have h (texts seen : List String) : texts.foldl (fun seen t =>
      (((do modify (· ++ [t]); return t : StateM (List String) String)).run seen).2) seen =
        seen ++ texts := by
    induction texts generalizing seen with
    | nil => exact (List.append_nil seen).symm
    | cons t rest ih => exact (ih (seen ++ [t])).trans (List.append_assoc _ _ _)
  rw [visited, LawfulTexts.state_mapTexts, h, List.nil_append]

namespace Json.Value

/-- Replacing the texts of a list replaces those of its items. -/
theorem replace_list (f : String → String) (items : List Value) :
    (Value.list items).replace f = .list (items.map (replace f)) := by
  refine congrArg Value.list ?_
  induction items with
  | nil => rfl
  | cons v rest ih => exact congrArg (v.replace f :: ·) ih

/-- Replacing the texts of a table replaces those of its fields. -/
theorem replace_table (f : String → String) (fields : Fields) :
    (Value.table fields).replace f = .table (fields.map fun e => (e.1, e.2.replace f)) := by
  refine congrArg Value.table ?_
  induction fields with
  | nil => rfl
  | cons e rest ih => exact congrArg ((e.1, e.2.replace f) :: ·) ih

/-- Replacing the texts of a table that is made of entries replaces those of the entries. -/
theorem replace_table_ofList (f : String → String) (entries : List (String × Value)) :
    (Value.table (Table.ofList entries)).replace f =
      .table (Table.ofList (entries.map fun e => (e.1, e.2.replace f))) := by
  rw [replace_table, Table.ofList_map]

/-- The texts of a table of fields with different names are those of the fields. -/
theorem texts_table_ofList {entries : List (String × Value)} (h : (entries.map (·.1)).Nodup) :
    (Value.table (Table.ofList entries)).texts.Perm (entries.flatMap fun e => e.2.texts) := by
  rw [texts, textsFields_eq_flatMap, List.flatMap_map]
  exact (Table.perm_ofList h).flatMap_right _

mutual

/-- Replacing texts twice is replacing them once by what comes of both. -/
theorem replace_replace (f g : String → String) :
    ∀ v : Value, (v.replace f).replace g = v.replace fun t => g (f t)
  | .text _ => rfl
  | .list items => by
    rw [replace_list, replace_list, replace_list, List.map_map, replace_replaceItems f g items]
  | .table fields => by
    rw [replace_table, replace_table, replace_table, List.map_map,
      replace_replaceFields f g fields]
  | .null => rfl
  | .bool _ => rfl
  | .number _ => rfl

/-- Replacing the texts of items twice is replacing them once by what comes of both. -/
theorem replace_replaceItems (f g : String → String) :
    ∀ items : List Value,
      items.map (replace g ∘ replace f) = items.map (replace fun t => g (f t))
  | [] => rfl
  | v :: rest => by
    rw [List.map_cons, List.map_cons, replace_replaceItems f g rest, Function.comp_apply,
      replace_replace f g v]

/-- Replacing the texts of fields twice is replacing them once by what comes of both. -/
theorem replace_replaceFields (f g : String → String) :
    ∀ fields : List (String × Value),
      fields.map ((fun e => (e.1, e.2.replace g)) ∘ fun e => (e.1, e.2.replace f)) =
        fields.map fun e => (e.1, e.2.replace fun t => g (f t))
  | [] => rfl
  | (name, v) :: rest => by
    rw [List.map_cons, List.map_cons, replace_replaceFields f g rest, Function.comp_apply,
      replace_replace f g v]

end

/-- All of a document but its texts. -/
def build (v : Value) : Value := v.replace fun _ => ""

theorem build_replace (f : String → String) (v : Value) : (v.replace f).build = v.build :=
  replace_replace f (fun _ => "") v

end Json.Value

namespace Settings

open Json (Value)

namespace Config

/-- What a part holds is replaced where it stands. -/
theorem value_part_replace (f : String → String) (c : Config) {e : String × Part Config}
    (h : e ∈ parts) : e.2.value (c.replace f) = (e.2.value c).replace f := by
  obtain ⟨name, p⟩ := e
  cases p with
  | single setting => exact value_replace f c (mem_of_single h)
  | group title settings =>
    rw [Part.value, Part.value, settingsValue, settingsValue, Value.replace_table_ofList,
      List.map_map]
    refine congrArg (Value.table ∘ Table.ofList) (List.map_congr_left fun e he => ?_)
    rw [value_replace f c (mem_of_group h he)]
    rfl

/-- Settings with other texts are written as the document with these texts. -/
theorem value_replace_eq (f : String → String) (c : Config) :
    (c.replace f).value = c.value.replace f := by
  rw [value, value, partsValue, partsValue, Value.replace_table_ofList, List.map_map]
  refine congrArg (Value.table ∘ Table.ofList) (List.map_congr_left fun e he => ?_)
  rw [value_part_replace f c he]
  rfl

/-- The texts of a part are those of its settings. -/
theorem texts_part_perm (c : Config) {e : String × Part Config} (h : e ∈ parts) :
    (e.2.value c).texts.Perm (settingsLeaves (settingsOf e) c) := by
  have hnames := (names_settings e h).1
  obtain ⟨name, p⟩ := e
  cases p with
  | single setting =>
    rw [settingsOf, settingsLeaves, List.flatMap_singleton, Setting.leaves_eq_texts]
    exact List.Perm.refl _
  | group title settings =>
    have hsettings : ((settings.map fun e => (e.1, e.2.value c)).map (·.1)).Nodup := by
      rwa [List.map_map]
    refine (Value.texts_table_ofList hsettings).trans ?_
    rw [List.flatMap_map, settingsLeaves, settingsOf]
    refine List.Perm.flatMap_left _ fun e _ => ?_
    rw [Setting.leaves_eq_texts]

/-- The texts of the settings are those of their document. -/
theorem texts_value_perm (c : Config) : c.value.texts.Perm (LawfulTexts.texts c) := by
  have hparts : ((parts.map fun e => (e.1, e.2.value c)).map (·.1)).Nodup := by
    rw [List.map_map]
    exact names_parts.1
  refine (Value.texts_table_ofList hparts).trans ?_
  change List.Perm _ (settingsLeaves (parts.flatMap settingsOf) c)
  rw [List.flatMap_map, settingsLeaves, List.flatMap_assoc]
  exact List.Perm.flatMap_left _ fun e he => texts_part_perm c he

/-- Settings and their document are visited alike: visited settings are written as the visited
document, both visits come to the same texts, to each as often as it is there, and all of the
document but its texts stays as it is. -/
theorem visits_agree (c : Config) :
    (∀ f : String → String, (c.replace f).value = c.value.replace f ∧
      (c.replace f).value.build = c.value.build) ∧
    (visited c).Perm (visited c.value) := by
  refine ⟨fun f => ⟨value_replace_eq f c, ?_⟩, ?_⟩
  · rw [value_replace_eq, Value.build_replace]
  · rw [visited_eq_texts, visited_eq_texts]
    exact (texts_value_perm c).symm

end Config

end Settings

end Stencil
