import Stencil.Proofs.Json.Pruning
import Stencil.Proofs.Settings.Paths
import Stencil.Settings.Source

/-!
# Dumped settings are read back

A dump holds the settings that are set. What it leaves out is empty, and an unset setting is empty
too, so the settings that are read from a dump are the settings that were dumped. Named values and
regions are no settings of their own: of these the empty ones are left out for good.
-/

namespace Stencil.Settings

open Json (Conforms Shape Value)

variable {α ι : Type}

/-! ## The shape of declared settings -/

/-- A table of named things of some shapes is a record of fields of these shapes. -/
theorem conforms_record {n : Nat} {items : List (String × ι)} (title : String) {shape : ι → Shape}
    {value : ι → Value} (hn : (items.map (·.1)).Nodup)
    (h : ∀ e ∈ items, Conforms n (shape e.2) (value e.2)) :
    Conforms (n + 1) (.record title (items.map fun e => (e.1, shape e.2)))
      (.table (Table.ofList (items.map fun e => (e.1, value e.2)))) := by
  have hvalues : ((items.map fun e => (e.1, value e.2)).map (·.1)).Nodup := by
    rwa [List.map_map]
  have hmem {e : String × Value} (he : e ∈ Table.ofList (items.map fun e => (e.1, value e.2))) :
      ∃ i, (e.1, i) ∈ items ∧ value i = e.2 := by
    obtain ⟨⟨name, i⟩, hi, rfl⟩ := List.mem_map.1 ((Table.perm_ofList hvalues).mem_iff.1 he)
    exact ⟨i, hi, rfl⟩
  have hknown {name : String} {i : ι} (hi : (name, i) ∈ items) :
      Table.get? name (items.map fun e => (e.1, shape e.2)) = some (shape i) := by
    refine Table.get?_of_mem ?_ (List.mem_map.2 ⟨_, hi, rfl⟩)
    rwa [List.map_map]
  refine .record (Table.ordered_ofList _) (fun e he => ?_) fun e he s hs => ?_
  · obtain ⟨i, hi, -⟩ := hmem he
    rw [hknown hi]
    rfl
  · obtain ⟨i, hi, hvalue⟩ := hmem he
    rw [hknown hi] at hs
    obtain rfl := Option.some.inj hs
    rw [← hvalue]
    exact h _ hi

/-- The named texts of a setting are in order. -/
def Setting.InOrder (a : α) : Setting α → Prop
  | .named place => Table.Ordered (place.get a)
  | _ => True

/-- What a setting holds in order is of the shape that is wanted of it. -/
theorem Setting.InOrder.conforms {setting : Setting α} {a : α} (h : setting.InOrder a) (n : Nat) :
    Conforms (n + 1) setting.shape (setting.value a) := by
  cases setting with
  | text place => exact .text _
  | flag place => exact .flag _
  | texts place =>
    refine .list fun v hv => ?_
    obtain ⟨s, -, rfl⟩ := List.mem_map.1 hv
    exact .text s
  | named place =>
    refine .table ?_ fun e he => ?_
    · rwa [Table.Ordered, Table.names, List.map_map]
    · obtain ⟨⟨name, s⟩, -, rfl⟩ := List.mem_map.1 he
      exact .text s

/-! ## Settings put back -/

namespace Setting

/-- The setting of `c` put in `a`, unless pruning leaves nothing of it. -/
def restore (c a : α) (setting : Setting α) : α :=
  match (setting.value c).prune with
  | some v => setting.put v a
  | none => a

/-- What a document holds for a setting that is not set. -/
def blank : Setting α → Value
  | .text _ => .text ""
  | .flag _ => .bool false
  | .texts _ => .list []
  | .named _ => .table []

/-- What a document holds for the setting without its empty items and fields. -/
def kept (a : α) : Setting α → Value
  | .text place => .text (place.get a)
  | .flag place => .bool (place.get a)
  | .texts place => .list (((place.get a).filter (· ≠ "")).map .text)
  | .named place => .table (((place.get a).filter (·.2 ≠ "")).map fun e => (e.1, .text e.2))

/-- A setting of which pruning leaves nothing is kept as one that is not set. -/
theorem kept_of_prune_none {setting : Setting α} {c : α}
    (h : (setting.value c).prune = none) : setting.kept c = setting.blank := by
  cases setting with
  | text place =>
    rw [value, Value.prune_text] at h
    split at h
    · exact congrArg Value.text ‹_›
    · cases h
  | flag place =>
    rw [value] at h
    rw [kept, blank]
    cases hflag : place.get c with
    | false => rfl
    | true =>
      rw [hflag] at h
      cases h
  | texts place =>
    have hnil := Value.pruneItems_eq_nil h
    rw [Value.pruneItems_texts] at hnil
    rw [kept, hnil, blank]
  | named place =>
    have hnil := Value.pruneFields_eq_nil h
    rw [Value.pruneFields_texts] at hnil
    rw [kept, hnil, blank]

/-- What pruning leaves of a setting holds, once it is put anywhere, what is kept of it. -/
theorem Holds.value_put {setting : Setting α} (hholds : setting.Holds) {c : α} {v : Value}
    (h : (setting.value c).prune = some v) (a : α) :
    setting.value (setting.put v a) = setting.kept c := by
  -- One case for each kind of setting, since each is read back from its own kind of value.
  cases setting with
  | text place =>
    rw [value, Value.prune_text] at h
    split at h
    · cases h
    · obtain rfl := Option.some.inj h
      exact congrArg Value.text (hholds _ a)
  | flag place =>
    rw [value] at h
    rw [kept]
    cases hflag : place.get c with
    | false =>
      rw [hflag] at h
      cases h
    | true =>
      rw [hflag] at h
      obtain rfl := Option.some.inj h
      exact congrArg Value.bool (hholds true a)
  | texts place =>
    obtain rfl := Value.eq_list_of_prune h
    rw [Value.pruneItems_texts, put, List.filterMap_map]
    exact congrArg (Value.list ∘ List.map .text) ((hholds _ a).trans List.filterMap_some)
  | named place =>
    obtain rfl := Value.eq_table_of_prune h
    rw [Value.pruneFields_texts, put, List.filterMap_map]
    exact congrArg (Value.table ∘ List.map fun e => (e.1, .text e.2))
      ((hholds _ a).trans List.filterMap_some)

/-- A setting that is not set holds, once it is put back, what is kept of it. -/
theorem Holds.value_restore {setting : Setting α} (h : setting.Holds) {c a : α}
    (ha : setting.value a = setting.blank) :
    setting.value (setting.restore c a) = setting.kept c := by
  unfold restore
  split
  · exact h.value_put ‹_› a
  · rw [ha, kept_of_prune_none ‹_›]

/-- What does not read a setting is the same after writing it. -/
theorem Keeps.read_put {β : Type} {read : α → β} {setting : Setting α} (h : setting.Keeps read)
    (v : Value) (a : α) : read (setting.put v a) = read a := by
  cases setting <;> cases v <;> first | exact h _ a | rfl

/-- What does not read a setting is the same after restoring it. -/
theorem Keeps.read_restore {β : Type} {read : α → β} {setting : Setting α}
    (h : setting.Keeps read) (c a : α) : read (setting.restore c a) = read a := by
  unfold restore
  split
  · exact h.read_put _ a
  · rfl

end Setting

/-- Settings that are not set hold, once they are all put back, what is kept of them. -/
theorem SeparateFrom.values_restore {settings : List (String × Setting α)}
    {earlier : α → List Value} (h : SeparateFrom earlier settings) (c : α) {a : α}
    (ha : settingsValues settings a = settings.map (·.2.blank)) :
    earlier (settings.foldl (fun a e => e.2.restore c a) a) = earlier a ∧
      settingsValues settings (settings.foldl (fun a e => e.2.restore c a) a) =
        settings.map (·.2.kept c) := by
  induction settings generalizing earlier a with
  | nil => exact ⟨rfl, rfl⟩
  | cons e rest ih =>
    obtain ⟨hholds, hearlier, hlater, hrest⟩ := h
    obtain ⟨hblank, hblanks⟩ := List.cons.inj ha
    obtain ⟨hkept, hvalues⟩ := ih hrest ((hlater.read_restore c a).trans hblanks)
    obtain ⟨hvalue, hkept⟩ := List.cons.inj hkept
    refine ⟨hkept.trans (hearlier.read_restore c a), congr (congrArg List.cons ?_) hvalues⟩
    exact hvalue.trans (hholds.value_restore hblank)

/-! ## Parts put back -/

/-- Things are put back from a pruned table as they are from what is left of each of them. -/
theorem foldl_get?_pruneFields {items : List (String × ι)} {value : ι → Value}
    (hn : (items.map (·.1)).Nodup) (put : ι → Value → α → α) (a : α) :
    items.foldl (fun a e =>
        match Table.get? e.1
            (Value.pruneFields (Table.ofList (items.map fun e => (e.1, value e.2)))) with
        | some v => put e.2 v a
        | none => a) a =
      items.foldl (fun a e =>
        match (value e.2).prune with
        | some v => put e.2 v a
        | none => a) a := by
  refine List.foldl_ext _ _ a fun a e he => ?_
  rw [Value.get?_pruneFields (Table.ordered_ofList _).nodup, Table.get?_ofList_map value hn he]
  rfl

/-- Writing what pruning leaves of some settings restores each of them. -/
theorem putSettings_pruneFields {settings : List (String × Setting α)}
    (hn : (settings.map (·.1)).Nodup) (c a : α) :
    putSettings settings (.table (Value.pruneFields
        (Table.ofList (settings.map fun e => (e.1, e.2.value c))))) a =
      settings.foldl (fun a e => e.2.restore c a) a :=
  foldl_get?_pruneFields hn (fun s v a => s.put v a) a

/-- Writing an empty table writes nothing. -/
theorem putSettings_nil (settings : List (String × Setting α)) (a : α) :
    putSettings settings (.table []) a = a := by
  induction settings with
  | nil => rfl
  | cons e rest ih => exact ih

/-- The settings of a part are put back each on its own. -/
theorem putPart_prune {e : String × Part α} (hn : ((settingsOf e).map (·.1)).Nodup) (c a : α) :
    (match (e.2.value c).prune with
      | some v => e.2.put v a
      | none => a) = (settingsOf e).foldl (fun a e => e.2.restore c a) a := by
  obtain ⟨name, p⟩ := e
  cases p with
  | single setting => rfl
  | group title settings =>
    rw [settingsOf] at hn ⊢
    rw [← putSettings_pruneFields hn]
    simp only [Part.value, settingsValue]
    split <;> rename_i hprune
    · rw [Value.eq_table_of_prune hprune]
      rfl
    · rw [Value.pruneFields_eq_nil hprune, putSettings_nil]

/-- All settings of the parts are put back. -/
theorem putParts_pruneFields {parts : List (String × Part α)} (hn : (parts.map (·.1)).Nodup)
    (hsettings : ∀ e ∈ parts, ((settingsOf e).map (·.1)).Nodup) (c a : α) :
    putParts parts (.table (Value.pruneFields
        (Table.ofList (parts.map fun e => (e.1, e.2.value c))))) a =
      (parts.flatMap settingsOf).foldl (fun a e => e.2.restore c a) a := by
  rw [List.foldl_flatMap]
  refine (foldl_get?_pruneFields hn (fun p v a => p.put v a) a).trans ?_
  exact List.foldl_ext _ _ a fun a e he => putPart_prune (hsettings e he) c a

namespace Config

/-- The settings without empty named values and without empty regions. -/
def pruned (c : Config) : Config :=
  { c with
    values := c.values.filter (·.2 ≠ "")
    gallery := { c.gallery with
      replicationRegions := c.gallery.replicationRegions.filter (· ≠ "") } }

/-- Pruning changes nothing exactly if no named value and no region is empty. -/
theorem pruned_eq_iff (c : Config) :
    c.pruned = c ↔ (∀ e ∈ c.values, e.2 ≠ "") ∧ ∀ r ∈ c.gallery.replicationRegions, r ≠ "" := by
  constructor
  · intro h
    have hvalues := congrArg Config.values h
    have hregions := congrArg (fun c => c.gallery.replicationRegions) h
    simpa [pruned, List.filter_eq_self] using And.intro hvalues hregions
  · rintro ⟨hvalues, hregions⟩
    rw [pruned, List.filter_eq_self.2 (by simpa using hvalues),
      List.filter_eq_self.2 (by simpa using hregions)]

/-- Settings that hold the same are the same. -/
theorem ext_values {c c' : Config} (h : settingsValues (parts.flatMap settingsOf) c =
    settingsValues (parts.flatMap settingsOf) c') : c = c' := by
  have htexts (l l' : List String) : l.map Value.text = l'.map Value.text ↔ l = l' :=
    List.map_inj_right fun _ _ => Value.text.inj
  have hnamed (t t' : Table String) : (t.map fun e => (e.1, Value.text e.2)) =
      (t'.map fun e => (e.1, Value.text e.2)) ↔ t = t' :=
    List.map_inj_right fun e e' he => by
      obtain ⟨hname, htext⟩ := Prod.mk.inj he
      exact Prod.ext hname (Value.text.inj htext)
  obtain ⟨_, _, _, _, _, _, ⟨⟩, ⟨⟩, ⟨⟩, ⟨⟩, ⟨⟩, ⟨⟩⟩ := c
  obtain ⟨_, _, _, _, _, _, ⟨⟩, ⟨⟩, ⟨⟩, ⟨⟩, ⟨⟩, ⟨⟩⟩ := c'
  simpa [settingsValues, parts, settingsOf, within, Storage.settings, Identity.settings,
    Machine.settings, Image.settings, Gallery.settings, Builder.settings, Setting.inside,
    Setting.value, Lens.inside, storagePlace, identityPlace, machinePlace, imagePlace, galleryPlace,
    builderPlace, htexts, hnamed, and_assoc] using h

/-- No setting is set in the settings that no document has been read into. -/
theorem values_default : settingsValues (parts.flatMap settingsOf) {} =
    (parts.flatMap settingsOf).map (·.2.blank) := rfl

/-- All settings but the named values and the regions are kept as they are. -/
theorem values_pruned (c : Config) : settingsValues (parts.flatMap settingsOf) c.pruned =
    (parts.flatMap settingsOf).map (·.2.kept c) := rfl

/-- What a pruned document holds are the pruned settings. -/
theorem ofValue_prune (c : Config) : ofValue (c.value.prune.getD (.table [])) = c.pruned := by
  rw [value, partsValue, Value.getD_prune_table, ofValue,
    putParts_pruneFields names_parts.1 fun e he => (names_settings e he).1]
  exact ext_values (((separate_parts.values_restore c values_default).2).trans
    (values_pruned c).symm)

/-- All settings are in order if the named values are. -/
theorem inOrder_settings {c : Config} (h : Table.Ordered c.values) :
    ∀ e ∈ parts.flatMap settingsOf, e.2.InOrder c := by
  simpa [parts, settingsOf, within, Storage.settings, Identity.settings, Machine.settings,
    Image.settings, Gallery.settings, Builder.settings, Setting.inside, Setting.InOrder] using h

/-- Settings are written as a document of the shape that settings are read from. -/
theorem conforms_value {c : Config} (h : Table.Ordered c.values) : Conforms 3 shape c.value := by
  refine conforms_record title names_parts.1 fun e he => ?_
  have hsettings (e' : String × Setting Config) (he' : e' ∈ settingsOf e) : e'.2.InOrder c :=
    inOrder_settings h e' (List.mem_flatMap.2 ⟨e, he, he'⟩)
  have hnames := (names_settings e he).1
  obtain ⟨name, p⟩ := e
  cases p with
  | single setting => exact (hsettings _ (List.mem_singleton_self _)).conforms 1
  | group title settings =>
    exact conforms_record title hnames fun e' he' => (hsettings e' he').conforms 0

/-- A dump of settings is read, and the settings that are read are the dumped ones without their
empty named values and their empty regions. So they are the dumped ones exactly if these have no
such values and regions. The named values are in order, as they are in any table that is filled by
`insert`. -/
theorem parse_dump {c : Config} (h : Table.Ordered c.values) (path : String) :
    parse c.dump .json path = .ok c.pruned ∧
      (parse c.dump .json path = .ok c ↔
        (∀ e ∈ c.values, e.2 ≠ "") ∧ ∀ r ∈ c.gallery.replicationRegions, r ≠ "") := by
  have hconforms : Conforms 3 shape (c.value.prune.getD (.table [])) :=
    (conforms_value h).getD_prune
  obtain ⟨hstrip, hread⟩ := hconforms.read_pretty (by decide)
  have hparse : parse c.dump .json path = .ok c.pruned := by
    simp only [parse, dump, hstrip, hread, ofValue_prune]
  refine ⟨hparse, ?_⟩
  rw [hparse, Except.ok.injEq, pruned_eq_iff]

/-- Settings with an empty named value, an empty region, and texts that look like comments. -/
abbrev sparse : Config where
  id := "// \"id\""
  values := [("set", "/*,]"), ("unset", "")]
  gallery := { replicationRegions := ["", "north"], skipSetup := true }

/-- The empty named value and the empty region are gone, and all else is read back. -/
theorem parse_dump_sparse : Table.Ordered sparse.values ∧
    parse sparse.dump .json "settings.json" = .ok { sparse with
      values := [("set", "/*,]")]
      gallery := { replicationRegions := ["north"], skipSetup := true } } ∧
    parse sparse.dump .json "settings.json" ≠ .ok sparse := by
  have hordered : Table.Ordered sparse.values := by
    unfold Table.Ordered
    decide
  obtain ⟨hparse, hsame⟩ := parse_dump hordered "settings.json"
  exact ⟨hordered, hparse, fun h => (hsame.1 h).2 "" List.mem_cons_self rfl⟩

end Config

end Stencil.Settings
