import Stencil.Proofs.Text.Split
import Stencil.Url.Domain

/-!
# Names that end in plain labels

No basic character is a composite or a mark, so the normal form of a text that ends in basic
characters ends in the same ones, whatever stands before. So a name that ends in labels of basic
characters still ends in these labels once it is written in ASCII, if it is a name at all.
-/

namespace Stencil.Url.Domain

open Text

/-! ## Basic characters are no marks -/

/-- No basic character is listed with a combining class. -/
theorem le_combiningClasses :
    combiningClasses.toList.all (fun r => 0x80 ≤ r.1) = true := by
  decide +kernel

section

variable {base mark c : Char}

/-- Basic characters do not combine. -/
theorem combiningClass_basic (hc : c.toNat < 0x80) : combiningClass c = 0 := by
  unfold combiningClass
  split
  · rename_i low high n hfind
    have hlow := List.all_eq_true.1 le_combiningClasses _ (Array.mem_of_find?_eq_some hfind).val
    have hrange := Array.find?_some hfind
    simp only [Bool.and_eq_true, decide_eq_true_eq] at hlow hrange
    omega
  · rfl

/-- Whether a word of three is a composite beyond ASCII with a mark beyond ASCII. -/
def isForeignWord : List Char → Bool
  | [whole, _, mark] => 0x80 ≤ whole.toNat && 0x80 ≤ mark.toNat
  | _ => true

set_option maxRecDepth 10000 in
/-- Neither composites nor their marks are basic. -/
theorem all_isForeignWord :
    ∀ words ∈ compositeWords, (split ' ' words.toList).all isForeignWord = true := by
  have hlist {cs : List Char} (h : (split ' ' cs).all isForeignWord = true) :
      (split ' ' (String.ofList cs).toList).all isForeignWord = true := by
    rwa [String.toList_ofList]
  simp only [compositeWords, List.forall_mem_cons]
  and_intros
  all_goals first
    | exact hlist (by decide +kernel)
    | exact fun _ h => absurd h List.not_mem_nil

/-- A composite is beyond ASCII, and so is its mark. -/
theorem foreign_of_mem_composites {e : Composite} (he : e ∈ composites) :
    0x80 ≤ e.whole.toNat ∧ 0x80 ≤ e.mark.toNat := by
  obtain ⟨word, hword, heq⟩ := List.mem_filterMap.1 he
  obtain ⟨words, hwords, hsplit⟩ := List.mem_flatMap.1 hword
  have hforeign := List.all_eq_true.1 (all_isForeignWord words hwords) word hsplit
  split at heq
  · cases heq
    simpa only [isForeignWord, Bool.and_eq_true, decide_eq_true_eq] using hforeign
  · cases heq

/-- A number before a block has no place in it. -/
theorem placeFrom?_eq_none {first count n : Nat} (h : n < first) :
    placeFrom? first count n = none := by
  rw [placeFrom?, if_neg]
  simp only [Bool.and_eq_true, decide_eq_true_eq, not_and]
  omega

/-- Basic characters have no parts. -/
theorem parts_basic (hc : c.toNat < 0x80) : parts c = [c] := by
  have happart (es : List Composite) (hes : ∀ e ∈ es, 0x80 ≤ e.whole.toNat) :
      takeApart es c = [c] := by
    induction es with
    | nil => rfl
    | cons e es ih =>
      obtain ⟨he, hes⟩ := List.forall_mem_cons.1 hes
      rw [takeApart, if_neg, ih hes]
      rw [beq_iff_eq]
      rintro rfl
      omega
  have hsyllable : syllableLetters? c = none := by
    rw [syllableLetters?, placeFrom?_eq_none (Nat.lt_of_lt_of_le hc (by decide))]
    rfl
  rw [parts, hsyllable, Option.getD_none]
  exact happart _ fun e he => (foreign_of_mem_composites he).1

/-- Nothing joins with a basic mark. -/
theorem join?_basic (hmark : mark.toNat < 0x80) : join? base mark = none := by
  have hsyllable : joinSyllable? base mark = none := by
    have hvowel : placeFrom? firstVowel vowelCount mark.toNat = none :=
      placeFrom?_eq_none (Nat.lt_of_lt_of_le hmark (by decide))
    have htail : placeFrom? firstTail (tailCount - 1) mark.toNat = none :=
      placeFrom?_eq_none (Nat.lt_of_lt_of_le hmark (by decide))
    rw [joinSyllable?, hvowel, htail]
    cases placeFrom? firstLead leadCount base.toNat <;>
      cases placeFrom? firstSyllable (leadCount * vowelCount * tailCount) base.toNat <;> rfl
  have hnone : composites.find? (fun e => e.base == base && e.mark == mark) = none := by
    rw [List.find?_eq_none]
    intro e he
    have hforeign := (foreign_of_mem_composites he).2
    simp only [Bool.and_eq_true, beq_iff_eq, not_and]
    rintro - rfl
    omega
  rw [join?, hsyllable, hnone]
  rfl

/-- A basic character stays behind what stands before it. -/
theorem arrange_basic (hc : c.toNat < 0x80) (before : List Char) :
    arrange before c = c :: before := by
  cases before with
  | nil => rfl
  | cons last before =>
    rw [arrange, combiningClass_basic hc]
    rfl

end

/-! ## The normal form -/

section

variable {ds : List Char} (hds : ∀ c ∈ ds, c.toNat < 0x80)
include hds

/-- A basic text has no parts. -/
theorem flatMap_parts_basic : ds.flatMap parts = ds := by
  induction ds with
  | nil => rfl
  | cons d ds ih =>
    obtain ⟨hd, hds⟩ := List.forall_mem_cons.1 hds
    rw [List.flatMap_cons, parts_basic hd, ih hds]
    rfl

/-- A basic text is arranged as it stands. -/
theorem foldl_arrange_basic (before : List Char) :
    ds.foldl arrange before = ds.reverse ++ before := by
  induction ds generalizing before with
  | nil => rfl
  | cons d ds ih =>
    obtain ⟨hd, hds⟩ := List.forall_mem_cons.1 hds
    rw [List.foldl_cons, arrange_basic hd, ih hds, List.reverse_cons, List.append_assoc]
    rfl

/-- Nothing is joined with basic characters. -/
theorem joinFrom_basic (base : Char) (stayed : List Char) :
    joinFrom base stayed ds = base :: stayed.reverse ++ ds := by
  induction ds generalizing base stayed with
  | nil => rw [joinFrom, List.append_nil]
  | cons d ds ih =>
    obtain ⟨hd, hds⟩ := List.forall_mem_cons.1 hds
    rw [joinFrom, join?_basic hd, ite_self, combiningClass_basic hd, ih hds]
    rfl

/-- A basic text at the end is not joined with what stands before it. -/
theorem joinFrom_append (base : Char) (stayed cs : List Char) :
    joinFrom base stayed (cs ++ ds) = joinFrom base stayed cs ++ ds := by
  induction cs generalizing base stayed with
  | nil => rw [List.nil_append, joinFrom_basic hds, joinFrom]
  | cons c cs ih =>
    rw [List.cons_append, joinFrom, joinFrom]
    split
    · exact ih _ _
    · split
      · rw [ih, List.append_assoc]
      · exact ih _ _

/-- A basic text at the end stays as it is where marks are joined. -/
theorem joinAll_append (cs : List Char) : joinAll (cs ++ ds) = joinAll cs ++ ds := by
  induction cs with
  | nil =>
    cases ds with
    | nil => rfl
    | cons d ds =>
      obtain ⟨hd, hds⟩ := List.forall_mem_cons.1 hds
      have hnil : joinAll [] = [] := rfl
      rw [hnil, List.nil_append, joinAll, combiningClass_basic hd,
        joinFrom_basic hds]
      rfl
  | cons c cs ih =>
    rw [List.cons_append, joinAll, joinAll]
    split
    · exact joinFrom_append hds _ _ _
    · rw [ih, List.cons_append]

/-- Basic characters at the end stay there. -/
theorem normalForm_append (cs : List Char) : normalForm (cs ++ ds) = normalForm cs ++ ds := by
  rw [normalForm, List.flatMap_append, List.foldl_append, flatMap_parts_basic hds,
    foldl_arrange_basic hds, List.reverse_append, List.reverse_reverse, joinAll_append hds,
    normalForm]

theorem normalForm_basic : normalForm ds = ds := normalForm_append hds []

end

/-! ## Labels -/

variable {front rest text : List Char}

/-- Texts are mapped one after the other. -/
theorem mapText_append (cs ds : List Char) : mapText (cs ++ ds) =
    (mapText cs).bind fun text => (mapText ds).map fun ending => text ++ ending := by
  rw [mapText, mapText, mapText, List.mapM_append]
  cases cs.mapM mapChar with
  | none => rfl
  | some first =>
    cases ds.mapM mapChar with
    | none => rfl
    | some second => exact congrArg some List.flatten_append

/-- There are as many labels as texts, so at least one. -/
theorem ne_nil_of_mapM {texts : List (List Char)} {labels : List Label}
    (h : texts.mapM Label.ofText? = some labels) (hne : texts ≠ []) : labels ≠ [] := by
  obtain ⟨text, texts, rfl⟩ := List.exists_cons_of_ne_nil hne
  rw [List.mapM_cons] at h
  obtain ⟨label, _, h⟩ := Option.bind_eq_some_iff.1 h
  obtain ⟨labels, _, h⟩ := Option.bind_eq_some_iff.1 h
  cases h
  exact List.cons_ne_nil _ _

/-- A name that stands for basic characters is its own normal form. -/
theorem toAscii?_basic {labels : List Label} (hmapped : mapText front = some text)
    (hbasic : ∀ c ∈ text, c.toNat < 0x80)
    (hlabels : (split '.' text).mapM Label.ofText? = some labels)
    (hright : labels.any (runsLeftward ·.plain) = false) :
    toAscii? front = some (['.'].intercalate (labels.map (·.ascii))) := by
  rw [toAscii?, hmapped, Option.bind_some, normalForm_basic hbasic, hlabels]
  exact if_neg (by simp [hright])

/-- Basic labels that stand for themselves. -/
structure Plain (rest : List Char) : Prop where
  mapped : mapText ('.' :: rest) = some ('.' :: rest)
  basic : ∀ c ∈ '.' :: rest, c.toNat < 0x80
  labels : ∃ labels, (split '.' rest).mapM Label.ofText? = some labels ∧
    ['.'].intercalate (labels.map (·.ascii)) = rest

/-- A name that ends in plain labels still ends in them once it is written in ASCII. -/
theorem exists_of_toAscii? (hrest : Plain rest) (h : toAscii? (front ++ '.' :: rest) = some text) :
    ∃ before, text = before ++ '.' :: rest := by
  obtain ⟨labels, hlabels, hspelled⟩ := hrest.labels
  rw [toAscii?, mapText_append, hrest.mapped] at h
  -- Mapping and composing leave the plain labels as they are, and so does writing them in ASCII.
  cases hfront : mapText front with
  | none =>
    rw [hfront] at h
    cases h
  | some first =>
    rw [hfront, Option.bind_some, Option.map_some, Option.bind_some,
      normalForm_append hrest.basic, split_append_cons, List.mapM_append, hlabels] at h
    cases hothers : (split '.' (normalForm first)).mapM Label.ofText? with
    | none =>
      rw [hothers] at h
      cases h
    | some others =>
      rw [hothers] at h
      simp only [Option.bind_eq_bind, Option.bind_some, Option.pure_def] at h
      split at h
      · cases h
      · have hne := ne_nil_of_mapM hothers (split_ne_nil _ _)
        have hne' := ne_nil_of_mapM hlabels (split_ne_nil _ _)
        rw [List.map_append, intercalate_append _ (by simpa using hne) (by simpa using hne'),
          hspelled] at h
        exact ⟨_, (Option.some.inj h).symm⟩

end Stencil.Url.Domain
