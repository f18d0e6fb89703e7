import Stencil.Proofs.Json.Reordering
import Stencil.Proofs.Template.Grammar
import Stencil.Proofs.Template.Unfailing

/-!
# Documents in any order

Where lookups have fixed answers and nothing is uploaded, the order in which the texts of a document
are visited changes neither whether it is resolved nor what becomes of a text, with one exception.
What the memo holds is not expanded again, so an expansion that nests too deep where it comes first
may be within the bound where a part of it was expanded before; so one order may end with the error
of an expansion that was cut off, and another one succeed.
-/

namespace Stencil.Template

variable {σ : Type} {registry : Registry σ} {names : String → Prop} {world : σ}

open Session Text Json.Value

/-! ## What texts come to -/

open Classical in
/-- What a text comes to, if it comes to something. -/
noncomputable def meaning (registry : Registry σ) (world : σ) (text : String) : String :=
  if h : ∃ v, Expands registry world text v then h.choose else text

/-- A text that comes to something means that. -/
theorem Expands.meaning_eq {text v : String} (h : Expands registry world text v) :
    meaning registry world text = v := by
  have hex : ∃ v, Expands registry world text v := ⟨v, h⟩
  rw [meaning, dif_pos hex]
  exact hex.choose_spec.unique h

/-- A text that is evaluated to a value is rendered to it in its place. -/
theorem Session.renderLeaf_of_evaluate {text v : String} {s s' : Session σ}
    (h : evaluate registry maxDepth text s = (.ok v, s')) :
    (renderLeaf registry text).run s = (v, s') := by
  show renderLeaf registry text s = (v, s')
  by_cases hh : hasPlaceholder text = true
  · rw [renderLeaf, if_pos hh, h]
  · rw [Bool.not_eq_true] at hh
    rw [evaluate_of_not_hasPlaceholder hh, Prod.mk.injEq, Except.ok.injEq] at h
    rw [renderLeaf, if_neg (by simp [hh]), h.1, h.2]

/-- Texts that are rendered without an error come to what they mean. -/
theorem outputs_of_clean (hk : registry.Keyed)
    (hs : registry.Steady names (fun _ => True) world) {texts : List String} {s : Session σ}
    (hv : ∀ before t after, texts = before ++ t :: after → ∀ n c s',
      Evaluation.Visits registry ⟨maxDepth, t, renderTexts registry before s⟩ n c s' →
        names c.name)
    (hsound : Sound registry (fun _ => True) world s)
    (hclean : (renderTexts registry texts s).errors = []) :
    outputs (renderLeaf registry) texts s = texts.map (meaning registry world) := by
  induction texts generalizing s with
  | nil => rfl
  | cons t rest ih =>
    -- Errors are never taken back, so no text has recorded one.
    have hnil : (renderText registry t s).2.errors = [] :=
      List.prefix_nil.1 (hclean ▸ (extends_renderTexts registry rest _).errors)
    obtain ⟨hsound', hright⟩ := Evaluation.sound (e := ⟨maxDepth, t, s⟩) hk hs (hv [] t rest rfl)
      hsound
    have hstart := (extends_renderText registry t s).errors
    rw [hnil, List.prefix_nil] at hstart
    rw [Evaluation.result] at hsound' hright
    cases he : evaluate registry maxDepth t s with
    | mk r s' =>
      cases r with
      | error e =>
        rw [renderText, he] at hnil
        simp at hnil
      | ok v =>
        have hrendered : renderText registry t s = (v, s') := by rw [renderText, he]
        rw [he] at hsound' hright
        rw [hrendered] at hnil
        have hmeans := hright v rfl (hnil.trans hstart.symm)
        rw [outputs, renderLeaf_of_evaluate he, List.map_cons, hmeans.meaning_eq]
        rw [renderTexts, hrendered] at hclean
        refine congrArg (v :: ·) (ih (fun before t' after ht n c s'' hvis => ?_) hsound' hclean)
        exact hv (t :: before) t' after (by rw [ht, List.cons_append]) n c s''
          (by rwa [renderTexts, hrendered])

/-! ## How sessions over documents end -/

/-- Rendering a document results in its first error, or in what its texts are rendered to. -/
theorem result_renderAll (d : Json.Value) : (renderAll registry d world).1.result =
    match ((Subject.thing d).session registry world).errors.head? with
    | some e => .error e
    | none => .ok ((d.mapTexts (renderLeaf registry)).run (start world)).1 := rfl

/-- A document that is resolved leaves a session without errors. -/
theorem clean_of_result {d o : Json.Value} (h : (renderAll registry d world).1.result = .ok o) :
    ((Subject.thing d).session registry world).errors = [] := by
  rw [result_renderAll] at h
  split at h
  · cases h
  · rename_i hnone
    exact List.head?_eq_none_iff.1 hnone

/-- A document whose session has no error and calls named functions only is resolved to what its
texts mean. -/
theorem result_of_clean (hk : registry.Keyed)
    (hs : registry.Steady names (fun _ => True) world) {d : Json.Value}
    (hv : ∀ n c s, (Subject.thing d).Visits registry world n c s → names c.name)
    (hclean : ((Subject.thing d).session registry world).errors = []) :
    (renderAll registry d world).1.result = .ok (d.replace (meaning registry world)) := by
  have houtputs : outputs (renderLeaf registry) d.texts (start world) =
      d.texts.map (meaning registry world) := by
    refine outputs_of_clean hk hs (fun before t after ht n c s h => ?_) (.start hs) ?_
    · exact hv n c s ⟨before, t, after, ht, h⟩
    · rw [Subject.session_eq_renderTexts] at hclean
      exact hclean
  rw [result_renderAll, hclean, ← output_eq_replace houtputs]
  rfl

/-- A document that is not resolved since a call was cut off. Its texts lead through more references
than expansions may nest. -/
structure CutShort (registry : Registry σ) (world : σ) (d : Json.Value) : Prop where
  result : ∃ key, (renderAll registry d world).1.result = .error (.tooDeep key maxDepth)
  long : ∃ t ∈ d.texts, ∃ nodes c, registry.read t = .ok nodes ∧ .call c ∈ nodes ∧
    Chain registry world maxDepth c.reference

/-- A session that calls named functions only, over texts of a document that is resolved, has no
error or is cut short. -/
theorem clean_or_cutShort (hk : registry.Keyed)
    (hs : registry.Steady names (fun _ => True) world) (hq : registry.Quiet names)
    {d d' : Json.Value} (htexts : ∀ t ∈ d.texts, t ∈ d'.texts)
    (hv : ∀ n c s, (Subject.thing d).Visits registry world n c s → names c.name)
    (hclean : ((Subject.thing d').session registry world).errors = []) :
    ((Subject.thing d).session registry world).errors = [] ∨ CutShort registry world d := by
  have hsafe : ∀ t ∈ (Subject.thing d).texts, Safe registry names world t := fun t ht =>
    Subject.safe_of_mem hclean hk hs (htexts t ht)
  rcases Subject.clean_or_cutOff hk hs hq hsafe hv with hcalm | ⟨c, s, hvc, hhead⟩
  · exact .inl hcalm.errors
  · exact .inr ⟨⟨c.key.text, by rw [result_renderAll, hhead]⟩, hvc.chain hs hv⟩

/-- A session over the texts of a document that is resolved calls only what that session calls. -/
theorem names_of_clean (hk : registry.Keyed)
    (hs : registry.Steady names (fun _ => True) world) (hq : registry.Quiet names)
    {d d' : Json.Value} (htexts : ∀ t ∈ d'.texts, t ∈ d.texts)
    (hv : ∀ n c s, (Subject.thing d).Visits registry world n c s → names c.name)
    (hclean : ((Subject.thing d).session registry world).errors = []) :
    ∀ n c s, (Subject.thing d').Visits registry world n c s → names c.name := by
  let Q : Reference → Prop := fun r =>
    ∃ n c s, (Subject.thing d).Visits registry world n c s ∧ c.reference = r
  have hdepth : ∀ key limit,
      Error.tooDeep key limit ∉ ((Subject.thing d).session registry world).errors :=
    fun key limit hmem => by rw [hclean] at hmem; cases hmem
  have hclosed : registry.Closed Q := by
    rintro r f w raw nodes c' ⟨n, c, s, hvc, rfl⟩ hf hx hraw hread hc'
    rw [hs.answers trivial (hv n c s hvc) hf] at hraw
    exact hvc.closed hk hs hq hv hdepth (.single (.intro hf hx hraw hread hc'))
  intro n c s hvis
  have hQ : Q c.reference := by
    refine hvis.of_closed hclosed fun t ht nodes c' hread hc' => ?_
    obtain ⟨s', hv'⟩ := (Subject.thing d).exists_visits (htexts t ht) hread hc'
    exact ⟨maxDepth, c', s', hv', rfl⟩
  obtain ⟨m, c', s', hvc, href⟩ := hQ
  have hname : c'.name = c.name := congrArg Reference.name href
  exact hname ▸ hv m c' s' hvc

/-- Where one order of a document is resolved, any other one is resolved to the same texts or cut
short, if only named functions are called in the first. -/
theorem results_of_clean (hk : registry.Keyed)
    (hs : registry.Steady names (fun _ => True) world) (hq : registry.Quiet names)
    {d d' : Json.Value} (hd : Reordered d d')
    (hv : ∀ n c s, (Subject.thing d).Visits registry world n c s → names c.name)
    (hclean : ((Subject.thing d).session registry world).errors = []) :
    (∃ value, (renderAll registry d world).1.result = .ok (d.replace value) ∧
        (renderAll registry d' world).1.result = .ok (d'.replace value)) ∨
      CutShort registry world d' := by
  have htexts : ∀ t ∈ d'.texts, t ∈ d.texts := fun t => hd.texts_perm.mem_iff.2
  have hv' := names_of_clean hk hs hq htexts hv hclean
  rcases clean_or_cutShort hk hs hq htexts hv' hclean with hclean' | hcut
  · exact .inl ⟨meaning registry world, result_of_clean hk hs hv hclean,
      result_of_clean hk hs hv' hclean'⟩
  · exact .inr hcut

/-! ## The standard functions -/

/-- Where lookups have fixed answers and no file is uploaded, two orders of a document that are both
resolved are resolved to the same texts, and where one is resolved and the other is not, that one is
cut short. -/
theorem resolved_in_any_order (answer : Domain → String → Except Error String)
    (register : String → σ → Except Error String × σ) (ns : Namespace) (world : σ)
    {d d' : Json.Value} (hd : Reordered d d')
    (hupload : ∀ n c s, (Subject.thing d).Visits (.answering answer register ns) world n c s →
      c.name ≠ "upload") :
    (∀ o, (renderAll (.answering answer register ns) d world).1.result = .ok o →
      (∃ value, o = d.replace value ∧
        (renderAll (.answering answer register ns) d' world).1.result = .ok (d'.replace value)) ∨
      CutShort (.answering answer register ns) world d') ∧
    ∀ o', (renderAll (.answering answer register ns) d' world).1.result = .ok o' →
      (∃ value, o' = d'.replace value ∧
        (renderAll (.answering answer register ns) d world).1.result = .ok (d.replace value)) ∨
      CutShort (.answering answer register ns) world d := by
  have hk := Registry.keyed_answering answer register ns
  have hs := steady_answering answer register ns world
  have hq := quiet_answering answer register ns
  constructor
  · intro o ho
    rcases results_of_clean hk hs hq hd hupload (clean_of_result ho) with ⟨value, h, h'⟩ | hcut
    · exact .inl ⟨value, Except.ok.inj (ho.symm.trans h), h'⟩
    · exact .inr hcut
  · intro o' ho'
    -- That no call uploads is known of the first order only, and carries over by the texts in
    -- common.
    have htexts : ∀ t ∈ d.texts, t ∈ d'.texts := fun t => hd.texts_perm.mem_iff.1
    rcases clean_or_cutShort hk hs hq htexts hupload (clean_of_result ho') with hclean | hcut
    · rcases results_of_clean hk hs hq hd hupload hclean with ⟨value, h, h'⟩ | hcut
      · exact .inl ⟨value, Except.ok.inj (ho'.symm.trans h'), h⟩
      · obtain ⟨key, hkey⟩ := hcut.result
        cases ho'.symm.trans hkey
    · exact .inr hcut

/-! ## A chain that is too long from its start

Every key of the chain is answered with a placeholder for the next one. The calls of a session along
the chain go on until one is remembered, the chain ends, or the headroom does; so where it is too
long from its start, it matters whether a later key was asked for before.
-/

section

/-- A placeholder reads as a call if its key can stand between raw marks. -/
theorem parse_placeholder {key : String} (h : rawMark ∉ key.toList) :
    parse (placeholder key) = .ok [.call ⟨"cfg", [key], 1⟩] := by
  let inner := ['c', 'f', 'g'] ++ ' ' :: rawMark :: (key.toList ++ [rawMark])
  have hkey : Spelled (rawMark :: (key.toList ++ [rawMark])) (.text key) := by
    have := Spelled.raw h
    rwa [String.ofList_toList] at this
  have hname : Spelled ['c', 'f', 'g'] (.name "cfg") := by
    have hrest : ∀ d ∈ ['f', 'g'], isNameChar d = true := by
      intro d hd
      rcases List.mem_pair.1 hd with rfl | rfl <;> rfl
    exact .name rfl hrest
  have hblanks : Blanks [] := fun _ hc => absurd hc List.not_mem_nil
  -- The key is spelled between raw marks, so nothing in it needs to be escaped.
  have hspread : Spread inner [.name "cfg", .text key] := by
    have hlast : Spread ([' '] ++ rawMark :: (key.toList ++ [rawMark]) ++ []) [.text key] :=
      .word (by simp [Blanks, isSpace]) hkey (.none hblanks) fun h => absurd rfl h
    rw [List.append_nil] at hlast
    exact .word hblanks hname hlast fun _ => starts_cons.2 (by decide)
  have hforms : Forms 1 (.name "cfg" :: List.map .text [key]) (.call ⟨"cfg", [key], 1⟩) := .call
  have haction : IsAction (1 + lineEnds []) false false (.call ⟨"cfg", [key], 1⟩) inner := by
    have hmarks : trimMark false ++ inner ++ trimMark false = inner := List.append_nil _
    rw [← hmarks]
    exact .intro hspread hforms (absurd · Bool.false_ne_true) (absurd · Bool.false_ne_true)
  have hcs : (placeholder key).toList = [] ++ '{' :: '{' :: inner ++ '}' :: '}' :: [] := by
    simp [placeholder, rawMark, inner]
  have hplain : Plain [] := plain_of_splitOpen rfl
  rw [parse, hcs, parseFrom_of_action leads_nil haction, parseFrom_of_plain hplain]
  rfl

/-- The keys of a chain. -/
def link (i : Nat) : String := String.ofList (List.replicate i 'a')

/-- The standard functions over a chain: every key up to the last is answered with a placeholder for
the next. -/
abbrev chained (last : Nat) : Registry Unit :=
  .answering (fun _ key => .ok (if key.length < last then placeholder (key ++ "a") else "end"))
    (fun _ w => (.ok "", w)) ⟨⟨[]⟩⟩

/-- The call of a key. -/
def asks (i : Nat) : Call := ⟨"cfg", [link i], 1⟩

/-- The keys of the chain hold no raw marks. -/
theorem rawMark_not_mem_link (i : Nat) : rawMark ∉ (link i).toList := by
  rw [link, String.toList_ofList, List.mem_replicate]
  rintro ⟨-, h⟩
  exact absurd h (by decide)

theorem length_link (i : Nat) : (link i).length = i := by
  rw [link, String.length_ofList, List.length_replicate]

/-- Each key of the chain is one letter longer than the one before. -/
theorem link_succ (i : Nat) : link i ++ "a" = link (i + 1) := by
  apply String.toList_injective
  rw [String.toList_append, link, link, String.toList_ofList, String.toList_ofList,
    List.replicate_succ']
  simp

/-- The keys of the chain are different. -/
theorem key_asks_inj {i j : Nat} (h : (asks i).key = (asks j).key) : i = j := by
  have hcolon : ':' ∉ "cfg".toList := by decide
  have hargument := (CallKey.of_inj hcolon hcolon h).2
  have hlink : link i = link j := by
    simpa [asks, Call.argumentKey] using hargument
  rw [← length_link i, hlink, length_link]

/-- The function that answers along the chain. -/
abbrev following (last : Nat) : Function Unit :=
  .lookup ⟨fun _ key w =>
    (.ok (if key.length < last then placeholder (key ++ "a") else "end"), w),
    fun _ w => (.ok "", w)⟩ .config

variable {last : Nat}

/-- Settings are looked up along the chain. -/
theorem get?_chained (last : Nat) : Table.get? "cfg" (chained last) = some (following last) := by
  rw [chained, Registry.answering, Registry.standard_eq]
  rfl

/-- Every key up to the last is answered with a placeholder for the next. -/
theorem call_following (i : Nat) (w : Unit) : ((following last).call (asks i).args w).1 =
    .ok (if i < last then placeholder (link (i + 1)) else "end") := by
  show Except.ok (if (link i).length < last then placeholder (link i ++ "a") else "end") = _
  rw [length_link, link_succ]

/-- A placeholder for a key is read as the call of it. -/
theorem read_link (last i : Nat) :
    (chained last).read (placeholder (link i)) = .ok [.call (asks i)] := by
  have hcheck : (chained last).checkNodes [.call (asks i)] = .ok () := by
    refine Registry.checkNodes_eq_ok_iff.2 fun c hc => ?_
    cases List.mem_singleton.1 hc
    exact Registry.accepts_iff.2 ⟨following last, get?_chained last, rfl⟩
  rw [Registry.read, parse_placeholder (rawMark_not_mem_link i)]
  dsimp only
  rw [← asks, hcheck]
  rfl

/-- The end of the chain is read as a text. -/
theorem read_end (last : Nat) : (chained last).read "end" = .ok [.text "end"] := by
  have hparse : parse "end" = .ok [.text "end"] := eq_ok_of_toOption (by decide +kernel)
  rw [Registry.read, hparse]
  rfl

/-- The calls of the chain from one up to another are new to a session. -/
def Fresh (i j : Nat) (s : Session Unit) : Prop :=
  ∀ k, i ≤ k → k < j → (asks k).key ∉ s.memo.keys ∧ (asks k).key ∉ s.memo.inFlight

/-- A call of the chain that is new to a session opens. -/
theorem Fresh.opens {i j : Nat} {s : Session Unit} (h : Fresh i j s) (hij : i < j) :
    Opens (chained last) (asks i) s (following last) where
  found := get?_chained last
  expands := rfl
  fresh := Memo.lookup_eq_none_iff.2 (h i (Nat.le_refl i) hij).1
  allowed := rfl
  grounded := (h i (Nat.le_refl i) hij).2

/-- The calls of the chain after one that is launched are still new. -/
theorem Fresh.launched {i j : Nat} {s : Session Unit} (h : Fresh i j s) (f : Function Unit) :
    Fresh (i + 1) j (s.launched (asks i) f) := by
  intro k hk hkj
  refine ⟨(h k (by omega) hkj).1, fun hmem => ?_⟩
  rcases List.mem_cons.1 hmem with he | hmem
  · have := key_asks_inj he
    omega
  · exact (h k (by omega) hkj).2 hmem

/-- What a placeholder of the chain comes to is what its call comes to. -/
theorem evaluate_link (n i : Nat) (s : Session Unit) :
    evaluate (chained last) n (placeholder (link i)) s =
      (.ok (invokeAt (chained last) n (asks i) s).1, (invokeAt (chained last) n (asks i) s).2) := by
  rw [evaluate_of_read_ok (read_link last i)]
  simp [writeNodes, String.join]

/-- A call that is new goes on to the next one. -/
theorem invokeAt_asks {n i : Nat} {s : Session Unit} (hi : i < last)
    (ho : Opens (chained last) (asks i) s (following last)) :
    invokeAt (chained last) (n + 1) (asks i) s =
      ((invokeAt (chained last) n (asks (i + 1)) (s.launched (asks i) (following last))).2.complete
        (asks i).key
        (invokeAt (chained last) n (asks (i + 1)) (s.launched (asks i) (following last))).1
        (invokeAt (chained last) n (asks (i + 1))
          (s.launched (asks i) (following last))).2.errors[s.errors.length]?) := by
  rw [invokeAt_of_opens ho, call_following, if_pos hi]
  dsimp only
  rw [evaluate_link]

/-- A chain that is longer than expansions may nest is cut off. -/
theorem errors_of_cutOff {n i : Nat} {s : Session Unit} (hlast : i + n ≤ last)
    (hfresh : Fresh i (i + n + 1) s) :
    (invokeAt (chained last) n (asks i) s).2.errors =
      s.errors ++ [.tooDeep (asks (i + n)).key.text maxDepth] := by
  induction n generalizing i s with
  | zero =>
    have ho : Opens (chained last) (asks i) s (following last) := hfresh.opens (by omega)
    simp only [invokeAt, invoke, ho.found, ho.expands, ho.fresh, ho.allowed, expansion?,
      Bool.not_true, Bool.false_eq_true, if_false]
    rfl
  | succ n ih =>
    have ho : Opens (chained last) (asks i) s (following last) := hfresh.opens (by omega)
    have hnext : Fresh (i + 1) (i + 1 + n + 1) (s.launched (asks i) (following last)) := by
      rw [Nat.add_right_comm i 1 n]
      exact hfresh.launched _
    have hrest := ih (by omega) hnext
    rw [launched_errors, Nat.add_assoc, Nat.add_comm 1 n] at hrest
    rw [invokeAt_asks (by omega) ho, Session.complete]
    exact hrest

/-- A call of the chain that is remembered comes to what is remembered. -/
theorem invokeAt_of_remembered {n i : Nat} {s : Session Unit} {v : String}
    (h : s.memo.lookup (asks i).key = some ⟨v, none⟩) :
    invokeAt (chained last) n (asks i) s = (v, s) := by
  rw [invokeAt_of_lookup (get?_chained last) rfl h, replay, Option.toList_none, List.append_nil]

/-- A call of the chain comes to its end, without an error, if there is headroom up to one that is
remembered or up to the last. -/
theorem invokeAt_of_known {n i j : Nat} {s : Session Unit} (hij : i ≤ j) (hjn : j ≤ i + n)
    (hlast : i ≤ last) (herrors : s.errors = []) (hfresh : Fresh i j s)
    (hknown : j = last + 1 ∨ s.memo.lookup (asks j).key = some ⟨"end", none⟩) :
    ∃ s', invokeAt (chained last) n (asks i) s = ("end", s') ∧ s'.errors = [] ∧
      s'.memo.lookup (asks i).key = some ⟨"end", none⟩ := by
  induction n generalizing i s with
  | zero =>
    obtain rfl : i = j := by omega
    have hknown := hknown.resolve_left (by omega)
    exact ⟨s, invokeAt_of_remembered hknown, herrors, hknown⟩
  | succ n ih =>
    by_cases hhere : i = j
    · subst hhere
      have hknown := hknown.resolve_left (by omega)
      exact ⟨s, invokeAt_of_remembered hknown, herrors, hknown⟩
    have ho : Opens (chained last) (asks i) s (following last) := hfresh.opens (by omega)
    -- The call is finished with the end, and with no error, once what it returns comes to that.
    have hfinish : ∀ s' : Session Unit, s'.errors = [] →
        ∃ s'', s'.complete (asks i).key "end" s'.errors[s.errors.length]? = ("end", s'') ∧
          s''.errors = [] ∧ s''.memo.lookup (asks i).key = some ⟨"end", none⟩ := by
      intro s' hs'
      rw [hs', List.getElem?_nil]
      exact ⟨_, rfl, hs', Memo.lookup_finish_self _ _ _⟩
    by_cases hlt : i < last
    · obtain ⟨s', he, hs', -⟩ := ih (s := s.launched (asks i) (following last)) (by omega)
        (by omega) (by omega) herrors (hfresh.launched _) hknown
      rw [invokeAt_asks hlt ho, he]
      exact hfinish s' hs'
    · have hend : hasPlaceholder "end" = false := by decide
      rw [invokeAt_of_opens ho, call_following, if_neg hlt]
      dsimp only
      rw [evaluate_of_not_hasPlaceholder hend]
      exact hfinish _ herrors

/-- Texts that start in the chain at some key lead to later keys only. -/
theorem closed_chained (last i : Nat) :
    (chained last).Closed fun r => ∃ j, i ≤ j ∧ r = (asks j).reference := by
  rintro r f w raw nodes c ⟨j, hj, rfl⟩ hf - hraw hread hc
  obtain rfl : following last = f := Option.some.inj ((get?_chained last).symm.trans hf)
  have hraw : _ = Except.ok raw := (call_following j w).symm.trans hraw
  obtain rfl := Except.ok.inj hraw
  by_cases hlt : j < last
  · rw [if_pos hlt, read_link, Except.ok.injEq] at hread
    subst hread
    cases List.mem_singleton.1 hc
    exact ⟨j + 1, by omega, rfl⟩
  · rw [if_neg hlt, read_end, Except.ok.injEq] at hread
    subst hread
    cases List.mem_singleton.1 hc

/-- A document that asks for two keys of the chain. -/
def asking (i j : Nat) : Json.Value :=
  .list [.text (placeholder (link i)), .text (placeholder (link j))]

theorem reordered_asking (i j : Nat) : Reordered (asking i j) (asking j i) :=
  .items (List.Perm.swap _ _ [])

/-- Nothing is uploaded along the chain. -/
theorem not_upload_asking (i j n : Nat) (c : Call) (s : Session Unit)
    (h : (Subject.thing (asking i j)).Visits (chained last) () n c s) : c.name ≠ "upload" := by
  have hchain : ∃ k, 0 ≤ k ∧ c.reference = (asks k).reference := by
    refine h.of_closed (closed_chained last 0) fun t ht nodes c hread hc => ?_
    have ht : t ∈ [placeholder (link i), placeholder (link j)] := ht
    obtain ⟨k, rfl⟩ : ∃ k, t = placeholder (link k) := by
      rw [List.mem_cons, List.mem_singleton] at ht
      exact ht.elim (⟨i, ·⟩) (⟨j, ·⟩)
    rw [read_link, Except.ok.injEq] at hread
    subst hread
    cases List.mem_singleton.1 hc
    exact ⟨k, Nat.zero_le k, rfl⟩
  obtain ⟨k, -, href⟩ := hchain
  have hname : c.name = "cfg" := congrArg Reference.name href
  rw [hname]
  decide

/-- The session of a document that asks for two keys makes the two calls one after the other. -/
theorem renderAll_asking (i j : Nat) : renderAll (chained last) (asking i j) () =
    let first := invokeAt (chained last) maxDepth (asks i) (start ())
    let second := invokeAt (chained last) maxDepth (asks j) first.2
    ending (.list [.text first.1, .text second.1], second.2) := by
  have hleaf (k : Nat) (s : Session Unit) :
      (renderLeaf (chained last) (placeholder (link k))).run s =
        invokeAt (chained last) maxDepth (asks k) s := by
    rw [renderLeaf_of_evaluate (evaluate_link maxDepth k s)]
  dsimp only
  rw [← hleaf i, ← hleaf j]
  rfl

/-- A document that asks for the start of a chain that is too long first is cut off there. -/
theorem result_asking_start (hlast : maxDepth ≤ last) (j : Nat) :
    (renderAll (chained last) (asking 0 j) ()).1.result =
      .error (.tooDeep (asks maxDepth).key.text maxDepth) := by
  have hfresh : Fresh 0 (0 + maxDepth + 1) (start ()) :=
    fun k _ _ => ⟨List.not_mem_nil, List.not_mem_nil⟩
  have hfirst : (invokeAt (chained last) maxDepth (asks 0) (start ())).2.errors =
      [.tooDeep (asks (0 + maxDepth)).key.text maxDepth] :=
    errors_of_cutOff (by omega) hfresh
  rw [Nat.zero_add] at hfirst
  obtain ⟨rest, hrest⟩ := (extends_invokeAt (chained last) maxDepth (asks j)
    (invokeAt (chained last) maxDepth (asks 0) (start ())).2).errors
  rw [renderAll_asking]
  simp only [ending, ← hrest, hfirst]
  rfl

/-- What was evaluated for a key of the chain has that key or a later one. -/
theorem fresh_before (last i : Nat) :
    Fresh 0 i (invokeAt (chained last) maxDepth (asks i) (start ())).2 := by
  have hsession : (Subject.text (placeholder (link i))).session (chained last) () =
      (invokeAt (chained last) maxDepth (asks i) (start ())).2 := by
    rw [Subject.session, renderText, evaluate_link]
  rw [← hsession]
  refine fun k _ hki => ⟨fun hmem => ?_, fun hmem => ?_⟩
  · obtain ⟨⟨key, o⟩, ho, hkey⟩ := List.mem_map.1 hmem
    obtain ⟨m, d, s, f, hv, -, hd, -⟩ := Subject.written ho
    have hlater : ∃ j, i ≤ j ∧ d.reference = (asks j).reference := by
      refine hv.of_closed (closed_chained last i) fun t ht nodes c hread hc => ?_
      obtain rfl := List.mem_singleton.1 ht
      rw [read_link, Except.ok.injEq] at hread
      subst hread
      cases List.mem_singleton.1 hc
      exact ⟨i, Nat.le_refl i, rfl⟩
    obtain ⟨j, hij, href⟩ := hlater
    have hsame : (asks j).key = (asks k).key :=
      (congrArg Reference.key href).symm.trans (hd.trans hkey)
    have := key_asks_inj hsame
    omega
  · rw [(Subject.extends_session _).inFlight] at hmem
    exact List.not_mem_nil hmem

/-- Where it asks for a later key before, and neither part is too long, it is resolved. -/
theorem result_asking_later {i : Nat} (hi : i ≤ maxDepth) (hlast : last < i + maxDepth)
    (hil : i ≤ last) : (renderAll (chained last) (asking i 0) ()).1.result =
      .ok (.list [.text "end", .text "end"]) := by
  have hstart : Fresh i (last + 1) (start ()) :=
    fun k _ _ => ⟨List.not_mem_nil, List.not_mem_nil⟩
  obtain ⟨s, hs, herrors, hknown⟩ := invokeAt_of_known (n := maxDepth) (by omega) (by omega) hil rfl
    hstart (.inl rfl)
  have hfresh : Fresh 0 i s := by
    have := fresh_before last i
    rwa [hs] at this
  obtain ⟨s', hs', herrors', -⟩ := invokeAt_of_known (n := maxDepth) (Nat.zero_le i) (by omega)
    (Nat.zero_le last) herrors hfresh (.inr hknown)
  rw [renderAll_asking]
  simp only [hs, hs', ending, herrors']
  rfl

/-- A document that is resolved in one order, and cut short in the other. -/
theorem resolved_in_any_order_asking :
    (renderAll (chained 130) (asking 100 0) ()).1.result =
        .ok (.list [.text "end", .text "end"]) ∧
      CutShort (chained 130) () (asking 0 100) := by
  have hok : (renderAll (chained 130) (asking 100 0) ()).1.result =
      .ok (.list [.text "end", .text "end"]) :=
    result_asking_later (by decide) (by decide) (by decide)
  have hcut : (renderAll (chained 130) (asking 0 100) ()).1.result = .error _ :=
    result_asking_start (by decide) 100
  refine ⟨hok, ?_⟩
  rcases (resolved_in_any_order _ _ _ () (reordered_asking 100 0) (not_upload_asking 100 0)).1 _ hok
    with ⟨value, -, h⟩ | hshort
  · cases hcut.symm.trans h
  · exact hshort

/-- Where the order of a document alone decides whether it is resolved. -/
theorem order_decides_depth :
    Reordered (asking 100 0) (asking 0 100) ∧
      (∀ n c s, (Subject.thing (asking 100 0)).Visits (chained 130) () n c s →
        c.name ≠ "upload") ∧
      (renderAll (chained 130) (asking 100 0) ()).1.result =
        .ok (.list [.text "end", .text "end"]) ∧
      (renderAll (chained 130) (asking 0 100) ()).1.result =
        .error (.tooDeep (asks maxDepth).key.text maxDepth) :=
  ⟨reordered_asking 100 0, not_upload_asking 100 0,
    result_asking_later (by decide) (by decide) (by decide), result_asking_start (by decide) 100⟩

end

end Stencil.Template
