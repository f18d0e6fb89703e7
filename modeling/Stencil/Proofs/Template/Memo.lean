import Mathlib.Data.List.Nodup
import Stencil.Template.Memo

/-!
# The memo as a list of writings

The outcomes of a memo are everything that was ever written to it, newest first. So a key was
written at most once if it occurs at most once among them, and a memo never changed what it holds if
its outcomes are the end of a later memo's.
-/

namespace Stencil.Template.Memo

/-- The keys of the outcomes, newest first. -/
def keys (memo : Memo) : List CallKey := memo.outcomes.map (·.1)

@[simp] theorem keys_finish (memo : Memo) (key : CallKey) (outcome : Outcome) :
    (memo.finish key outcome).keys = key :: memo.keys := rfl

/-- A key has no outcome if it was never written. -/
theorem lookup_eq_none_iff {memo : Memo} {key : CallKey} :
    memo.lookup key = none ↔ key ∉ memo.keys := by
  simp only [lookup, keys, Option.map_eq_none_iff, List.find?_eq_none, List.mem_map, beq_iff_eq]
  refine ⟨fun h => ?_, fun h o ho hk => h ⟨o, ho, hk⟩⟩
  rintro ⟨o, ho, hk⟩
  exact h o ho hk

/-- What a memo answers was written to it. -/
theorem mem_of_lookup {memo : Memo} {key : CallKey} {outcome : Outcome}
    (h : memo.lookup key = some outcome) : (key, outcome) ∈ memo.outcomes := by
  obtain ⟨⟨k, o⟩, hf, rfl⟩ := Option.map_eq_some_iff.1 h
  have hk : k = key := by simpa using List.find?_some hf
  subst hk
  exact List.mem_of_find?_eq_some hf

/-- If no key was written twice, a memo answers everything that was written to it. -/
theorem lookup_of_mem {memo : Memo} (hn : memo.keys.Nodup) {key : CallKey} {outcome : Outcome}
    (h : (key, outcome) ∈ memo.outcomes) : memo.lookup key = some outcome := by
  cases hl : memo.lookup key with
  | none => exact absurd (List.mem_map_of_mem h) (lookup_eq_none_iff.1 hl)
  | some o =>
    have hm := mem_of_lookup hl
    have := List.inj_on_of_nodup_map hn hm h rfl
    rw [(Prod.mk.inj this).2]

/-- Where no key was written twice, a writing lies in every part of the outcomes that holds its
key. -/
theorem suffix_of_mem {key : CallKey} {outcome : Outcome}
    {rest part outcomes : List (CallKey × Outcome)} (hn : (outcomes.map (·.1)).Nodup)
    (h : (key, outcome) :: rest <:+ outcomes) (hpart : part <:+ outcomes)
    (hk : key ∈ part.map (·.1)) : (key, outcome) :: rest <:+ part := by
  rcases List.suffix_or_suffix_of_suffix h hpart with hin | hover
  · exact hin
  rcases List.suffix_cons_iff.1 hover with rfl | htail
  · exact List.suffix_rfl
  · -- Otherwise the key was there before it was written, and so was written twice.
    have hkeys := (h.map (·.1)).sublist.nodup hn
    rw [List.map_cons, List.nodup_cons] at hkeys
    exact absurd ((htail.map (·.1)).subset hk) hkeys.1

/-- Ending the flight of the key that was put in flight last restores the keys in flight. -/
theorem filter_inFlight {key : CallKey} {keys : List CallKey} (h : key ∉ keys) :
    (key :: keys).filter (· != key) = keys := by
  rw [List.filter_cons_of_neg (by simp)]
  refine List.filter_eq_self.2 fun k hk => ?_
  simp only [bne_iff_ne, ne_eq]
  rintro rfl
  exact h hk

end Stencil.Template.Memo
