import Stencil.Template.Memo

/-!
# The tokens of a memo

Whoever begins a call gets a token, and ends the call by handing the token back, once or never. A
memo knows neither tokens nor what happened to it. But whatever is asked of it, it tells of every
key whether a call of it was begun and has not ended, which only one can, and what the call of it
that ended last has come to.
-/

namespace Stencil.Template

namespace Memo

/-- A call that is under way does not begin. -/
theorem begin?_of_mem {memo : Memo} {key : CallKey} (h : key ∈ memo.inFlight) :
    memo.begin? key = .error (.cyclic key.text) :=
  if_pos (List.contains_iff_mem.2 h)

/-- A call that is not under way begins, and is then under way. -/
theorem begin?_of_not_mem {memo : Memo} {key : CallKey} (h : key ∉ memo.inFlight) :
    memo.begin? key = .ok { memo with inFlight := key :: memo.inFlight } :=
  if_neg (mt List.contains_iff_mem.1 h)

/-! ## Memos in use -/

/-- What is given out for a call that was begun: a number of its own, and the key of the call. -/
structure Token where
  number : Nat
  key : CallKey

/-- What happens to a memo. -/
inductive Event where
  | began (token : Token)
  | refused (key : CallKey)
  | ended (token : Token) (outcome : Outcome)

/-- What is asked of a memo: to begin a call, to end the call of a token with what it has come to,
and what a call has come to. -/
inductive Request where
  | start (key : CallKey)
  | finish (number : Nat) (outcome : Outcome)
  | lookup (key : CallKey)

/-- A memo, the tokens that were given out and not handed back, the number of the next one, and what
has happened, the latest first. -/
structure Use where
  memo : Memo
  held : List Token
  next : Nat
  events : List Event

namespace Use

/-- The use of a memo starts with an empty one. -/
def fresh : Use := ⟨empty, [], 0, []⟩

/-- The token of a number, if it was not handed back. -/
def token? (u : Use) (number : Nat) : Option Token :=
  u.held.find? (·.number == number)

/-- A call of a key has begun, which makes another memo of it. -/
def started (u : Use) (key : CallKey) (memo : Memo) : Use where
  memo := memo
  held := ⟨u.next, key⟩ :: u.held
  next := u.next + 1
  events := .began ⟨u.next, key⟩ :: u.events

/-- The call of a token has ended. -/
def finished (u : Use) (t : Token) (outcome : Outcome) : Use where
  memo := u.memo.finish t.key outcome
  held := u.held.filter (·.number != t.number)
  next := u.next
  events := .ended t outcome :: u.events

/-- What a request makes of a memo in use. A token that was handed back ends nothing. -/
def step (u : Use) : Request → Use
  | .start key =>
    match u.memo.begin? key with
    | .error _ => { u with events := .refused key :: u.events }
    | .ok memo => u.started key memo
  | .finish number outcome =>
    match u.token? number with
    | none => u
    | some t => u.finished t outcome
  | .lookup _ => u

/-- A memo in use after some requests. -/
def run (requests : List Request) : Use := requests.foldl step fresh

/-! ## What has happened -/

/-- A call that was begun and has not ended, be its token lost or not. -/
def Unfinished (u : Use) (t : Token) : Prop :=
  .began t ∈ u.events ∧ ∀ outcome, .ended t outcome ∉ u.events

/-- What the calls of a key that ended have come to, the latest first. -/
def outcomes (u : Use) (key : CallKey) : List Outcome :=
  u.events.filterMap fun
    | .ended t outcome => if t.key = key then some outcome else none
    | _ => none

/-- The key that a request is about. -/
def keyOf (u : Use) : Request → Option CallKey
  | .start key => some key
  | .finish number _ => (u.token? number).map (·.key)
  | .lookup key => some key

/-! ## What a request keeps -/

/-- The tokens that are held are those of the unfinished calls, the keys under way are theirs, and
what is remembered are the outcomes of the calls that ended. -/
structure Regular (u : Use) : Prop where
  held : ∀ t, t ∈ u.held ↔ u.Unfinished t
  numbered : ∀ t, .began t ∈ u.events → t.number < u.next
  distinct : ∀ t t', .began t ∈ u.events → .began t' ∈ u.events → t.number = t'.number → t = t'
  begun : ∀ t outcome, .ended t outcome ∈ u.events → .began t ∈ u.events
  single : ∀ t t', u.Unfinished t → u.Unfinished t' → t.key = t'.key → t = t'
  inFlight : ∀ key, key ∈ u.memo.inFlight ↔ ∃ t, u.Unfinished t ∧ t.key = key
  lookup : ∀ key, u.memo.lookup key = (u.outcomes key).head?

/-- The use of a memo starts regularly. -/
theorem regular_fresh : fresh.Regular where
  held _ := ⟨nofun, fun h => absurd h.1 List.not_mem_nil⟩
  numbered _ h := absurd h List.not_mem_nil
  distinct _ _ h := absurd h List.not_mem_nil
  begun _ _ h := absurd h List.not_mem_nil
  single _ _ h := absurd h.1 List.not_mem_nil
  inFlight _ := ⟨nofun, fun ⟨_, h, _⟩ => absurd h.1 List.not_mem_nil⟩
  lookup _ := rfl

variable {u : Use} {key : CallKey} {t : Token}

/-! ### Beginning a call -/

/-- A request to begin a call that is under way is refused. -/
theorem step_start_of_mem (h : key ∈ u.memo.inFlight) :
    u.step (.start key) = { u with events := .refused key :: u.events } := by
  rw [step, begin?_of_mem h]

/-- A request to begin a call that is not under way starts it. -/
theorem step_start_of_not_mem (h : key ∉ u.memo.inFlight) :
    u.step (.start key) =
      u.started key { u.memo with inFlight := key :: u.memo.inFlight } := by
  rw [step, begin?_of_not_mem h]

/-- A refusal is no event of any token. -/
theorem Regular.refused (h : u.Regular) (key : CallKey) :
    Regular { u with events := .refused key :: u.events } := by
  have hunfinished (t : Token) :
      Unfinished { u with events := .refused key :: u.events } t ↔ u.Unfinished t := by
    simp [Unfinished]
  refine ⟨fun t => ?_, ?_, ?_, ?_, ?_, fun key => ?_, h.lookup⟩
  · rw [hunfinished, h.held]
  · simpa using h.numbered
  · simpa using h.distinct
  · simpa using h.begun
  · simpa only [hunfinished] using h.single
  · simp only [hunfinished, h.inFlight]

section

variable (memo : Memo)

/-- Starting a call begins that with the next token. -/
theorem began_mem_started : .began t ∈ (u.started key memo).events ↔
    t = ⟨u.next, key⟩ ∨ .began t ∈ u.events := by
  simp [started]

/-- Starting a call ends none. -/
theorem ended_mem_started {outcome : Outcome} :
    .ended t outcome ∈ (u.started key memo).events ↔ .ended t outcome ∈ u.events := by
  simp [started]

/-- The number of a new token was not given out before. -/
theorem Regular.not_began (h : u.Regular) (key : CallKey) : .began ⟨u.next, key⟩ ∉ u.events :=
  fun hmem => Nat.lt_irrefl _ (h.numbered _ hmem)

/-- A call that is started is unfinished beside the others. -/
theorem Regular.unfinished_started (h : u.Regular) :
    (u.started key memo).Unfinished t ↔ t = ⟨u.next, key⟩ ∨ u.Unfinished t := by
  simp only [Unfinished, began_mem_started, ended_mem_started]
  constructor
  · rintro ⟨hb, he⟩
    exact hb.imp_right fun hb => ⟨hb, he⟩
  · rintro (rfl | ⟨hb, he⟩)
    · exact ⟨.inl rfl, fun outcome he => h.not_began key (h.begun _ _ he)⟩
    · exact ⟨.inr hb, he⟩

end

/-- Starting a call that is not under way keeps the use of a memo regular. -/
theorem Regular.started (h : u.Regular) (hk : key ∉ u.memo.inFlight) :
    (u.started key { u.memo with inFlight := key :: u.memo.inFlight }).Regular := by
  -- No unfinished call had the key before.
  have hnew {t : Token} (ht : u.Unfinished t) : t.key ≠ key := fun heq =>
    hk ((h.inFlight key).2 ⟨t, ht, heq⟩)
  refine ⟨fun t => ?_, fun t hb => ?_, fun t t' hb hb' hn => ?_, fun t outcome he => ?_,
    fun t t' ht ht' hkey => ?_, fun key' => ?_, h.lookup⟩
  · rw [h.unfinished_started, ← h.held]
    exact List.mem_cons
  · rcases (began_mem_started _).1 hb with rfl | hb
    · exact Nat.lt_succ_self _
    · exact Nat.lt_succ_of_lt (h.numbered t hb)
  · rcases (began_mem_started _).1 hb with rfl | hb <;>
      rcases (began_mem_started _).1 hb' with rfl | hb'
    · rfl
    · exact absurd hn.symm (Nat.ne_of_lt (h.numbered t' hb'))
    · exact absurd hn (Nat.ne_of_lt (h.numbered t hb))
    · exact h.distinct t t' hb hb' hn
  · exact (began_mem_started _).2 (.inr (h.begun t outcome ((ended_mem_started _).1 he)))
  · rcases (h.unfinished_started _).1 ht with rfl | ht <;>
      rcases (h.unfinished_started _).1 ht' with rfl | ht'
    · rfl
    · exact absurd hkey.symm (hnew ht')
    · exact absurd hkey (hnew ht)
    · exact h.single t t' ht ht' hkey
  · simp only [h.unfinished_started, or_and_right, exists_or, exists_eq_left, ← h.inFlight]
    exact List.mem_cons.trans (or_congr_left eq_comm)

/-! ### Ending a call -/

theorem mem_of_token? {number : Nat} (h : u.token? number = some t) : t ∈ u.held :=
  List.mem_of_find?_eq_some h

section

variable {outcome : Outcome} {t' : Token}

theorem began_mem_finished : .began t' ∈ (u.finished t outcome).events ↔ .began t' ∈ u.events := by
  simp [finished]

/-- Ending a call ends that with its outcome. -/
theorem ended_mem_finished {outcome' : Outcome} :
    .ended t' outcome' ∈ (u.finished t outcome).events ↔
      (t' = t ∧ outcome' = outcome) ∨ .ended t' outcome' ∈ u.events := by
  simp [finished]

/-- A call that ended is no longer unfinished, and the others are as before. -/
theorem unfinished_finished :
    (u.finished t outcome).Unfinished t' ↔ t' ≠ t ∧ u.Unfinished t' := by
  simp only [Unfinished, began_mem_finished, ended_mem_finished, not_or, not_and]
  constructor
  · rintro ⟨hb, he⟩
    exact ⟨fun heq => (he outcome).1 heq rfl, hb, fun o => (he o).2⟩
  · rintro ⟨hne, hb, he⟩
    exact ⟨hb, fun o => ⟨fun heq => absurd heq hne, he o⟩⟩

/-- Ending a call adds its outcome to those of its key. -/
theorem outcomes_finished : (u.finished t outcome).outcomes key =
    if t.key = key then outcome :: u.outcomes key else u.outcomes key := by
  by_cases hkey : t.key = key
  · rw [if_pos hkey, outcomes, finished]
    exact List.filterMap_cons_some (if_pos hkey)
  · rw [if_neg hkey, outcomes, finished]
    exact List.filterMap_cons_none (if_neg hkey)

end

/-- Ending an unfinished call keeps the use of a memo regular. -/
theorem Regular.finished (h : u.Regular) (ht : u.Unfinished t) (outcome : Outcome) :
    (u.finished t outcome).Regular := by
  -- Numbers are never used twice, so the token that is given back is that of this call alone.
  refine ⟨fun t' => ?_, fun t' hb => h.numbered t' (began_mem_finished.1 hb),
    fun t' t'' hb hb' => h.distinct t' t'' (began_mem_finished.1 hb) (began_mem_finished.1 hb'),
    fun t' outcome' he => ?_, fun t' t'' ht' ht'' => ?_, fun key => ?_, fun key => ?_⟩
  · rw [unfinished_finished, ← h.held, Use.finished, List.mem_filter, bne_iff_ne, and_comm]
    refine and_congr_left fun ht' => not_congr ⟨fun hn => ?_, congrArg Token.number⟩
    exact h.distinct t' t ((h.held t').1 ht').1 ht.1 hn
  · rcases ended_mem_finished.1 he with ⟨rfl, -⟩ | he
    · exact began_mem_finished.2 ht.1
    · exact began_mem_finished.2 (h.begun t' outcome' he)
  · exact h.single t' t'' (unfinished_finished.1 ht').2 (unfinished_finished.1 ht'').2
  · simp only [unfinished_finished]
    rw [Use.finished, finish, List.mem_filter, h.inFlight, bne_iff_ne]
    constructor
    · rintro ⟨⟨t', ht', rfl⟩, hne⟩
      exact ⟨t', ⟨fun heq => hne (congrArg Token.key heq), ht'⟩, rfl⟩
    · rintro ⟨t', ⟨hne, ht'⟩, rfl⟩
      exact ⟨⟨t', ht', rfl⟩, fun heq => hne (h.single t' t ht' ht heq)⟩
  · rw [outcomes_finished, Use.finished]
    split
    · rename_i hkey
      rw [← hkey, lookup_finish_self]
      rfl
    · rename_i hkey
      rw [lookup_finish_of_ne _ (Ne.symm hkey), h.lookup]

/-- Every request keeps the use of a memo regular. -/
theorem Regular.step (h : u.Regular) (request : Request) : (u.step request).Regular := by
  cases request with
  | start key =>
    by_cases hk : key ∈ u.memo.inFlight
    · rw [step_start_of_mem hk]
      exact h.refused key
    · rw [step_start_of_not_mem hk]
      exact h.started hk
  | finish number outcome =>
    cases ht : u.token? number with
    | none =>
      rw [Use.step, ht]
      exact h
    | some t =>
      rw [Use.step, ht]
      exact h.finished ((h.held t).1 (mem_of_token? ht)) outcome
  | lookup key => exact h

/-- A memo in use is regular after any requests. -/
theorem regular_run (requests : List Request) : (run requests).Regular := by
  suffices hall : ∀ u : Use, u.Regular → (requests.foldl Use.step u).Regular from
    hall fresh regular_fresh
  induction requests with
  | nil => exact fun u h => h
  | cons request rest ih => exact fun u h => ih _ (h.step request)

/-! ## What a memo tells -/

/-- A request about another key changes nothing that a memo tells of a key. -/
theorem step_apart {request : Request} (hk : u.keyOf request ≠ some key) :
    (u.step request).memo.isCyclic key = u.memo.isCyclic key ∧
      (u.step request).memo.lookup key = u.memo.lookup key := by
  cases request with
  | start other =>
    -- Only the key that is asked about gets in flight, and only if it is not already.
    have hne : key ≠ other := fun heq => hk (congrArg some heq.symm)
    by_cases hin : other ∈ u.memo.inFlight
    · rw [step_start_of_mem hin]
      exact ⟨rfl, rfl⟩
    · rw [step_start_of_not_mem hin]
      refine ⟨?_, rfl⟩
      rw [isCyclic, isCyclic, Use.started, List.contains_cons, beq_eq_false_iff_ne.2 hne,
        Bool.false_or]
  | finish number outcome =>
    rw [keyOf] at hk
    rw [Use.step]
    cases ht : u.token? number with
    | none => exact ⟨rfl, rfl⟩
    | some t =>
      have hne : key ≠ t.key := by
        rintro rfl
        rw [ht] at hk
        exact hk rfl
      refine ⟨?_, lookup_finish_of_ne u.memo hne outcome⟩
      dsimp only
      rw [Use.finished, isCyclic_finish, bne_iff_ne.2 hne, Bool.and_true]
  | lookup other => exact ⟨rfl, rfl⟩

/-- What a memo tells of all that has happened. -/
structure Tells (u : Use) : Prop where
  /-- Of the calls of a key only one can be unfinished. -/
  single : ∀ t t', u.Unfinished t → u.Unfinished t' → t.key = t'.key → t = t'
  /-- A key is under way exactly if a call of it is unfinished. -/
  cyclic : ∀ key, u.memo.isCyclic key = true ↔ ∃ t, u.Unfinished t ∧ t.key = key
  /-- Exactly then another call of it is refused as a cycle, and leaves the memo as it is. -/
  refused : ∀ key, (∃ t, u.Unfinished t ∧ t.key = key) →
    u.memo.begin? key = .error (.cyclic key.text) ∧ (u.step (.start key)).memo = u.memo
  /-- Otherwise it begins. -/
  begun : ∀ key, (¬ ∃ t, u.Unfinished t ∧ t.key = key) →
    ∃ memo t, u.memo.begin? key = .ok memo ∧ (u.step (.start key)).memo = memo ∧
      (u.step (.start key)).Unfinished t ∧ t.key = key
  /-- What a memo answers for a key is what the call of it that ended last has come to. -/
  lookup : ∀ key, u.memo.lookup key = (u.outcomes key).head?
  /-- What it tells of a key stays as it is while requests are about other keys. -/
  apart : ∀ request key, u.keyOf request ≠ some key →
    (u.step request).memo.isCyclic key = u.memo.isCyclic key ∧
      (u.step request).memo.lookup key = u.memo.lookup key

/-- A memo whose use is regular tells all that has happened. -/
theorem Regular.tells (h : u.Regular) : u.Tells where
  single := h.single
  cyclic key := List.contains_iff_mem.trans (h.inFlight key)
  refused key hk := by
    have hin := (h.inFlight key).2 hk
    exact ⟨begin?_of_mem hin, by rw [step_start_of_mem hin]⟩
  begun key hk := by
    have hin : key ∉ u.memo.inFlight := mt (h.inFlight key).1 hk
    rw [step_start_of_not_mem hin]
    exact ⟨_, ⟨u.next, key⟩, begin?_of_not_mem hin, rfl,
      (h.unfinished_started _).2 (.inl rfl), rfl⟩
  lookup := h.lookup
  apart _ _ := step_apart

/-- Whatever is asked of a memo, with every token handed back once or never, it tells at any time of
each key whether a call of it is unfinished, and what the last one that ended has come to. -/
theorem tells_at_any_time (requests : List Request) : (run requests).Tells :=
  (regular_run requests).tells

end Use

end Memo

end Stencil.Template
