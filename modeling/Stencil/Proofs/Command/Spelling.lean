import Mathlib.Tactic.SplitIfs
import Stencil.Command.Request

/-!
# Shared options in front of others

The options that every command shares are read alike at every level, whatever options of its own and
whatever commands a level has: none of these can be mistaken for them. So the same shared options
may stand before and after the name of any command, and whatever follows them is read after them.
-/

namespace Stencil.Command

/-- Options that cannot be mistaken for shared ones. -/
def Apart (own : List Declared) : Prop :=
  ∀ e ∈ own, ∀ d ∈ shared, e.long ≠ d.long ∧ (e.short = none ∨ e.short ≠ d.short)

instance (own : List Declared) : Decidable (Apart own) :=
  inferInstanceAs (Decidable (∀ e ∈ own, ∀ d ∈ shared, _))

/-- A level that takes nothing but shared options. -/
def sharedLevel : Level := level [] [] [] false

/-! ## What reading leaves -/

/-- What was given before and after, where nothing but shared options came in between. -/
structure Given.Beside (g g' : Given) : Prop where
  parts : g'.parts = g.parts
  value : ∀ long, (∀ d ∈ shared, d.long ≠ long) → g'.value? long = g.value? long

namespace Given

variable {g g' g'' : Given} {d : Declared} {value : String}

theorem Beside.refl (g : Given) : g.Beside g := ⟨rfl, fun _ _ => rfl⟩

theorem Beside.trans (h : g.Beside g') (h' : g'.Beside g'') : g.Beside g'' :=
  ⟨h'.parts.trans h.parts, fun long hlong => (h'.value long hlong).trans (h.value long hlong)⟩

/-- What was given, with one more option. -/
def holding (g : Given) (long value : String) : Given :=
  { g with options := Table.insert long value g.options }

theorem value?_holding_self (g : Given) (long value : String) :
    (g.holding long value).value? long = some value := Table.get?_insert_self long value g.options

/-- Holding something for an option leaves the values of the others. -/
theorem value?_holding_of_ne (g : Given) {long other : String} (h : other ≠ long) (value : String) :
    (g.holding long value).value? other = g.value? other :=
  Table.get?_insert_of_ne h value g.options

/-- An option that something is held for is there. -/
theorem has_holding_self (g : Given) (long value : String) :
    (g.holding long value).has long = true :=
  congrArg Option.isSome (g.value?_holding_self long value)

/-- Holding something for an option does not make another one be there. -/
theorem has_holding_of_ne (g : Given) {long other : String} (h : other ≠ long) (value : String) :
    (g.holding long value).has other = g.has other :=
  congrArg Option.isSome (g.value?_holding_of_ne h value)

/-- An option that is not there may be added. -/
theorem add_eq_ok (h : g.value? d.long = none) (value : String) :
    g.add d value = .ok (g.holding d.long value) := by
  unfold add
  rw [show Table.get? d.long g.options = none from h]
  rfl

/-- Adding a shared option is beside what was given before. -/
theorem beside_add (hd : d ∈ shared) (h : g.add d value = .ok g') : g.Beside g' := by
  unfold add at h
  split at h
  · cases h
  · obtain rfl := Except.ok.inj h
    refine ⟨rfl, fun long hlong => ?_⟩
    exact Table.get?_insert_of_ne (fun heq => hlong d hd heq.symm) value g.options

end Given

/-! ## Wider levels -/

namespace Level

/-- A level that finds every shared option, and whose commands are not spelled like options. -/
structure Wide (wide : Level) : Prop where
  long : ∀ {name d}, shared.find? (·.long == name) = some d →
    wide.declared.find? (·.long == name) = some d
  short : ∀ {c d}, shared.find? (·.short == some c) = some d →
    wide.declared.find? (·.short == some c) = some d
  commands : ∀ name ∈ wide.commands, isOption name.toList = false

/-- A level has the shared options if its own are apart from them and its commands are no
options. -/
theorem wide_level {own : List Declared} (hown : Apart own) (names : List String)
    {commands : List String} (hcommands : ∀ name ∈ commands, isOption name.toList = false)
    (takesParts : Bool) : (level names own commands takesParts).Wide where
  long := by
    intro name d hfind
    have hd : d.long = name := by simpa using List.find?_some hfind
    have hnone : own.find? (·.long == name) = none := by
      refine List.find?_eq_none.mpr fun e he => ?_
      have hne := (hown e he d (List.mem_of_find?_eq_some hfind)).1
      simpa [← hd] using hne
    show (own ++ shared).find? _ = _
    rw [List.find?_append, hnone, hfind]
    rfl
  short := by
    intro c d hfind
    have hd : d.short = some c := by simpa using List.find?_some hfind
    have hnone : own.find? (·.short == some c) = none := by
      refine List.find?_eq_none.mpr fun e he => ?_
      rcases (hown e he d (List.mem_of_find?_eq_some hfind)).2 with hshort | hne
      · simp [hshort]
      · simpa [← hd] using hne
    show (own ++ shared).find? _ = _
    rw [List.find?_append, hnone, hfind]
    rfl
  commands := hcommands

/-- The level that has nothing but the shared options has them. -/
theorem wide_shared : sharedLevel.Wide where
  long := id
  short := id
  commands _ hmem := absurd hmem List.not_mem_nil

variable {wide : Level} {g g' : Given} {pending pending' : Option Declared}

/-- An option read at the level of shared options, and with the same outcome at a wider one. -/
structure Alike (g g' : Given) (pending : Option Declared)
    (outcome : Except Stop (Given × Option Declared)) : Prop where
  outcome_eq : outcome = .ok (g', pending)
  beside : g.Beside g'
  pending_shared : ∀ d ∈ pending, d ∈ shared

/-- Adding a shared option is the same at every level that has it. -/
theorem alike_add {d : Declared} {value : String} (hd : d ∈ shared)
    (h : (g.add d value).map (·, none) = .ok (g', pending)) :
    Alike g g' pending ((g.add d value).map (·, none)) := by
  cases hadd : g.add d value with
  | error stop =>
    rw [hadd] at h
    cases h
  | ok added =>
    rw [hadd] at h
    cases h
    exact ⟨rfl, Given.beside_add hd hadd, nofun⟩

/-- Waiting for the value of a shared option is the same at every level that has it. -/
theorem alike_waiting {d : Declared} (hd : d ∈ shared) :
    Alike g g (some d) (.ok (g, some d)) :=
  ⟨rfl, .refl g, fun _ h => Option.some.inj h ▸ hd⟩

/-- A long option that is shared is read alike at every level that has the shared ones. -/
theorem readLong_shared (hwide : wide.Wide) {name : String} {attached : Option String}
    (h : sharedLevel.readLong g name attached = .ok (g', pending)) :
    Alike g g' pending (wide.readLong g name attached) := by
  unfold readLong at h ⊢
  cases hfind : shared.find? (·.long == name) with
  | none =>
    rw [show sharedLevel.declared.find? (·.long == name) = none from hfind] at h
    dsimp only at h
    split_ifs at h
  | some d =>
    rw [show sharedLevel.declared.find? (·.long == name) = some d from hfind] at h
    rw [hwide.long hfind]
    have hd : d ∈ shared := List.mem_of_find?_eq_some hfind
    dsimp only at h ⊢
    split at h
    · exact alike_add hd h
    · cases h
      exact alike_waiting hd
    · cases h
    · exact alike_add hd h

/-- Short options that are shared are read alike at every level that has the shared ones. -/
theorem readShort_shared (hwide : wide.Wide) {cs : List Char}
    (h : sharedLevel.readShort g cs = .ok (g', pending)) :
    Alike g g' pending (wide.readShort g cs) := by
  -- Letters are flags up to the first that takes a value, which ends the argument.
  induction cs generalizing g with
  | nil =>
    cases h
    exact ⟨rfl, .refl _, nofun⟩
  | cons c rest ih =>
    unfold readShort at h ⊢
    cases hfind : shared.find? (·.short == some c) with
    | none =>
      rw [show sharedLevel.declared.find? (·.short == some c) = none from hfind] at h
      dsimp only at h
      split_ifs at h
    | some d =>
      have hd : d ∈ shared := List.mem_of_find?_eq_some hfind
      rw [show sharedLevel.declared.find? (·.short == some c) = some d from hfind] at h
      rw [hwide.short hfind]
      dsimp only at h ⊢
      split_ifs at h ⊢ with hvalued
      · split at h
        · cases h
          exact alike_waiting hd
        · exact alike_add hd h
      · cases hadd : g.add d "" with
        | error stop =>
          rw [hadd] at h
          cases h
        | ok added =>
          rw [hadd] at h
          have hrest := ih h
          exact ⟨hrest.outcome_eq, (Given.beside_add hd hadd).trans hrest.beside,
            hrest.pending_shared⟩

/-- An argument that spells shared options is read alike at every level that has them. -/
theorem readOption_shared (hwide : wide.Wide) {cs : List Char}
    (h : sharedLevel.readOption g cs = .ok (g', pending)) :
    Alike g g' pending (wide.readOption g cs) := by
  unfold readOption at h ⊢
  split at h
  · exact readLong_shared hwide h
  · exact readShort_shared hwide h
  · cases h

/-- An option that waits takes the next argument, unless that is an option. -/
theorem read_waiting (level : Level) (d : Declared) (g : Given) (arg : String)
    (rest : List String) : level.read (some d) g (arg :: rest) =
      if isOption arg.toList then .error .usage
      else
        match g.add d arg with
        | .error stop => .error stop
        | .ok g => level.read none g rest := rfl

/-- What an argument is taken for where no option waits: a command, the end of options, options, or
parts. -/
theorem read_next (level : Level) (g : Given) (arg : String) (rest : List String) :
    level.read none g (arg :: rest) =
      if level.commands.contains arg then .ok (g, some (arg, rest))
      else if arg == "--" then (level.addParts g rest).map (·, none)
      else if isOption arg.toList then
        match level.readOption g arg.toList with
        | .error stop => .error stop
        | .ok (g, pending) => level.read pending g rest
      else
        match level.addParts g [arg] with
        | .error stop => .error stop
        | .ok g => level.read none g rest := rfl

/-- An option that has its value is read before what follows it. -/
theorem read_option {level : Level} {g g' : Given} {arg : String} (hcommands : level.commands = [])
    (hdash : arg ≠ "--") (hoption : isOption arg.toList = true)
    (h : level.readOption g arg.toList = .ok (g', none)) (rest : List String) :
    level.read none g (arg :: rest) = level.read none g' rest := by
  have hcommand : ¬ level.commands.contains arg = true := by simp [hcommands]
  rw [read_next, if_neg hcommand, if_neg (by simpa using hdash), if_pos hoption, h]

/-- An option with its value in one argument. -/
def attached (long value : String) : String := "--" ++ long ++ "=" ++ value

/-- An option is read with the value that is attached to it. -/
theorem read_attached {level : Level} {g : Given} {d : Declared} (hcommands : level.commands = [])
    (hfind : level.declared.find? (·.long == d.long) = some d) (hvalued : d.valued = true)
    (hequals : '=' ∉ d.long.toList) (hfresh : g.value? d.long = none) (value : String)
    (rest : List String) :
    level.read none g (attached d.long value :: rest) =
      level.read none (g.holding d.long value) rest := by
  have harg : (attached d.long value).toList =
      '-' :: '-' :: (d.long.toList ++ '=' :: value.toList) := by
    simp only [attached, String.toList_append, List.append_assoc]
    rfl
  have hname : ∀ c ∈ d.long.toList, (c != '=') = true := by
    intro c hc
    rw [bne_iff_ne]
    exact fun heq => hequals (heq ▸ hc)
  -- The name has no equals sign, so the first one in the argument stands before the value.
  have hsplit : splitLong (d.long.toList ++ '=' :: value.toList) = (d.long, some value) := by
    unfold splitLong
    rw [List.dropWhile_append_of_pos hname, List.takeWhile_append_of_pos hname]
    simp
  have hread : level.readOption g (attached d.long value).toList =
      .ok (g.holding d.long value, none) := by
    rw [harg, readOption, hsplit]
    dsimp only
    rw [readLong, hfind]
    dsimp only
    rw [hvalued]
    show (g.add d value).map (·, none) = _
    rw [Given.add_eq_ok hfresh]
    rfl
  have hdash : attached d.long value ≠ "--" := by
    intro heq
    have hlist := congrArg String.toList heq
    rw [harg] at hlist
    simp at hlist
  exact read_option hcommands hdash (by rw [harg]; rfl) hread rest

theorem none_shared : ∀ d ∈ (none : Option Declared), d ∈ shared :=
  fun d hd => absurd hd (Option.not_mem_none d)

/-- Shared options are read alike at a wider level, and what follows them is read after them. -/
theorem read_append (hwide : wide.Wide) {args : List String} (hdashes : "--" ∉ args)
    (hpending : ∀ d ∈ pending, d ∈ shared)
    (h : sharedLevel.read pending g args = .ok (g', none)) (rest : List String) :
    wide.read pending g (args ++ rest) = wide.read none g' rest ∧ g.Beside g' := by
  -- The induction is on the arguments, over any option that still waits for its value.
  induction args generalizing pending g with
  | nil =>
    unfold read at h
    split_ifs at h with hnone
    cases h
    rw [Option.not_isSome_iff_eq_none] at hnone
    rw [hnone]
    exact ⟨rfl, .refl _⟩
  | cons arg args ih =>
    rw [List.mem_cons, not_or] at hdashes
    rw [List.cons_append]
    cases pending with
    | some d =>
      rw [read_waiting] at h ⊢
      split_ifs at h with hoption
      rw [if_neg hoption]
      cases hadd : g.add d arg with
      | error stop =>
        rw [hadd] at h
        cases h
      | ok added =>
        rw [hadd] at h
        obtain ⟨hread, hbeside⟩ := ih hdashes.2 none_shared h
        exact ⟨hread, (Given.beside_add (hpending d rfl) hadd).trans hbeside⟩
    | none =>
      have hdash : ¬ (arg == "--") = true := by simpa using Ne.symm hdashes.1
      rw [read_next, if_neg (show ¬ sharedLevel.commands.contains arg = true from nofun),
        if_neg hdash] at h
      split_ifs at h with hoption
      -- The wider level knows commands, but an option is none of them.
      · have hcommand : ¬ wide.commands.contains arg = true := by
          rw [List.contains_iff_mem]
          intro hmem
          rw [hwide.commands arg hmem] at hoption
          cases hoption
        rw [read_next, if_neg hcommand, if_neg hdash, if_pos hoption]
        cases hread : sharedLevel.readOption g arg.toList with
        | error stop =>
          rw [hread] at h
          cases h
        | ok r =>
          obtain ⟨g₁, pending₁⟩ := r
          rw [hread] at h
          have halike := readOption_shared hwide hread
          obtain ⟨hrest, hbeside⟩ := ih hdashes.2 halike.pending_shared h
          rw [halike.outcome_eq]
          exact ⟨hrest, halike.beside.trans hbeside⟩
      · -- Nothing but options is taken where only shared options are.
        cases h

end Level

/-! ## Command lines -/

theorem wide_topLevel : topLevel.Wide := Level.wide_level (by decide) [] (by decide) false

theorem wide_templateLevel : templateLevel.Wide :=
  Level.wide_level (by decide) ["template"] (by decide) false

theorem wide_hashLevel : hashLevel.Wide := Level.wide_level (by decide) ["hash"] (by decide) true

/-- Only shared options are asked for. -/
theorem optionsOf_congr {g g' : Given} (h : ∀ d ∈ shared, g'.value? d.long = g.value? d.long)
    (top : Given) (env : Settings.Environment) :
    optionsOf [g', top] env = optionsOf [g, top] env := by
  have hdeepest : ∀ d ∈ shared, deepest [g', top] d.long = deepest [g, top] d.long := by
    intro d hd
    simp only [deepest, List.findSome?_cons, h d hd]
  have hvalue : ∀ d ∈ shared, ∀ variable_, optionOrVariable [g', top] env d.long variable_ =
      optionOrVariable [g, top] env d.long variable_ := by
    intro d hd variable_
    rw [optionOrVariable, optionOrVariable, hdeepest d hd]
  have hflag : ∀ d ∈ shared, g'.has d.long = g.has d.long := fun d hd =>
    congrArg Option.isSome (h d hd)
  simp only [optionsOf, hvalue ⟨"config-file", some 'f', true⟩ (by decide),
    hvalue ⟨"tenant-id", none, true⟩ (by decide), hvalue ⟨"client-id", none, true⟩ (by decide),
    hvalue ⟨"subscription-id", none, true⟩ (by decide), hvalue ⟨"hash-ns", none, true⟩ (by decide),
    hvalue ⟨"storage-token", none, true⟩ (by decide), List.any_cons,
    hflag ⟨"no-login", none, false⟩ (by decide), hflag ⟨"yes", some 'y', false⟩ (by decide),
    hflag ⟨"quiet", some 'q', false⟩ (by decide)]

/-- Arguments that spell shared options, and nothing else. -/
structure Spells (args : List String) (g : Given) : Prop where
  read : sharedLevel.read none .nothing args = .ok (g, none)
  no_dashes : "--" ∉ args

namespace Spells

variable {args above below : List String} {g top : Given}

/-- Arguments that spell shared options are read at any level that has them, and reading goes on. -/
theorem read_append (h : Spells args g) {wide : Level} (hwide : wide.Wide) (rest : List String) :
    wide.read none .nothing (args ++ rest) = wide.read none g rest :=
  (Level.read_append hwide h.no_dashes Level.none_shared h.read rest).1

theorem beside (h : Spells args g) : Given.nothing.Beside g :=
  (Level.read_append Level.wide_shared h.no_dashes Level.none_shared h.read []).2

theorem value?_eq_none (h : Spells args g) {long : String} (hlong : ∀ d ∈ shared, d.long ≠ long) :
    g.value? long = none := h.beside.value long hlong

end Spells

/-- Which identifiers are asked for, as arguments. -/
def Wanted.spelled : Wanted → List String
  | .parts ps => "--" :: ps
  | .id => ["--id"]
  | .folder => ["--prefix"]

/-- An input and an output, as arguments. -/
def streamArguments (input output : String) : List String :=
  [Level.attached "input" input, Level.attached "output" output]

namespace Spells

variable {above below : List String} {top g : Given}

/-- What a level reads of an option of its own that stands alone, after shared options. -/
theorem read_flag (hbelow : Spells below g) {long : String} (hlong : ∀ d ∈ shared, d.long ≠ long)
    {arg : String} (harg : hashLevel.readOption g arg.toList =
      (g.add ⟨long, none, false⟩ "").map (·, none))
    (hdash : arg ≠ "--") (hoption : Level.isOption arg.toList = true) :
    hashLevel.read none .nothing (below ++ [arg]) = .ok (g.holding long "", none) := by
  rw [hbelow.read_append wide_hashLevel]
  refine Level.read_option rfl hdash hoption (harg.trans ?_) []
  rw [Given.add_eq_ok (hbelow.value?_eq_none hlong)]
  rfl

/-- The command for identifiers reads shared options and what is asked for. -/
theorem read_hash (hbelow : Spells below g) {wanted : Wanted} (hwanted : wanted ≠ .parts []) :
    ∃ g', hashLevel.read none .nothing (below ++ wanted.spelled) = .ok (g', none) ∧
      wantedOf g' = .ok wanted ∧ ∀ d ∈ shared, g'.value? d.long = g.value? d.long := by
  have hid : g.has "id" = false := congrArg Option.isSome (hbelow.value?_eq_none (by decide))
  have hprefix : g.has "prefix" = false :=
    congrArg Option.isSome (hbelow.value?_eq_none (by decide))
  have hparts : g.parts = [] := hbelow.beside.parts
  -- Shared options never stand for what this level declares itself, so nothing of it is set before.
  cases wanted with
  | parts ps =>
    cases ps with
    | nil => exact absurd rfl hwanted
    | cons part ps =>
      let g' : Given := { g with parts := g.parts ++ part :: ps }
      have hid' : g'.has "id" = false := hid
      have hprefix' : g'.has "prefix" = false := hprefix
      have hparts' : g'.parts = part :: ps := congrArg (· ++ part :: ps) hparts
      refine ⟨g', by rw [hbelow.read_append wide_hashLevel]; rfl, ?_, fun _ _ => rfl⟩
      rw [wantedOf, hid', hprefix', hparts']
  | id =>
    have hne : ∀ d ∈ shared, d.long ≠ "id" := by decide
    refine ⟨g.holding "id" "", hbelow.read_flag hne rfl (by decide) rfl, ?_,
      fun d hd => g.value?_holding_of_ne (hne d hd) ""⟩
    have hid' : (g.holding "id" "").has "id" = true := g.has_holding_self "id" ""
    have hprefix' : (g.holding "id" "").has "prefix" = false :=
      (g.has_holding_of_ne (by decide) "").trans hprefix
    have hparts' : (g.holding "id" "").parts = [] := hparts
    rw [wantedOf, hid', hprefix', hparts']
  | folder =>
    have hne : ∀ d ∈ shared, d.long ≠ "prefix" := by decide
    refine ⟨g.holding "prefix" "", hbelow.read_flag hne rfl (by decide) rfl, ?_,
      fun d hd => g.value?_holding_of_ne (hne d hd) ""⟩
    have hid' : (g.holding "prefix" "").has "id" = false :=
      (g.has_holding_of_ne (by decide) "").trans hid
    have hprefix' : (g.holding "prefix" "").has "prefix" = true := g.has_holding_self "prefix" ""
    have hparts' : (g.holding "prefix" "").parts = [] := hparts
    rw [wantedOf, hid', hprefix', hparts']

/-- The command for templates reads shared options, an input and an output. -/
theorem read_streams (hbelow : Spells below g) (input output : String) :
    templateLevel.read none .nothing (below ++ streamArguments input output) =
      .ok ((g.holding "input" input).holding "output" output, none) := by
  have hinput : g.value? "input" = none := hbelow.value?_eq_none (by decide)
  have houtput : (g.holding "input" input).value? "output" = none :=
    (g.value?_holding_of_ne (by decide) input).trans (hbelow.value?_eq_none (by decide))
  rw [hbelow.read_append wide_templateLevel, streamArguments,
    Level.read_attached rfl (d := ⟨"input", some 'i', true⟩) rfl rfl (by decide) hinput,
    Level.read_attached rfl (d := ⟨"output", some 'o', true⟩) rfl rfl (by decide) houtput]
  rfl

/-- Shared options before and after its name and what is asked for make a request for an
identifier. -/
theorem ofArguments_hash (habove : Spells above top) (hbelow : Spells below g) {wanted : Wanted}
    (hwanted : wanted ≠ .parts []) (env : Settings.Environment) :
    Request.ofArguments env (above ++ "hash" :: (below ++ wanted.spelled)) =
      .ok ⟨optionsOf [g, top] env, .hash wanted⟩ := by
  obtain ⟨g', hread, hof, hvalue⟩ := hbelow.read_hash hwanted
  unfold Request.ofArguments
  rw [habove.read_append wide_topLevel]
  show readHash top env (below ++ wanted.spelled) = _
  unfold readHash
  rw [hread]
  show (wantedOf g').bind _ = _
  rw [hof, ← optionsOf_congr hvalue]
  rfl

/-- Shared options before and after its name, an input and an output make a request for a
template. -/
theorem ofArguments_template (habove : Spells above top) (hbelow : Spells below g)
    (input output : String) (env : Settings.Environment) :
    Request.ofArguments env (above ++ "template" :: (below ++ streamArguments input output)) =
      .ok ⟨optionsOf [g, top] env, .template input output⟩ := by
  have hne : ∀ d ∈ shared, d.long ≠ "input" ∧ d.long ≠ "output" := by decide
  have hvalue : ∀ d ∈ shared,
      ((g.holding "input" input).holding "output" output).value? d.long = g.value? d.long := by
    intro d hd
    rw [Given.value?_holding_of_ne _ (hne d hd).2, Given.value?_holding_of_ne _ (hne d hd).1]
  have hinput : ((g.holding "input" input).holding "output" output).value? "input" =
      some input := by
    rw [Given.value?_holding_of_ne _ (by decide), Given.value?_holding_self]
  have houtput : ((g.holding "input" input).holding "output" output).value? "output" =
      some output := Given.value?_holding_self ..
  unfold Request.ofArguments
  rw [habove.read_append wide_topLevel]
  show readStreams templateLevel .template top env (below ++ streamArguments input output) = _
  unfold readStreams
  rw [hbelow.read_streams]
  show Except.ok _ = _
  rw [hinput, houtput, optionsOf_congr hvalue]
  rfl

end Spells

end Stencil.Command
