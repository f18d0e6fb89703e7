import Mathlib.Tactic.SplitIfs
import Stencil.Command.Run

/-!
# Where a setting comes from

Four settings may be given by an option, by a variable of the environment and in the file of the
settings, and have a default. Commands use the first of these that is not empty, with one exception:
an option that is given as an empty text hides its variable, so that the file comes next.

`Config.preferring` is the rule and `Overrides.Clear` excludes the exception. All commands load
their settings by the rule, and nothing else in the settings depends on the command line.
-/

namespace Stencil

namespace Settings

/-- The first of the places of a setting where something stands. -/
def preferred (option variable_ : Option String) (written fallback : String) : String :=
  (firstNonEmpty [option, variable_, some written, some fallback]).getD ""

/-- A variable, unless its option is given. -/
def unlessGiven (option variable_ : Option String) : Option String :=
  if option.isSome then none else variable_

/-- An option does not hide a variable: it is not given as an empty text where the variable holds
something. -/
def Clear (option variable_ : Option String) : Prop :=
  option = some "" → firstNonEmpty [variable_] = none

/-- An empty text is passed over. -/
theorem firstNonEmpty_empty {value : String} (h : value.isEmpty = true)
    (rest : List (Option String)) : firstNonEmpty (some value :: rest) = firstNonEmpty rest := by
  have hfilter : (some value).filter (!·.isEmpty) = none := by simp only [Option.filter, h]; rfl
  simp only [firstNonEmpty, List.findSome?_cons, hfilter]

/-- A text that is not empty is the first that counts. -/
theorem firstNonEmpty_value {value : String} (h : ¬ value.isEmpty = true)
    (rest : List (Option String)) : firstNonEmpty (some value :: rest) = some value := by
  have hfilter : (some value).filter (!·.isEmpty) = some value := by
    simp only [Option.filter, h]
    rfl
  simp only [firstNonEmpty, List.findSome?_cons, hfilter]

/-- A place where nothing stands may as well not be there. -/
theorem firstNonEmpty_none_of {item : Option String} (h : firstNonEmpty [item] = none)
    (rest : List (Option String)) : firstNonEmpty (item :: rest) = firstNonEmpty rest := by
  cases item with
  | none => rfl
  | some value =>
    by_cases hempty : value.isEmpty
    · exact firstNonEmpty_empty hempty rest
    · rw [firstNonEmpty_value hempty] at h
      cases h

section

variable {option variable_ : Option String} (rest : List (Option String))

/-- Taking an option before its variable hides the variable of an option that is given. -/
theorem firstNonEmpty_or :
    firstNonEmpty (option.or variable_ :: rest) =
      firstNonEmpty (option :: unlessGiven option variable_ :: rest) := by
  cases option with
  | none => rfl
  | some value =>
    show firstNonEmpty (some value :: rest) = firstNonEmpty (some value :: none :: rest)
    by_cases h : value.isEmpty
    · rw [firstNonEmpty_empty h, firstNonEmpty_empty h]
      rfl
    · rw [firstNonEmpty_value h, firstNonEmpty_value h]

/-- Picking what is not empty looks at the option and then at its variable. -/
theorem firstNonEmpty_pick :
    firstNonEmpty (Overrides.pick option variable_ :: rest) =
      firstNonEmpty (option :: variable_ :: rest) := by
  cases option with
  | none => rfl
  | some value =>
    by_cases h : value.isEmpty
    · have hpick : Overrides.pick (some value) variable_ = variable_ := by
        simp [Overrides.pick, Option.filter, h]
      rw [hpick, firstNonEmpty_empty h]
    · have hpick : Overrides.pick (some value) variable_ = some value := by
        simp [Overrides.pick, Option.filter, h]
      rw [hpick, firstNonEmpty_value h, firstNonEmpty_value h]

/-- A variable may be hidden by its option where the option has something to say. -/
theorem firstNonEmpty_unlessGiven (h : Clear option variable_) :
    firstNonEmpty (option :: unlessGiven option variable_ :: rest) =
      firstNonEmpty (option :: variable_ :: rest) := by
  cases option with
  | none => rfl
  | some value =>
    show firstNonEmpty (some value :: none :: rest) =
      firstNonEmpty (some value :: variable_ :: rest)
    by_cases hempty : value.isEmpty
    · have hnone : firstNonEmpty [variable_] = none := h (by simpa using hempty)
      rw [firstNonEmpty_empty hempty, firstNonEmpty_empty hempty, firstNonEmpty_none_of hnone]
      rfl
    · rw [firstNonEmpty_value hempty, firstNonEmpty_value hempty]

end

/-- The settings of a file where four of them are taken by precedence. -/
def Config.preferring (options variables_ : Overrides) (fresh : String) (c : Config) : Config :=
  { c with
    tenantId := preferred options.tenantId variables_.tenantId c.tenantId defaultTenantId
    clientId := preferred options.clientId variables_.clientId c.clientId defaultClientId
    subscriptionId := preferred options.subscriptionId variables_.subscriptionId c.subscriptionId ""
    hashNS := preferred options.hashNS variables_.hashNS c.hashNS fresh }

namespace Overrides

/-- Options, with variables where there is no option. -/
def beside (options variables_ : Overrides) : Overrides where
  tenantId := options.tenantId.or variables_.tenantId
  clientId := options.clientId.or variables_.clientId
  subscriptionId := options.subscriptionId.or variables_.subscriptionId
  hashNS := options.hashNS.or variables_.hashNS

/-- The variables whose options are not given. -/
def unhidden (options variables_ : Overrides) : Overrides where
  tenantId := unlessGiven options.tenantId variables_.tenantId
  clientId := unlessGiven options.clientId variables_.clientId
  subscriptionId := unlessGiven options.subscriptionId variables_.subscriptionId
  hashNS := unlessGiven options.hashNS variables_.hashNS

/-- No option hides a variable. -/
structure Clear (options variables_ : Overrides) : Prop where
  tenantId : Settings.Clear options.tenantId variables_.tenantId
  clientId : Settings.Clear options.clientId variables_.clientId
  subscriptionId : Settings.Clear options.subscriptionId variables_.subscriptionId
  hashNS : Settings.Clear options.hashNS variables_.hashNS

variable (options variables_ : Overrides) (fresh : String) (c : Config)

/-- Options that were read beside their variables hide the variables where they are given. -/
theorem apply_beside :
    (options.beside variables_).apply fresh c =
      c.preferring options (options.unhidden variables_) fresh := by
  simp only [apply, beside, settle, firstNonEmpty_or]
  rfl

/-- Options and variables that are picked by what is not empty follow the rule. -/
theorem apply_or :
    (options.or variables_).apply fresh c = c.preferring options variables_ fresh := by
  simp only [apply, Overrides.or, settle, firstNonEmpty_pick]
  rfl

variable {options variables_}

/-- The rule holds where no empty option hides a variable. -/
theorem Clear.preferring_eq (h : options.Clear variables_) :
    c.preferring options (options.unhidden variables_) fresh =
      c.preferring options variables_ fresh := by
  simp only [Config.preferring, preferred, unhidden, firstNonEmpty_unlessGiven _ h.tenantId,
    firstNonEmpty_unlessGiven _ h.clientId, firstNonEmpty_unlessGiven _ h.subscriptionId,
    firstNonEmpty_unlessGiven _ h.hashNS]

end Overrides

end Settings

namespace Command

open Settings (Config Environment Overrides Resolved)

/-! ## The environment of a request -/

/-- Reading that the environment takes no part in, but for the options that it stands in for. -/
def StandsIn (reading : Environment → Except Stop Request) : Prop :=
  (∃ stop, ∀ env, reading env = .error stop) ∨
    ∃ levels action, ∀ env, reading env = .ok ⟨optionsOf levels env, action⟩

theorem standsIn_error (stop : Stop) : StandsIn fun _ => .error stop :=
  .inl ⟨stop, fun _ => rfl⟩

/-- The commands with an input and an output see variables as options that are not given. -/
theorem standsIn_readStreams (own : Level) (make : String → String → Action) (top : Given)
    (args : List String) : StandsIn fun env => readStreams own make top env args := by
  unfold readStreams
  cases own.read none .nothing args with
  | error stop => exact standsIn_error stop
  | ok r => exact .inr ⟨[r.1, top], _, fun _ => rfl⟩

/-- The command for settings sees variables as options that are not given. -/
theorem standsIn_readConfig (top : Given) (args : List String) :
    StandsIn fun env => readConfig top env args := by
  unfold readConfig
  cases configLevel.read none .nothing args with
  | error stop => exact standsIn_error stop
  | ok r =>
    obtain ⟨config, _ | ⟨name, below⟩⟩ := r
    · exact standsIn_error .usage
    · show StandsIn fun env => if name == helpName then _ else _
      split_ifs
      · exact standsIn_error _
      · cases dumpLevel.read none .nothing below with
        | error stop => exact standsIn_error stop
        | ok g => exact .inr ⟨[g.1, config, top], .dump (g.1.has "raw"), fun _ => rfl⟩

/-- The command for identifiers sees variables as options that are not given. -/
theorem standsIn_readHash (top : Given) (args : List String) :
    StandsIn fun env => readHash top env args := by
  unfold readHash
  cases hashLevel.read none .nothing args with
  | error stop => exact standsIn_error stop
  | ok r =>
    show StandsIn fun env => wantedOf r.1 >>= fun wanted => .ok ⟨optionsOf [r.1, top] env, _⟩
    cases wantedOf r.1 with
    | error stop => exact standsIn_error stop
    | ok wanted => exact .inr ⟨[r.1, top], .hash wanted, fun _ => rfl⟩

/-- What is asked for does not depend on the environment, only some of its options do. -/
theorem standsIn_ofArguments (args : List String) :
    StandsIn fun env => Request.ofArguments env args := by
  unfold Request.ofArguments
  cases topLevel.read none .nothing args with
  | error stop => exact standsIn_error stop
  | ok r =>
    obtain ⟨top, _ | ⟨name, below⟩⟩ := r
    · exact standsIn_error .usage
    · show StandsIn fun env => if name == helpName then _ else _
      split_ifs
      · exact standsIn_error _
      · exact standsIn_readStreams _ _ _ _
      · exact standsIn_readConfig _ _
      · exact standsIn_readHash _ _
      · exact standsIn_readStreams _ _ _ _

/-- The settings that are given to a request are its options beside the variables. -/
theorem overrides_optionsOf (levels : List Given) (env : Environment) :
    (optionsOf levels env).overrides =
      (optionsOf levels []).overrides.beside (Overrides.ofEnvironment env) := by
  simp only [optionsOf, optionOrVariable, Overrides.beside, Overrides.ofEnvironment, Table.get?,
    Option.or_none]

/-! ## Loading -/

section

variable {m : Type → Type} [Monad m] (host : Host m) (env : Environment)

/-- Reads the settings at a path and resolves them after they were settled with a fresh seed. -/
def loadSettled (file : String) (settled : String → Config → Config) :
    m (Except Settings.Failure Resolved) := do
  match ← Config.load host file with
  | .error failure => return .error failure
  | .ok (path, written) =>
    let fresh ← host.freshSeed
    return Resolved.resolve path (settled fresh written) env

theorem load_eq_loadSettled (file : String) (overrides : Overrides) :
    Resolved.load host file overrides env = loadSettled host env file overrides.apply := rfl

/-- What is given beside the file matters for the settings that it leads to only, and for its
seed. -/
theorem run_congr (request : Request) {overrides : Overrides}
    (happly : request.options.overrides.apply = overrides.apply)
    (hseed : Settings.firstNonEmpty [request.options.overrides.hashNS] =
      Settings.firstNonEmpty [overrides.hashNS]) :
    request.run host env =
      Request.run host env ⟨{ request.options with overrides }, request.action⟩ := by
  -- Commands look at these options where they load the settings, and where they take a seed.
  obtain ⟨options, action⟩ := request
  have hload : load host env options = load host env { options with overrides } := by
    simp only [load, load_eq_loadSettled]
    rw [happly]
  have hnamespace : namespaceOf host env options =
      namespaceOf host env { options with overrides } := by
    simp only [namespaceOf, hload]
    rw [hseed]
  cases action with
  | template input output =>
    show runTemplate host env options input output = runTemplate host env _ input output
    simp only [runTemplate, hload]
    rfl
  | resolve input output =>
    show runResolve host env options input output = runResolve host env _ input output
    simp only [runResolve, hload]
    rfl
  | dump raw =>
    show runDump host env options raw = runDump host env _ raw
    simp only [runDump, hload]
  | hash wanted =>
    show runHash host env options wanted = runHash host env _ wanted
    simp only [runHash, hnamespace]

end

/-- The settings of every command are taken by precedence: an option first, then the variable of it,
the file and the default, where an empty text counts as nothing. An option that is given as an empty
text hides its variable; without that, commands run as with the options filled from the variables.
All other settings are those of the file. -/
theorem settings_preferred {m : Type → Type} [Monad m] (host : Host m) (env : Environment)
    {args : List String} {bare : Request} (h : Request.ofArguments [] args = .ok bare) :
    let options := bare.options.overrides
    let variables_ := Overrides.ofEnvironment env
    ∃ request, Request.ofArguments env args = .ok request ∧ request.action = bare.action ∧
      Resolved.load host request.options.file request.options.overrides env =
        loadSettled host env request.options.file
          (fun fresh c => c.preferring options (options.unhidden variables_) fresh) ∧
      (options.Clear variables_ →
        Resolved.load host request.options.file request.options.overrides env =
          loadSettled host env request.options.file
            (fun fresh c => c.preferring options variables_ fresh) ∧
        Resolved.load host request.options.file request.options.overrides env =
          Resolved.load host request.options.file (options.or variables_) env ∧
        request.run host env = Request.run host env
          ⟨{ request.options with overrides := options.or variables_ }, request.action⟩) := by
  intro options variables_
  rcases standsIn_ofArguments args with ⟨stop, hstop⟩ | ⟨levels, action, hrequest⟩
  · cases (hstop []).symm.trans h
  obtain rfl : _ = bare := Except.ok.inj ((hrequest []).symm.trans h)
  -- A variable stands in for an option only where the option is not given at all.
  have hbeside : (optionsOf levels env).overrides = options.beside variables_ :=
    overrides_optionsOf levels env
  have happly : (optionsOf levels env).overrides.apply =
      fun fresh c => c.preferring options (options.unhidden variables_) fresh := by
    funext fresh c
    rw [hbeside, Overrides.apply_beside]
  -- In general a variable may be hidden by an empty option; where none is, this makes no
  -- difference.
  refine ⟨_, hrequest env, rfl, ?_, fun hclear => ?_⟩
  · rw [load_eq_loadSettled, happly]
  · have hpreferring : (optionsOf levels env).overrides.apply =
        fun fresh c => c.preferring options variables_ fresh := by
      rw [happly]
      funext fresh c
      exact hclear.preferring_eq fresh c
    have hor : (optionsOf levels env).overrides.apply = (options.or variables_).apply := by
      rw [hpreferring]
      funext fresh c
      rw [Overrides.apply_or]
    refine ⟨?_, ?_, run_congr host env ⟨_, action⟩ hor ?_⟩
    · rw [load_eq_loadSettled, hpreferring]
    · rw [load_eq_loadSettled, hor, load_eq_loadSettled]
    · show Settings.firstNonEmpty [(optionsOf levels env).overrides.hashNS] =
        Settings.firstNonEmpty [Overrides.pick options.hashNS variables_.hashNS]
      rw [Settings.firstNonEmpty_pick, ← Settings.firstNonEmpty_unlessGiven [] hclear.hashNS,
        ← Settings.firstNonEmpty_or, hbeside]
      rfl

/-- The arguments of a command that shows its settings, with an option for one of them. -/
def showing (tenant : String) : List String := ["--tenant-id", tenant, "config", "dump"]

/-- A tenant from an option, a client from a variable, and a seed from the file or a fresh one,
since its variable is empty. -/
theorem settings_preferred_showing :
    let env : Environment := [("AZURE_CLIENT_ID", "client"), ("CUSTOMAZED_HASHNS", "")]
    ∃ request, Request.ofArguments env (showing "tenant") = .ok request ∧
      Resolved.load Workspace.host "customazed.json" request.options.overrides env =
        loadSettled Workspace.host env "customazed.json" fun fresh c => { c with
          tenantId := "tenant"
          clientId := "client"
          subscriptionId := Settings.preferred none none c.subscriptionId ""
          hashNS := Settings.preferred none none c.hashNS fresh } := by
  intro env
  have hbare : Request.ofArguments [] (showing "tenant") = _ := rfl
  obtain ⟨request, hrequest, -, -, hclear⟩ := settings_preferred Workspace.host env hbare
  obtain rfl := Except.ok.inj hrequest
  exact ⟨_, rfl, (hclear ⟨nofun, nofun, nofun, nofun⟩).1⟩

/-- An option that is given as an empty text hides its variable. -/
theorem empty_option_hides_variable :
    ∃ request bare, Request.ofArguments [("AZURE_TENANT_ID", "variable")] (showing "") =
        .ok request ∧
      Request.ofArguments [] (showing "") = .ok bare ∧
      (request.options.overrides.apply "" {}).tenantId = "common" ∧
      ((bare.options.overrides.or
        (.ofEnvironment [("AZURE_TENANT_ID", "variable")])).apply "" {}).tenantId = "variable" :=
  ⟨_, _, rfl, rfl, by decide, by decide⟩

end Command

end Stencil
