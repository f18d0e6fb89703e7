import Stencil.Table

/-!
# Arguments of a command

A level of a command declares options, with or without a value, and may have further commands below
it. Its arguments are read from left to right until the name of one of those. `--` ends the options.
A value may be empty, but only `-` may start with a hyphen, unless the value is written into the
same argument. No option may be given twice at one level.
-/

namespace Stencil.Command

/-- A declared option. -/
structure Declared where
  long : String
  short : Option Char
  valued : Bool
  deriving DecidableEq

/-- A level of a command. -/
structure Level where
  /-- The names of the level and those above it, with hyphens between them. -/
  title : String
  declared : List Declared
  /-- The names of the commands below. -/
  commands : List String
  /-- Whether arguments that are no options are taken. -/
  takesParts : Bool

/-- Why reading ends without a command to run. -/
inductive Stop where
  | usage
  | help
  | version (title : String)
  deriving DecidableEq

/-- What was given at a level: the values of options under their long names, empty for those without
a value, and the other arguments. -/
structure Given where
  options : Table String
  parts : List String

namespace Given

/-- Nothing yet. -/
def nothing : Given := ⟨[], []⟩

/-- One more option, which may not have been given before. -/
def add (g : Given) (d : Declared) (value : String) : Except Stop Given :=
  match Table.get? d.long g.options with
  | some _ => .error .usage
  | none => .ok { g with options := Table.insert d.long value g.options }

/-- The value of an option. -/
def value? (g : Given) (long : String) : Option String := Table.get? long g.options

/-- Whether an option was given. -/
def has (g : Given) (long : String) : Bool := (g.value? long).isSome

end Given

namespace Level

/-- Reads an option with a long name, which may have a value after `=`. An option that waits for its
value comes with the result. -/
def readLong (level : Level) (g : Given) (name : String) (attached : Option String) :
    Except Stop (Given × Option Declared) :=
  match level.declared.find? (·.long == name) with
  | some d =>
    match d.valued, attached with
    | true, some value => (g.add d value).map (·, none)
    | true, none => .ok (g, some d)
    | false, some _ => .error .usage
    | false, none => (g.add d "").map (·, none)
  | none =>
    if attached.isSome then .error .usage
    else if name == "help" then .error .help
    else if name == "version" then .error (.version level.title)
    else .error .usage

/-- Reads options with short names, of which the last may have a value after it. -/
def readShort (level : Level) (g : Given) : List Char → Except Stop (Given × Option Declared)
  | [] => .ok (g, none)
  | c :: rest =>
    match level.declared.find? (·.short == some c) with
    | some d =>
      if d.valued then
        match rest with
        | [] => .ok (g, some d)
        | e :: value =>
          (g.add d (String.ofList (if e == '=' then value else e :: value))).map (·, none)
      else
        match g.add d "" with
        | .error stop => .error stop
        | .ok g => level.readShort g rest
    | none =>
      if c == 'h' then .error .help
      else if c == 'V' then .error (.version level.title)
      else .error .usage

/-- A long name and the value after its `=`. -/
def splitLong (cs : List Char) : String × Option String :=
  match cs.dropWhile (· != '=') with
  | [] => (String.ofList cs, none)
  | _ :: value => (String.ofList (cs.takeWhile (· != '=')), some (String.ofList value))

/-- Reads the options that an argument spells. -/
def readOption (level : Level) (g : Given) : List Char → Except Stop (Given × Option Declared)
  | '-' :: '-' :: name =>
    let (long, attached) := splitLong name
    level.readLong g long attached
  | '-' :: c :: rest => level.readShort g (c :: rest)
  | _ => .error .usage

/-- Whether an argument spells options. -/
def isOption : List Char → Bool
  | '-' :: _ :: _ => true
  | _ => false

/-- Arguments that are no options, where they are taken. -/
def addParts (level : Level) (g : Given) (parts : List String) : Except Stop Given :=
  if level.takesParts || parts.isEmpty then .ok { g with parts := g.parts ++ parts }
  else .error .usage

/-- Reads the arguments of a level, where an option may wait for its value. The results are what was
given, and the name of the command below with its own arguments. -/
def read (level : Level) (pending : Option Declared) (g : Given) :
    List String → Except Stop (Given × Option (String × List String))
  | [] => if pending.isSome then .error .usage else .ok (g, none)
  | arg :: rest =>
    match pending with
    | some d =>
      if isOption arg.toList then .error .usage
      else
        match g.add d arg with
        | .error stop => .error stop
        | .ok g => level.read none g rest
    | none =>
      if level.commands.contains arg then .ok (g, some (arg, rest))
      else if arg == "--" then (level.addParts g rest).map (·, none)
      else if isOption arg.toList then
        match level.readOption g arg.toList with
        | .error stop => .error stop
        | .ok (g, pending) => level.read pending g rest
      else
        match level.addParts g [arg] with
        | .error stop => .error stop
        | .ok g => level.read none g rest

end Level

end Stencil.Command
