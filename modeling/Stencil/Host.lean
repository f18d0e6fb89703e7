import Stencil.Files

/-!
# Hosts

What a command asks of the machine that it runs on: files, the standard streams, a terminal where
somebody may answer, and a way to send octets to an address. A workspace is a host in the small,
with its files and streams as a value, so that a whole command is a function.
-/

namespace Stencil

/-- What a command asks of its machine. -/
structure Host (m : Type → Type) where
  /-- Whether anything stands at a path. -/
  isPresent : String → m Bool
  /-- Reads the file at a path. -/
  read : String → m (Except Fault (List UInt8))
  /-- Writes the file at a path. Where this fails, a part of the octets may be left there. -/
  write : String → List UInt8 → m (Except Fault Unit)
  /-- Reads the rest of standard input. -/
  readInput : m (Except Fault (List UInt8))
  /-- Writes to standard output. Where this fails, a part of the text may be out. -/
  print : String → m (Except Fault Unit)
  /-- Whether standard input is a terminal. -/
  isTerminal : m Bool
  /-- Asks a question that is answered by yes or no, or says why it cannot. -/
  ask : String → m (Except String Bool)
  /-- Sets up what octets are sent with, or says why it cannot. -/
  connect : m (Except String Unit)
  /-- Sends octets to an address, or says why it cannot. -/
  send : String → List UInt8 → m (Except String Unit)
  /-- A seed that no run has had before. -/
  freshSeed : m String

namespace Host

variable {m : Type → Type} [Monad m]

/-- Reads the file at a path as a text. -/
def readText (host : Host m) (path : String) : m (Except Fault String) := do
  return (← host.read path).bind decodeText

/-- Reads the rest of standard input as a text. -/
def readInputText (host : Host m) : m (Except Fault String) := do
  return (← host.readInput).bind decodeText

end Host

/-- A host in the small: its files, what is left of its input, what was printed and what was sent. A
sending whose address holds `failing` does not succeed, and none does if there is a reason that
nothing can be sent at all. -/
structure Workspace where
  files : Files := []
  input : List UInt8 := []
  output : String := ""
  sent : List (String × List UInt8) := []
  failing : Option String := none
  unconnected : Option String := none
  seed : String := ""
  /-- What every question on the terminal comes to, if the input is one. -/
  terminal : Option (Except String Bool) := none

/-- How much a workspace can take, where there is an end to it: the octets of a file, and the
characters of the output. -/
structure Limits where
  file : Option Nat := none
  output : Option Nat := none

namespace Workspace

/-- Whether a text occurs in another. -/
def occursIn (part whole : List Char) : Bool :=
  match whole with
  | [] => part.isEmpty
  | _ :: rest => part.isPrefixOf whole || occursIn part rest

/-- Whether an address is one that nothing can be sent to. -/
def refuses (w : Workspace) (address : String) : Bool :=
  match w.failing with
  | none => false
  | some part => occursIn part.toList address.toList

/-- The first things of a list that there is room for. -/
def fitting {α : Type} (room : Option Nat) (l : List α) : List α :=
  match room with
  | none => l
  | some n => l.take n

/-- What came of a writing of which only a part may have fitted. -/
def answerOf {α : Type} (part whole : List α) (fault : String) : Except Fault Unit :=
  if part.length == whole.length then .ok () else .error (.other fault)

/-- A workspace as a host, within some limits. What a file or the output cannot take makes writing
fail, but what fits is left there. -/
def hostWithin (limits : Limits) : Host (StateM Workspace) where
  isPresent path := fun w => (w.files.isPresent path, w)
  read path := fun w => (w.files.read path, w)
  write path octets := fun w =>
    let part := fitting limits.file octets
    match w.files.write path part with
    | .error fault => (.error fault, w)
    | .ok files => (answerOf part octets "File too large (os error 27)", { w with files })
  readInput := fun w => (.ok w.input, { w with input := [] })
  print text := fun w =>
    let part := fitting (limits.output.map (· - w.output.length)) text.toList
    (answerOf part text.toList "Broken pipe (os error 32)",
      { w with output := w.output ++ String.ofList part })
  isTerminal := fun w => (w.terminal.isSome, w)
  ask _ := fun w => (w.terminal.getD (.error "not a terminal"), w)
  connect := fun w =>
    match w.unconnected with
    | none => (.ok (), w)
    | some reason => (.error reason, w)
  send address octets := fun w =>
    if w.refuses address then (.error "simulated failure", w)
    else (.ok (), { w with sent := w.sent ++ [(address, octets)] })
  freshSeed := fun w => (w.seed, w)

/-- A workspace as a host that takes everything. -/
def host : Host (StateM Workspace) := hostWithin {}

end Workspace

end Stencil
