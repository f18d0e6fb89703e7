import Stencil.Command.Run

/-!
# The program

The machine as a host, and the entry point. Nothing can be sent from here: there is no transport.
-/

namespace Stencil.Machine

/-- What the code of a failed operation means. Some operations give it with the opposite sign. -/
def faultOfCode (code : UInt32) (e : IO.Error) : Fault :=
  let code := if code < 0x80000000 then code else 0 - code
  if code == 2 then .absent
  else if code == 20 then .notDirectory
  else if code == 21 then .isDirectory
  else if code == 36 then .nameTooLong
  else .other (toString e)

/-- What went wrong with a file. -/
def faultOf (e : IO.Error) : Fault :=
  match e with
  | .noFileOrDirectory _ code _ => faultOfCode code e
  | .inappropriateType _ code _ => faultOfCode code e
  | .invalidArgument _ code _ => faultOfCode code e
  | .otherError code _ => faultOfCode code e
  | e => .other (toString e)

/-- The result of an operation, or what went wrong. -/
def attempt {α : Type} (operation : IO α) : IO (Except Fault α) := do
  try
    return .ok (← operation)
  catch e => return .error (faultOf e)

/-- Whether anything stands at a path. -/
def isPresent (path : String) : IO Bool := do
  match ← attempt (IO.FS.Handle.mk path .read) with
  | .error .absent => return false
  | .error .notDirectory => return false
  | .error .nameTooLong => return false
  | _ => return true

/-- Reads a stream up to its end. -/
def readAll (stream : IO.FS.Stream) : IO (List UInt8) := do
  let mut octets := ByteArray.empty
  repeat
    let more ← stream.read 65536
    if more.isEmpty then break
    octets := octets ++ more
  return octets.toList

/-- Writes to standard output at once. -/
def print (text : String) : IO Unit := do
  let stream ← IO.getStdout
  stream.putStr text
  stream.flush

/-- Asks for a yes or a no on the terminal, where an empty line is a yes. -/
def ask (question : String) : IO Bool := do
  let terminal ← IO.getStderr
  unless ← terminal.isTty do throw (IO.userError "not a terminal")
  let mut answer : Option Bool := none
  repeat
    terminal.putStr (question ++ " [Y/n] ")
    terminal.flush
    match (← (← IO.getStdin).getLine).trimAscii.toString with
    | "" | "y" | "Y" => answer := some true
    | "n" | "N" => answer := some false
    | _ => answer := none
    if answer.isSome then break
  return answer.getD false

/-- The machine as a host. -/
def host : Host IO where
  isPresent := isPresent
  read path := attempt do return (← IO.FS.readBinFile path).toList
  write path octets := attempt (IO.FS.writeBinFile path ⟨octets.toArray⟩)
  readInput := attempt do readAll (← IO.getStdin)
  print text := attempt (print text)
  isTerminal := do (← IO.getStdin).isTty
  ask question := do
    try
      return .ok (← ask question)
    catch e => return .error (toString e)
  connect := return .ok ()
  send _ _ := return .error "no transport"
  freshSeed := return (Identifier.ofRandom (← IO.getRandomBytes 16).toList).text

/-- A variable of the environment, written with an equals sign between its name and its value. -/
def nameAndValue? (octets : List UInt8) : Option (String × String) :=
  match (Text.Utf8.decode octets).map (·.span (· != '=')) with
  | some (name, _ :: value) => some (String.ofList name, String.ofList value)
  | _ => none

/-- The environment of the program. -/
def environment : IO Settings.Environment := do
  match ← attempt (IO.FS.readBinFile "/proc/self/environ") with
  | .error _ => return []
  | .ok octets =>
    let parts := octets.toList.splitBy fun _ b => b != 0
    return Table.ofList (parts.filterMap fun part => nameAndValue? (part.filter (· != 0)))

end Stencil.Machine

/-- Runs the program. -/
def main (args : List String) : IO UInt32 := do
  let ending ← Stencil.Command.runProgram Stencil.Machine.host (← Stencil.Machine.environment) args
  match ending.failure with
  | some text => IO.eprintln s!"❌ Error: {text}"
  | none => if ending.code != 0 then IO.eprintln Stencil.Command.helpText
  return UInt32.ofNat ending.code
