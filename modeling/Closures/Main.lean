import Closures.Command.Perform

/-!
# The program

The command line on the files and streams of the system.
-/

set_option autoImplicit false

namespace Closures

/-- The number of an error of the system, which some operations give negated. -/
def FileError.number (code : UInt32) : UInt32 := if code < 0x80000000 then code else 0 - code

/-- Why a file cannot be used, from the system's error. -/
def FileError.ofSystem (e : IO.Error) : FileError :=
  match e with
  | .noFileOrDirectory _ _ _ => .notFound
  | .permissionDenied _ _ _ => .other "Permission denied (os error 13)"
  | .inappropriateType _ code _ | .invalidArgument _ code _ =>
    match FileError.number code with
    | 20 => .notDirectory
    | 21 => .isDirectory
    | 36 => .nameTooLong
    | _ => .other (toString e)
  | _ => .other (toString e)

/-- Carry out an operation on files. -/
def FileError.attempt {α : Type} (operation : IO α) : IO (Except FileError α) := do
  match ← operation.toBaseIO with
  | .ok a => return .ok a
  | .error e => return .error (.ofSystem e)

/-- The stream of a channel. -/
def Channel.stream : Channel → IO IO.FS.Stream
  | .out => IO.getStdout
  | .err => IO.getStderr

instance : Host IO where
  isThere path := do
    match ← FileError.attempt (IO.FS.readFile path) with
    | .error .notFound => return false
    | _ => return true
  read path := FileError.attempt (IO.FS.readFile path)
  write path text := FileError.attempt (IO.FS.writeFile path text)
  print channel line := do (← channel.stream).putStrLn line
  isTerminal channel := do (← channel.stream).isTty

end Closures

/-- Carry out the command line. -/
def main (args : List String) : IO UInt32 := Closures.Perform.execute args
