import PolicyLint.CommandLine.Program
import Std.Time.DateTime.Timestamp

/-!
# The executable

The program on the real system: files, the clock, the environment and the output streams.
-/
namespace PolicyLint
open CommandLine Time
set_option autoImplicit false

namespace System

/-- The text of an error starts with a capital letter, and its number is positive. -/
def numbered (number : UInt32) (text : String) : SystemError :=
  let n := number.toNat
  .numbered (if n < Decimal.half32 then n else Decimal.word32 - n) text.capitalize

def errorOf : IO.Error → SystemError
  | .alreadyExists _ n text | .inappropriateType _ n text | .invalidArgument _ n text
  | .permissionDenied _ n text | .resourceExhausted _ n text | .noSuchThing _ n text
  | .interrupted _ n text | .noFileOrDirectory _ n text | .otherError n text | .resourceBusy n text
  | .resourceVanished n text | .unsupportedOperation n text | .hardwareFault n text
  | .unsatisfiedConstraints n text | .illegalOperation n text | .protocolError n text
  | .timeExpired n text => numbered n text
  | .unexpectedEof => .other "unexpected end of file"
  | .userError text => .other text

/-- An action whose error is a value. -/
def caught {α : Type} (action : IO α) : IO (Except SystemError α) := do
  match ← action.toBaseIO with
  | .ok a => return .ok a
  | .error e => return .error (errorOf e)

/-- The text of a file; bytes that are no text are an error of their own. -/
def read (path : String) : IO (Except SystemError String) := do
  match ← caught (IO.FS.readBinFile path) with
  | .error e => return .error e
  | .ok bytes =>
    match String.fromUTF8? bytes with
    | some text => return .ok text
    | none => return .error (.other "stream did not contain valid UTF-8")

/-- A directory is what cannot be read because it is one. -/
def isDirectory (path : String) : IO Bool := do
  match ← caught (IO.FS.readBinFile path) with
  | .ok _ => return false
  | .error e => return e == SystemError.isDirectory

def now : IO Stamp := do
  let total := (← Std.Time.Timestamp.now).toNanosecondsSinceUnixEpoch.val.toNat
  return .ofEpoch (total / 1000000000) (total % 1000000000)

def host : Host IO where
  read := read
  write path content := caught (IO.FS.writeFile path content)
  makeDirectory path := caught (IO.FS.createDir path)
  isDirectory := isDirectory
  now := now

end System

end PolicyLint

def main (args : List String) : IO UInt32 := do
  let outcome ← PolicyLint.CommandLine.run PolicyLint.System.host (← IO.getEnv "RUST_LOG") args
  (← IO.getStdout).putStr outcome.console.out
  (← IO.getStderr).putStr outcome.console.err
  return outcome.exitCode.toUInt32
