import HfsPlus.CommandLine.Answer
import HfsPlus.Digest

/-!
# The program

Reads the command line and the environment, lets the library answer, and prints.
A file is read as a whole when it is opened. Events are shown when they are noted,
from warnings on; with `DEBUG` or `TRACE` in the environment, from those levels on.
-/

namespace HfsPlus.Program

/-- A program that shows events from a level on. -/
abbrev Shown := ReaderT Level IO

instance : Logging Shown where
  log event := do
    if (← read).rank ≤ event.level.rank then IO.eprintln event.line

/-- The system's wording of an error, with its number. -/
def systemReason : IO.Error → String
  | .otherError number wording | .resourceBusy number wording | .resourceVanished number wording
  | .unsupportedOperation number wording | .hardwareFault number wording
  | .unsatisfiedConstraints number wording | .illegalOperation number wording
  | .protocolError number wording | .timeExpired number wording
  | .interrupted _ number wording | .noFileOrDirectory _ number wording
  | .alreadyExists _ number wording | .invalidArgument _ number wording
  | .permissionDenied _ number wording | .resourceExhausted _ number wording
  | .inappropriateType _ number wording | .noSuchThing _ number wording =>
    s!"{wording} (os error {number})"
  | error => toString error

/-- What is found at a path. -/
def status (path : String) : IO FileStatus := do
  try
    let handle ← IO.FS.Handle.mk path .read
    return .file (.ofImage (← handle.readBinToEnd))
  catch
    | .noFileOrDirectory .. => return .missing
    | .permissionDenied .. => return .denied
    | .inappropriateType _ 21 _ => return .other
    | error => return .failed (systemReason error)

/-- Make a file empty. -/
def create (path : String) : IO (Except String Unit) := do
  try
    IO.FS.writeBinFile path .empty
    return .ok ()
  catch error => return .error (systemReason error)

/-- Add bytes at the end of a file. -/
def append (path : String) (bytes : Bytes) : IO (Except String Unit) := do
  try
    let handle ← IO.FS.Handle.mk path .append
    handle.write ⟨bytes.toArray⟩
    handle.flush
    return .ok ()
  catch error => return .error (systemReason error)

/-- Whether two paths lead to the same file. -/
def sameFile (left right : String) : IO Bool := do
  try
    return (← IO.FS.realPath left) == (← IO.FS.realPath right)
  catch _ => return false

/-- The files of the system. -/
def host : CommandLine.Host Shown where
  status path := status path
  create path := create path
  append path bytes := append path bytes
  sameFile left right := sameFile left right

/-- The level from which on events are shown. -/
def shownLevel : IO Level := do
  if (← IO.getEnv "TRACE").isSome then return .trace
  if (← IO.getEnv "DEBUG").isSome then return .debug
  return .warn

end HfsPlus.Program

open HfsPlus in
/-- Run the program. -/
def main (words : List String) : IO UInt32 := do
  let stdout ← IO.getStdout
  let color := (← IO.getEnv "NOCOLOR").isNone && (← stdout.isTty)
  let level ← Program.shownLevel
  let outcome ← (CommandLine.run Program.host Digest.hasher ⟨color⟩ words).run level
  stdout.putStr outcome.output
  stdout.flush
  IO.eprint outcome.complaint
  return UInt32.ofNat outcome.exitCode
