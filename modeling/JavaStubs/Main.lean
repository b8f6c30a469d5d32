import JavaStubs.Command.Run

/-!
# The program

Runs the command line on the files of the system.
-/
namespace JavaStubs

open Files (Disk FileError Outcome)

/-- The number that the system has for an error. -/
def errorNumber? : IO.Error → Option UInt32
  | .alreadyExists _ number _ | .otherError number _ | .resourceBusy number _
  | .resourceVanished number _ | .unsupportedOperation number _ | .hardwareFault number _
  | .unsatisfiedConstraints number _ | .illegalOperation number _ | .protocolError number _
  | .timeExpired number _ | .interrupted _ number _ | .noFileOrDirectory _ number _
  | .invalidArgument _ number _ | .permissionDenied _ number _ | .resourceExhausted _ number _
  | .inappropriateType _ number _ | .noSuchThing _ number _ => some number
  | _ => none

/-- The failure that an error of the system is. -/
def fileError (error : IO.Error) : FileError :=
  ((errorNumber? error).bind fun number => FileError.ofNumber? number.toNat).getD
    (.other error.toString)

/-- Works on the file at a path. -/
def onFile {α : Type} (path : Path) (action : String → IO α) : IO (Outcome α) :=
  if path.text.contains '\x00' then return .error .nulCharacter
  else try
    return .ok (← action path.text)
  catch error => return .error (fileError error)

/-- Opens the file at a path and closes it again. -/
def probe (path : String) : IO Unit := do
  let _ ← IO.FS.Handle.mk path .read

/-- A file that may not be read is there nevertheless. -/
def isThere (outcome : Outcome Unit) : Bool :=
  match outcome with
  | .ok () => true
  | .error (.other _) => true
  | .error _ => false

instance : Disk IO where
  isPresent path := return isThere (← onFile path probe)
  isDirectory path := do
    if path.isEmpty then return false
    return (← onFile path fun text => probe (text ++ "/.")).toBool
  makeDirectory path := onFile path fun text => IO.FS.createDir text
  createFile path := onFile path fun text => IO.FS.writeFile text ""
  fillFile path content := onFile path fun text =>
    IO.FS.withFile text .write fun file => do
      file.putStr content
      file.flush
  deleteFile path := onFile path fun text => IO.FS.removeFile text
  deleteIfEmpty path := do
    match ← onFile path fun text => IO.FS.removeDir text with
    | .ok () => return .ok true
    | .error .notEmpty => return .ok false
    | .error error => return .error error
  readText path := do
    match ← onFile path fun text => IO.FS.readBinFile text with
    | .error error => return .error error
    | .ok bytes =>
      match String.fromUTF8? bytes with
      | some text => return .ok text
      | none => return .error .notText

end JavaStubs

def main (arguments : List String) : IO UInt32 := do
  let ending ← JavaStubs.Command.run arguments
  IO.print ending.output
  IO.eprint ending.errors
  return ending.exitCode.toUInt32
