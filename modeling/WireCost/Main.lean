import WireCost.CommandLine.Run

/-! # The command line program

Reads the files that a run looks at, and prints what the run answers. -/

namespace WireCost

/-- The number of an operating system's error, which some operations give negated. -/
def errorNumber (code : UInt32) : UInt32 :=
  if code.toNat < Word.size31 then code else 0 - code

/-- Why reading a file failed. -/
def ReadFailure.ofError : IO.Error → ReadFailure
  | .noFileOrDirectory .. => .missing
  | .inappropriateType _ code _ =>
    if errorNumber code = 20 then .belowFile else .directory
  | .permissionDenied .. => .refused "Permission denied (os error 13)"
  | .invalidArgument _ code details =>
    if errorNumber code = 36 then .nameTooLong
    else .refused s!"{details} (os error {errorNumber code})"
  | e => .refused (toString e)

/-- What is found at a path. -/
def lookAt (path : String) : IO (Except ReadFailure String) := do
  try
    match String.fromUTF8? (← IO.FS.readBinFile path) with
    | some text => return .ok text
    | none => return .error .notText
  catch e => return .error (.ofError e)

/-- What a run finds around it, of which it looks at some paths. -/
def lookAround (paths : List String) : IO Surroundings := do
  let contents ← paths.mapM fun path => return (path, ← lookAt path)
  let terminal ← (← IO.getStderr).isTty
  return ⟨fun path => (contents.lookup path).getD (.error .missing), terminal⟩

end WireCost

open WireCost in
/-- Runs the program. -/
def main (args : List String) : IO UInt32 := do
  let paths := match Invocation.ofArguments args with
    | .ok i => i.paths
    | .error _ => []
  let printed := printedOf args (← lookAround paths)
  (← IO.getStderr).putStr printed.messages
  (← IO.getStdout).putStr printed.output
  return printed.exit
