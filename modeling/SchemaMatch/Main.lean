import SchemaMatch.CommandLine.Session

/-!
# The program

Runs a session in the world: reads what the session may ask for, and carries out what it decides. No
embedding service is reached from here, so that every request goes without a response.
-/

namespace SchemaMatch.CommandLine

/-- The content of a file, or why it cannot be read. -/
def readContent (path : String) : IO (Except IoFault (List UInt8)) := do
  try
    return .ok (← IO.FS.readBinFile path).data.toList
  catch
    | .noFileOrDirectory .. => return .error .notFound
    | .inappropriateType _ code detail =>
      return .error (if code = 20 then .notDirectory else if code = 21 then .isDirectory
        else .other detail)
    | e => return .error (.other (toString e))

/-- The contents of the files that the arguments name. -/
def readContents (arguments : List String) : IO (List (String × Except IoFault (List UInt8))) :=
  match read arguments with
  | .ok (.run a) =>
    (a.input.toList ++ a.config.toList).mapM fun path => return (path, ← readContent path)
  | _ => return []

/-- The bytes of the standard input, if the arguments name no file in its place. -/
def readInput (arguments : List String) : IO (List UInt8) := do
  match read arguments with
  | .ok (.run a) =>
    if a.input.isSome then return []
    else return (← (← IO.getStdin).readBinToEnd).data.toList
  | _ => return []

/-- Writes some bytes, and gives the exit code, which is another one if they cannot be written. -/
def writeAll (stream : IO.FS.Stream) (bytes : List UInt8) (code : UInt32) : IO UInt32 := do
  try
    stream.write ⟨bytes.toArray⟩
    stream.flush
    return code
  catch e =>
    IO.eprintln ("Error: " ++ (Error.io (.other (toString e))).message)
    return 1

end SchemaMatch.CommandLine

open SchemaMatch CommandLine in
/-- Runs a session and carries out what it decides. How far its text gets is seen only then. -/
def main (arguments : List String) : IO UInt32 := do
  let contents ← readContents arguments
  let surroundings : Surroundings :=
    { logVariable := ← IO.getEnv "RUST_LOG"
      content := fun path => (contents.lookup path).getD (.error .notFound)
      standardInput := ← readInput arguments
      standardOutput := .unlimited
      create := fun _ => some .unlimited }
  let outcome := Id.run (session (fun _ => pure none) surroundings arguments)
  for complaint in outcome.complaint do IO.eprintln complaint
  let code := outcome.code.toUInt32
  match outcome.written with
  | none => writeAll (← IO.getStdout) outcome.standardOutput code
  | some (path, bytes) =>
    match ← (IO.FS.Handle.mk path .write).toBaseIO with
    | .ok handle => writeAll (.ofHandle handle) bytes code
    | .error _ =>
      IO.eprintln ("Error: failed to create " ++ path)
      return 1
