import SchemaMatch.CommandLine.Arguments
import SchemaMatch.CommandLine.LogFilter
import SchemaMatch.Matcher

/-!
# Sessions

A run of the program as a function of its arguments and of what it finds around it. Its stages come
in a fixed order: the arguments, the log filter, the settings, the payload, the provider, the
matcher, and the recommendations; the first one that fails ends the run. Only when all have
succeeded is anything written, either to the standard output or to a file.
-/

namespace SchemaMatch.CommandLine

/-- Something that a text is written to. -/
structure Outlet where
  /-- How it takes what is written. -/
  sink : Sink
  /-- The number of bytes that get through if writing fails. -/
  kept : Nat

/-- An outlet that takes everything. -/
def Outlet.unlimited : Outlet := ⟨.unlimited, 0⟩

/-- What a run finds around it. -/
structure Surroundings where
  /-- The value of the variable `RUST_LOG`, if it is set to a text. -/
  logVariable : Option String
  /-- The content of a file. -/
  content : String → Except IoFault (List UInt8)
  /-- The standard input. -/
  standardInput : List UInt8
  /-- The standard output. -/
  standardOutput : Outlet
  /-- Creates a file, or empties it if there is one, unless it cannot. -/
  create : String → Option Outlet

/-- What a run does. -/
structure Outcome where
  /-- The exit code. -/
  code : Nat
  /-- What it writes to the standard output. -/
  standardOutput : List UInt8
  /-- Its complaint. -/
  complaint : Option String
  /-- The file that it creates, with its content. -/
  written : Option (String × List UInt8)

namespace Outcome

/-- A run that ends well after writing to the standard output. -/
def printed (text : String) : Outcome := ⟨0, Text.bytes text, none, none⟩

/-- A run that ends because of its arguments. -/
def misused (fault : ArgumentFault) : Outcome := ⟨2, [], some fault.complaint, none⟩

/-- A run that fails. -/
def failed (message : String) : Outcome := ⟨1, [], some ("Error: " ++ message), none⟩

/-- A run that breaks off without a complaint of its own. -/
def brokenOff : Outcome := ⟨101, [], none, none⟩

/-- A run that has come to writing, and leaves some bytes on the standard output or in a file. -/
def left (output : Option String) (result : Except String Unit) (bytes : List UInt8) : Outcome :=
  let (code, complaint) :=
    match result with
    | .ok () => (0, none)
    | .error message => (1, some ("Error: " ++ message))
  match output with
  | none => ⟨code, bytes, complaint, none⟩
  | some path => ⟨code, [], complaint, some (path, bytes)⟩

end Outcome

/-- Checks the log filter of a run: that of the variable if it can be used, and else the log level
    that was given. -/
def checkLog (s : Surroundings) (a : Arguments) : Except FilterFault Unit :=
  match s.logVariable.map checkFilter with
  | some (.ok ()) => .ok ()
  | some (.error .cut) => .error .cut
  | some (.error .refused) | none => checkFilter a.logLevel

/-- The settings of a run. -/
def settings (s : Surroundings) (a : Arguments) : Except Error Settings := do
  let given ←
    match a.config with
    | some path => Settings.ofFile path (s.content path)
    | none => .ok .standard
  given.overridden a.overrides

/-- The payload in a file. A directory can be opened like a file, but not be read as a payload. -/
def payloadOfFile (content : Except IoFault (List UInt8)) : Except Error Payload :=
  match content with
  | .ok bytes => Payload.ofStream bytes
  | .error .isDirectory => .error (.malformedInput IoFault.isDirectory.message)
  | .error fault => .error (.io fault)

/-- The payload of a run, or the words for the lack of it. -/
def payload (s : Surroundings) (a : Arguments) : Except String Payload :=
  match a.input with
  | some path => (payloadOfFile (s.content path)).mapError Error.message
  | none =>
    match Text.ofBytes? s.standardInput with
    | none => .error "failed to read input from stdin"
    | some text => (Payload.ofText text).mapError Error.message

/-- The recommendations that a run with a usable log filter ends with. -/
def result {m : Type → Type} [Monad m] (transport : Transport m) (s : Surroundings)
    (a : Arguments) : m (Except String Recommendations) :=
  let prepared : Except String (Matcher m × Payload) := do
    let settings ← (settings s a).mapError Error.message
    let payload ← payload s a
    let provider ← (settings.provider.build transport).mapError Error.message
    let matcher ← (Matcher.ofSettings provider settings.matching).mapError Error.message
    return (matcher, payload)
  match prepared with
  | .error message => return .error message
  | .ok (matcher, payload) => do
    return (← matcher.recommend payload).mapError Error.message

/-- Writes recommendations to an outlet, which is told once more that all was written. -/
def Outlet.receive (outlet : Outlet) (rs : Recommendations) : Except String Unit × List UInt8 :=
  let (result, taken) := rs.write outlet.sink
  let result := do
    result.mapError Error.message
    outlet.sink.flush.mapError IoFault.message
  match result with
  | .ok () => (.ok (), taken)
  | .error message => (.error message, taken.take outlet.kept)

/-- Where a run is to write to. -/
def Surroundings.outlet (s : Surroundings) : (output : Option String) → Except String Outlet
  | none => .ok s.standardOutput
  | some path =>
    match s.create path with
    | some outlet => .ok outlet
    | none => .error ("failed to create " ++ path)

/-- Writes the recommendations that a run ends with to where they are to go. -/
def deliver (s : Surroundings) (output : Option String) (rs : Recommendations) : Outcome :=
  match s.outlet output with
  | .error message => .failed message
  | .ok outlet =>
    let (result, bytes) := outlet.receive rs
    .left output result bytes

/-- A run of the program with values for its parameters. -/
def perform {m : Type → Type} [Monad m] (transport : Transport m) (s : Surroundings)
    (a : Arguments) : m Outcome := do
  match checkLog s a with
  | .error .refused => return .failed "invalid log level"
  | .error .cut => return .brokenOff
  | .ok () =>
    match ← result transport s a with
    | .error message => return .failed message
    | .ok rs => return deliver s a.output rs

/-- A run of the program. -/
def session {m : Type → Type} [Monad m] (transport : Transport m) (s : Surroundings)
    (arguments : List String) : m Outcome :=
  match read arguments with
  | .error fault => return .misused fault
  | .ok .help => return .printed helpText
  | .ok .version => return .printed versionText
  | .ok (.run a) => perform transport s a

end SchemaMatch.CommandLine
