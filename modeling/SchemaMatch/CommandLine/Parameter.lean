import SchemaMatch.CommandLine.Plain

/-!
# Parameters of the command line

The parameters that take a value, the flags that take none, and how an argument that does not fit is
reported. Every parameter has a long name, and the most common ones also a letter; its placeholder
is the long name in capitals.
-/

namespace SchemaMatch.CommandLine

/-- A parameter that takes a value. -/
inductive Parameter
  | input
  | output
  | config
  | strategy
  | threshold
  | topK
  | seed
  | provider
  | model
  | endpoint
  | format
  | device
  | dimension
  | logLevel
  deriving DecidableEq

/-- A flag, which ends the run at once. -/
inductive Flag
  | help
  | version
  deriving DecidableEq

namespace Parameter

/-- All parameters, in the order in which they are explained. -/
def all : List Parameter :=
  [ input, output, config, strategy, threshold, topK, seed, provider, model, endpoint, format,
    device, dimension, logLevel ]

/-- The long name of a parameter. -/
def longName : Parameter → String
  | input => "input"
  | output => "output"
  | config => "config"
  | strategy => "strategy"
  | threshold => "threshold"
  | topK => "top-k"
  | seed => "seed"
  | provider => "provider"
  | model => "model"
  | endpoint => "endpoint"
  | format => "format"
  | device => "device"
  | dimension => "dimension"
  | logLevel => "log-level"

/-- The letter of a parameter. -/
def letter? : Parameter → Option Char
  | input => some 'i'
  | output => some 'o'
  | config => some 'c'
  | _ => none

/-- What a parameter is for. -/
def purpose : Parameter → String
  | input => "Input JSON with fieldDescriptions and apiMethods (default: stdin)"
  | output => "Where to write the recommendations (default: stdout)"
  | config => "JSON config file; flags below override it"
  | strategy => "Scoring strategy: cosine or projected"
  | threshold => "Minimum score for a recommendation"
  | topK => "Best APIs considered per field"
  | seed => "Seed for the projected strategy's fixed weights"
  | provider => "Embedding provider: hashing or http"
  | model => "Embedding model identifier"
  | endpoint => "Embedding service URL for the http provider"
  | format => "Request format of the embedding service: openai, huggingface or custom"
  | device => "Compute device: cpu, accelerator or auto"
  | dimension => "Output dimension of the hashing embedder"
  | logLevel => "Log level, used when RUST_LOG is unset [default: warn]"

/-- The placeholder for the value of a parameter. -/
def placeholder (p : Parameter) : String :=
  p.longName.map fun c => if c = '-' then '_' else c.toUpper

/-- A parameter with its placeholder, as messages show it. -/
def shown (p : Parameter) : String :=
  "--" ++ p.longName ++ " <" ++ p.placeholder ++ ">"

end Parameter

namespace Flag

/-- All flags. -/
def all : List Flag := [help, version]

/-- The long name of a flag. -/
def longName : Flag → String
  | help => "help"
  | version => "version"

/-- The letter of a flag. -/
def letter : Flag → Char
  | help => 'h'
  | version => 'V'

/-- What a flag is for. -/
def purpose : Flag → String
  | help => "Print help"
  | version => "Print version"

end Flag

/-- What a long name or a letter stands for. -/
abbrev Named := Parameter ⊕ Flag

/-- What a long name stands for. -/
def named? (name : String) : Option Named :=
  ((Parameter.all.find? (·.longName = name)).map .inl).or
    ((Flag.all.find? (·.longName = name)).map .inr)

/-- What a letter stands for. -/
def lettered? (letter : Char) : Option Named :=
  ((Parameter.all.find? (·.letter? = some letter)).map .inl).or
    ((Flag.all.find? (·.letter = letter)).map .inr)

/-- Why the arguments do not fit. -/
inductive ArgumentFault
  /-- An argument that is no value, no name and no letter of anything. -/
  | unexpected (argument : String)
  /-- A parameter without a value. -/
  | valueMissing (p : Parameter)
  /-- A parameter that is given a second time. -/
  | repeated (p : Parameter)
  /-- A parameter with a value that it does not take. -/
  | invalidValue (p : Parameter) (value reason : String)
  /-- A flag with a value. -/
  | unexpectedValue (f : Flag) (value : String)

/-- The words for arguments that do not fit, with what was given in colour. -/
def ArgumentFault.message : ArgumentFault → String
  | .unexpected argument => "unexpected argument '" ++ coloured argument ++ "' found"
  | .valueMissing p => s!"a value is required for '{p.shown}' but none was supplied"
  | .repeated p => s!"the argument '{p.shown}' cannot be used multiple times"
  | .invalidValue p value reason =>
    "invalid value '" ++ coloured value ++ s!"' for '{p.shown}': {reason}"
  | .unexpectedValue f value =>
    "unexpected value '" ++ coloured value ++
      s!"' for '--{f.longName}' found; no more were expected"

/-- What is written about arguments that do not fit, without its colours. -/
def ArgumentFault.complaint (fault : ArgumentFault) : String :=
  plain ("error: " ++ fault.message ++
    "\n\nFor more information, try '" ++ coloured "--help" ++ "'.")

/-! ## Help -/

/-- The lines that explain the names of parameters and flags. -/
def helpLines : List (String × String) :=
  let lettered (letter : Option Char) (name : String) :=
    match letter with
    | some c => "  -" ++ c.toString ++ ", --" ++ name
    | none => "      --" ++ name
  Parameter.all.map (fun p =>
    (lettered p.letter? p.longName ++ " <" ++ p.placeholder ++ ">", p.purpose)) ++
  Flag.all.map fun f => (lettered (some f.letter) f.longName, f.purpose)

/-- The text that explains the command line. -/
def helpText : String :=
  let width := helpLines.foldl (fun width line => max width line.1.length) 0
  let lines := helpLines.map fun line =>
    line.1 ++ "".pushn ' ' (width - line.1.length + 2) ++ line.2 ++ "\n"
  "Match schema fields to API methods by embedding similarity\n\n" ++
    "Usage: fieldmatch [OPTIONS]\n\nOptions:\n" ++ String.join lines

/-- The text that tells the version. -/
def versionText : String := "fieldmatch 0.1.0\n"

end SchemaMatch.CommandLine
