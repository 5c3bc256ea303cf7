import SchemaMatch.Settings
import SchemaMatch.CommandLine.Parameter
import SchemaMatch.Decimal.Reading

/-!
# Arguments

How the arguments of a run are understood. A parameter is given by its long name or its letter; its
value follows an equals sign, or the letter itself, or is the next argument, which must not begin
with a dash unless it is a dash alone or, for the threshold, a negative number. The value of a
parameter is not looked at before the next parameter comes or the arguments end, so that an argument
that cannot be understood at all is reported first.
-/

namespace SchemaMatch.CommandLine

/-- The values given by the arguments. -/
structure Arguments where
  /-- The file of the payload, or the standard input. -/
  input : Option String
  /-- The file of the recommendations, or the standard output. -/
  output : Option String
  /-- The file of the settings. -/
  config : Option String
  /-- The settings given one by one. -/
  overrides : Overrides
  /-- What is logged. -/
  logLevel : String

/-- The values without arguments. -/
def Arguments.standard : Arguments :=
  ⟨none, none, none, .none, "warn"⟩

/-- What the arguments ask for. -/
inductive Invocation
  | run (arguments : Arguments)
  | help
  | version

/-- What a flag asks for. -/
def Flag.invocation : Flag → Invocation
  | .help => .help
  | .version => .version

/-! ## Values -/

/-- Appends decimal digits to a number that must fit 64 bits. -/
def naturalFrom (n : Nat) : List Char → Except String UInt64
  | [] => .ok n.toUInt64
  | c :: later =>
    if ¬c.isDigit then .error "invalid digit found in string"
    else
      let next := n * 10 + (c.toNat - '0'.toNat)
      if 0xFFFFFFFFFFFFFFFF < next then .error "number too large to fit in target type"
      else naturalFrom next later

/-- The natural number that a value spells, which may have a plus sign. -/
def natural (value : String) : Except String UInt64 :=
  match value.toList with
  | [] => .error "cannot parse integer from empty string"
  | '+' :: c :: later => naturalFrom 0 (c :: later)
  | digits => naturalFrom 0 digits

/-- The decimal number that a value spells. -/
def decimal (value : String) : Except String Float :=
  match Decimal.readDouble? value.toList with
  | some x => .ok x
  | none =>
    .error <|
      if value.isEmpty then "cannot parse float from empty string" else "invalid float literal"

/-- The overrides with the value of a parameter. -/
def overrideWith (o : Overrides) (p : Parameter) (value : String) : Except String Overrides :=
  match p with
  | .strategy => do
    let strategy ← (Strategy.ofName value).mapError UnknownName.message
    return { o with strategy := some strategy }
  | .threshold => return { o with threshold := some (← decimal value) }
  | .topK => return { o with topK := some (← natural value) }
  | .seed => return { o with seed := some (← natural value) }
  | .provider => do
    let provider ← (ProviderKind.ofName value).mapError UnknownName.message
    return { o with provider := some provider }
  | .model => return { o with model := some value }
  | .endpoint => return { o with endpoint := some value }
  | .format => do
    let format ← (Dialect.ofName value).mapError UnknownName.message
    return { o with format := some format }
  | .device => do
    let device ← (Device.ofName value).mapError UnknownName.message
    return { o with device := some device }
  | .dimension => return { o with dimension := some (← natural value) }
  | .input | .output | .config | .logLevel => return o

/-- The path that a value is, which must not be empty. -/
def path (p : Parameter) (value : String) : Except ArgumentFault String :=
  if value.isEmpty then .error (.valueMissing p) else .ok value

/-- The values with the value of a parameter. -/
def Arguments.store (a : Arguments) (p : Parameter) (value : String) :
    Except ArgumentFault Arguments :=
  match p with
  | .input => return { a with input := some (← path p value) }
  | .output => return { a with output := some (← path p value) }
  | .config => return { a with config := some (← path p value) }
  | .logLevel => return { a with logLevel := value }
  | other => do
    let overrides ← (overrideWith a.overrides other value).mapError (.invalidValue other value)
    return { a with overrides }

/-! ## Reading arguments -/

/-- The arguments as far as they were read. -/
structure Progress where
  arguments : Arguments
  /-- The parameters of which the values were stored. -/
  given : List Parameter
  /-- The parameter given last, with its value if it has one, which is not stored yet. -/
  pending : Option (Parameter × Option String)

namespace Progress

/-- Stores the value of a parameter. -/
def store (s : Progress) (p : Parameter) (value : Option String) : Except ArgumentFault Progress :=
  match value with
  | none => .error (.valueMissing p)
  | some value =>
    if p ∈ s.given then .error (.repeated p)
    else do
      let arguments ← s.arguments.store p value
      return ⟨arguments, p :: s.given, none⟩

/-- Stores the value that is not stored yet. -/
def resolve (s : Progress) : Except ArgumentFault Progress :=
  match s.pending with
  | none => .ok s
  | some (p, value) => s.store p value

/-- Takes a parameter, with its value if it came with one. -/
def parameter (s : Progress) (p : Parameter) (value : Option String) :
    Except ArgumentFault Progress := do
  let s ← s.resolve
  match value with
  | none => return { s with pending := some (p, none) }
  | some value => s.store p (some value)

/-- Whether the threshold was given and its value is due. -/
def awaitsThreshold (s : Progress) : Bool :=
  match s.pending with
  | some (.threshold, none) => true
  | _ => false

end Progress

/-- Whether a text is a number as far as it takes to tell it from letters of parameters: digits with
    at most one point, not in front and not after the exponent, and at most one exponent mark, not
    in front and not at the end. -/
def looksNumeric (text : List Char) : Bool :=
  let (mantissa, exponent) := text.span fun c => c ≠ 'e' ∧ c ≠ 'E'
  let (whole, fraction) := mantissa.span (· ≠ '.')
  whole.all Char.isDigit && (fraction.drop 1).all Char.isDigit &&
    (exponent.drop 1).all Char.isDigit &&
    (fraction.isEmpty || !whole.isEmpty) && (exponent.isEmpty || !mantissa.isEmpty) &&
    exponent.length ≠ 1

/-- What an argument is by its form. -/
inductive Form
  /-- Two dashes: only values may follow. -/
  | valuesOnly
  /-- A long name, with what follows its equals sign. -/
  | long (name : String) (value : Option String)
  /-- A letter, with what follows it. -/
  | short (letter : Char) (later : List Char)
  /-- Anything else. -/
  | plain

/-- The form of an argument. -/
def Form.of (argument : String) : Form :=
  match argument.toList with
  | ['-', '-'] => .valuesOnly
  | '-' :: '-' :: text =>
    let (name, value) := text.span (· ≠ '=')
    .long (String.ofList name)
      (match value with
        | [] => none
        | _ :: value => some (String.ofList value))
  | '-' :: letter :: later => .short letter later
  | _ => .plain

/-- The value that follows a letter, after an equals sign or at once. -/
def attached (later : List Char) : Option String :=
  match later with
  | [] => none
  | '=' :: value => some (String.ofList value)
  | value => some (String.ofList value)

/-- Takes an argument that is a value. -/
def Progress.value (s : Progress) (argument : String) : Except ArgumentFault Progress :=
  match s.pending with
  | some (p, none) => .ok { s with pending := some (p, some argument) }
  | _ => .error (.unexpected argument)

/-- Reads the remaining arguments. -/
def readFrom (s : Progress) : List String → Except ArgumentFault Invocation
  | [] => do
    let s ← s.resolve
    return .run s.arguments
  | argument :: later =>
    match Form.of argument with
    | .valuesOnly =>
      match later with
      | [] => do
        let s ← s.resolve
        return .run s.arguments
      | next :: _ => .error (.unexpected next)
    | .long name value =>
      match named? name, value with
      | none, _ => .error (.unexpected ("--" ++ name))
      | some (.inr flag), some value => .error (.unexpectedValue flag value)
      | some (.inr flag), none => do
        let _ ← s.resolve
        return flag.invocation
      | some (.inl p), value => do readFrom (← s.parameter p value) later
    | .short letter text =>
      if s.awaitsThreshold ∧ looksNumeric (letter :: text) then do
        readFrom (← s.value argument) later
      else
        match lettered? letter with
        | none => .error (.unexpected ("-" ++ letter.toString))
        | some (.inr flag) => do
          let _ ← s.resolve
          return flag.invocation
        | some (.inl p) => do readFrom (← s.parameter p (attached text)) later
    | .plain => do readFrom (← s.value argument) later

/-- What the arguments of a run ask for. -/
def read (arguments : List String) : Except ArgumentFault Invocation :=
  readFrom ⟨.standard, [], none⟩ arguments

end SchemaMatch.CommandLine
