import SchemaMatch.Json.Reader.Collection
import SchemaMatch.Json.Reader.Skip

/-!
# Reading records and names

A record is read from an object whose members may come in any order, or from an array that has its
fields in theirs. In an object, members of other names are passed over, and a field may be given
once only. What happens when a field is absent depends on its `Presence`.

An enumeration is read from one of its names as a string, or from an object with the name and
`null`.
-/

namespace SchemaMatch.Json

open Reader

/-! ## Records -/

/-- What happens when a field of a record is absent. -/
inductive Presence
  /-- The record cannot be read. -/
  | required
  /-- The field keeps the value that it has in the blank record. -/
  | defaulted
  /-- The field keeps that value in an object; in an array it must be given. -/
  | optional
  deriving DecidableEq

/-- A field of a record, with how its value is read and stored. -/
structure Field (τ : Type) where
  /-- The name of the member. -/
  name : String
  /-- What happens when it is absent. -/
  presence : Presence
  /-- Reads its value into the record. -/
  read : τ → Decoder τ

/-- The form of a record. -/
structure Record (τ : Type) where
  /-- The name of the kind of record. -/
  title : String
  /-- The fields, in the order they have in an array. -/
  fields : List (Field τ)
  /-- The record before any field is read. -/
  blank : τ

namespace Record

variable {τ : Type}

/-- A field that is stored by an update of the record. -/
def field {α : Type} (name : String) (presence : Presence) (decoder : Decoder α)
    (store : τ → α → τ) : Field τ :=
  ⟨name, presence, fun record depth => do return store record (← decoder depth)⟩

/-- What is expected where a record is due. -/
def expected (form : Record τ) : String :=
  "struct " ++ form.title

/-- What is expected where a record is due as an array. -/
def expectedItems (form : Record τ) : String :=
  let count := form.fields.length
  s!"{form.expected} with {count} element" ++ (if count = 1 then "" else "s")

/-- The record as far as it was read from an object, and the names of the fields that were given. -/
structure Partial (τ : Type) where
  record : τ
  given : List String

/-- Takes a member after its name. -/
def member (form : Record τ) (depth : Nat) (part : Partial τ) (name : String) :
    Reader (Partial τ) :=
  match form.fields.find? (·.name = name) with
  | none => do
    colon
    skipValue
    return part
  | some field =>
    if name ∈ part.given then failObject (.duplicateField name)
    else do
      colon
      return ⟨← field.read part.record depth, name :: part.given⟩

/-- The first field that must be given and was not. -/
def missing? (form : Record τ) (given : List String) : Option String :=
  (form.fields.find? fun field => field.presence = .required ∧ field.name ∉ given).map (·.name)

/-- Takes a record from an object after its opening brace. -/
def fromObject (form : Record τ) (depth : Nat) : Reader τ := do
  let part ← members (form.member depth) ⟨form.blank, []⟩
  match form.missing? part.given with
  | some name => fail (.missingField name) .behind
  | none => return part.record

/-- Takes the remaining fields of a record from an array. -/
def fromItems (form : Record τ) (depth : Nat) (record : τ) (index : Nat) :
    List (Field τ) → Reader τ
  | [] => do
    closeArray
    return record
  | field :: later => do
    if ← nextItem (index = 0) then
      form.fromItems depth (← field.read record depth) (index + 1) later
    else if field.presence = .defaulted then form.fromItems depth record (index + 1) later
    else
      let _ ← take
      fail (.invalidLength index form.expectedItems) .behind

/-- Reads a record. -/
def decoder (form : Record τ) : Decoder τ := fun depth => do
  let byte ← peekValue
  if byte = Byte.openBracket then
    nested (fun depth => form.fromItems depth form.blank 0 form.fields) depth
  else if byte = Byte.openBrace then nested form.fromObject depth
  else Decoder.mismatch form.expected

end Record

/-! ## Names -/

/-- The value that a name stands for in a table of names. -/
def lookup {α : Type} (table : List (String × α)) (name : String) : Reader α :=
  match table.lookup name with
  | some value => return value
  | none => fail (.unknownVariant name (table.map (·.1))) .behind

/-- Reads `null`. -/
def Decoder.unit : Reader Unit := do
  if (← peekValue) = Byte.ofChar 'n' then
    let _ ← take
    word ['u', 'l', 'l']
  else mismatch "unit"

/-- Reads one of the names of a table, and gives what it stands for. -/
def Decoder.named {α : Type} (table : List (String × α)) : Decoder α := fun depth => do
  let byte ← peekValue
  if byte = Byte.quote then
    let _ ← take
    lookup table (← stringRest)
  else if byte = Byte.openBrace then
    nested (fun _ => do
      blanks
      let value ←
        match ← peek with
        | none => fail .endInObject .ahead
        | some byte => do lookup table (← nameAt byte)
      colon
      Decoder.unit
      blanks
      match ← peek with
      | none => fail .endInObject .ahead
      | some byte =>
        if byte = Byte.closeBrace then
          let _ ← take
          return value
        else fail .expectedValue .behind) depth
  else fail .expectedValue .ahead

end SchemaMatch.Json
