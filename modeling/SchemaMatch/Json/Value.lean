/-!
# JSON values

A value keeps the members of its objects as they were written, in order and with every repetition.
A name that is repeated stands for the last of its members (`Value.member?`).
-/

namespace SchemaMatch.Json

/-- A number, by the way it is held. Only a number that is written has single precision. -/
inductive Number
  /-- A whole number of at most 64 bits. -/
  | whole (n : Int)
  /-- A double-precision number. -/
  | double (x : Float)
  /-- A single-precision number. -/
  | single (x : Float32)

/-- A JSON value. -/
inductive Value
  | null
  | bool (b : Bool)
  | number (n : Number)
  | string (s : String)
  | array (items : List Value)
  | object (members : List (String × Value))
  deriving Inhabited

/-- The JSON form of a natural number. -/
def Value.ofNatural (n : UInt64) : Value :=
  .number (.whole n.toNat)

/-- The JSON form of a number in double precision. -/
def Value.ofDouble (x : Float) : Value :=
  .number (.double x)

/-- The JSON form of a value that may be absent. -/
def Value.ofOption {α : Type} (form : α → Value) : Option α → Value
  | none => .null
  | some a => form a

/-- The value of the last member of a name. -/
def lastMember? (name : String) : List (String × Value) → Option Value
  | [] => none
  | (key, value) :: later =>
    (lastMember? name later).or (if key = name then some value else none)

/-- Puts a member into a list of members with ascending distinct names, in place of a member of the
    same name. -/
def placeMember (key : String) (value : Value) :
    List (String × Value) → List (String × Value)
  | [] => [(key, value)]
  | (other, held) :: later =>
    if key = other then (key, value) :: later
    else if key < other then (key, value) :: (other, held) :: later
    else (other, held) :: placeMember key value later

mutual

/-- The value with the members of every object in ascending order of their names and each name
    once, with the value of its last member. -/
def Value.canonical : Value → Value
  | .array items => .array (canonicalItems items)
  | .object members => .object (canonicalMembers [] members)
  | other => other

/-- The canonical forms of the items of an array. -/
def canonicalItems : List Value → List Value
  | [] => []
  | item :: later => item.canonical :: canonicalItems later

/-- Puts the canonical forms of members, from first to last, among those already placed. -/
def canonicalMembers (placed : List (String × Value)) :
    List (String × Value) → List (String × Value)
  | [] => placed
  | (key, value) :: later => canonicalMembers (placeMember key value.canonical placed) later

end

end SchemaMatch.Json
