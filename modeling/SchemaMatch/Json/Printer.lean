import SchemaMatch.Decimal.Layout
import SchemaMatch.Json.Value

/-!
# Writing JSON

One writer serves the compact and the indented form, which differ only in their `Spacing`: what
stands at the start of a line of a given depth, and what separates a name from its value. Empty
arrays and objects have nothing between their brackets in either form.

Strings escape the quote, the backslash and the control characters below the space, with the short
escape where there is one. A number that is not finite has no JSON form and is written as `null`.
-/

namespace SchemaMatch.Json

/-- The four hexadecimal digits of a control character. -/
def controlDigits (c : Char) : List Char :=
  ['0', '0', Nat.digitChar (c.toNat / 16), Nat.digitChar (c.toNat % 16)]

/-- A character inside a string. -/
def escapedChar (c : Char) : List Char :=
  if c = '"' ∨ c = '\\' then ['\\', c]
  else if c = '\x08' then ['\\', 'b']
  else if c = '\t' then ['\\', 't']
  else if c = '\n' then ['\\', 'n']
  else if c = '\x0c' then ['\\', 'f']
  else if c = '\r' then ['\\', 'r']
  else if c.toNat < 0x20 then '\\' :: 'u' :: controlDigits c
  else [c]

/-- A text between quotes. -/
def stringChars (s : String) : List Char :=
  '"' :: (s.toList.flatMap escapedChar ++ ['"'])

/-- The characters of a number. -/
def Number.chars : Number → List Char
  | .whole n => (toString n).toList
  | .double x => if x.isFinite then (Decimal.ofDouble x).toList else "null".toList
  | .single x => if x.isFinite then (Decimal.ofSingle x).toList else "null".toList

/-- The white space of a form. -/
structure Spacing where
  /-- What starts a line at a depth. -/
  line : (depth : Nat) → List Char
  /-- What stands between a name and its value. -/
  colon : List Char

/-- Everything on one line, without white space. -/
def compact : Spacing := ⟨fun _ => [], [':']⟩

/-- A line for each item and member, indented by two spaces for each depth. -/
def indented : Spacing := ⟨fun depth => '\n' :: List.replicate (2 * depth) ' ', [':', ' ']⟩

/-- Parts between two brackets, each on a line of its own one level deeper. -/
def Spacing.enclose (form : Spacing) (depth : Nat) (opening closing : Char)
    (parts : List (List Char)) : List Char :=
  if parts.isEmpty then [opening, closing]
  else
    opening :: form.line (depth + 1) ++
      (',' :: form.line (depth + 1)).intercalate parts ++ form.line depth ++ [closing]

mutual

/-- The characters of a value that stands at a depth. -/
def Value.chars (form : Spacing) (depth : Nat) : Value → List Char
  | .null => "null".toList
  | .bool b => (if b then "true" else "false").toList
  | .number n => n.chars
  | .string s => stringChars s
  | .array items => form.enclose depth '[' ']' (itemChars form (depth + 1) items)
  | .object members => form.enclose depth '\x7b' '\x7d' (memberChars form (depth + 1) members)

/-- The characters of each item. -/
def itemChars (form : Spacing) (depth : Nat) : List Value → List (List Char)
  | [] => []
  | item :: later => item.chars form depth :: itemChars form depth later

/-- The characters of each member. -/
def memberChars (form : Spacing) (depth : Nat) : List (String × Value) → List (List Char)
  | [] => []
  | (key, value) :: later =>
    (stringChars key ++ form.colon ++ value.chars form depth) :: memberChars form depth later

end

/-- The compact text of a value. -/
def Value.compact (value : Value) : String :=
  String.ofList (value.chars Json.compact 0)

/-- The indented text of a value. -/
def Value.indented (value : Value) : String :=
  String.ofList (value.chars Json.indented 0)

end SchemaMatch.Json
