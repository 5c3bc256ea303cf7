import SchemaMatch.CommandLine.Pattern
import SchemaMatch.Decimal.Reading

/-!
# Log filters

Which log levels a run may be given. A filter is a list of directives between commas, of which empty
ones are ignored. A directive is a level or a target, and it may go on with a span in brackets,
which may have a field in braces, and with an equals sign and a level. A field may have an equals
sign and a value, which is a number or a pattern.

Only the form of a filter matters here: whether it can be used (`checkFilter`).

White space around a directive is passed over, yet its parts are taken from the directive as it was
given, at the places that they have without the white space. Places count bytes, so that a part may
begin or end inside a character, and nothing can be made of such a filter.
-/

namespace SchemaMatch.CommandLine

/-- Whether a text is a level: a word in any letter case, or a number up to five, which may have a
    plus sign and zeros in front. -/
def isLevel (text : List Char) : Bool :=
  let digits :=
    match text with
    | '+' :: later => later
    | later => later
  let isNumber := !digits.isEmpty && digits.all Char.isDigit &&
    digits.foldl (fun n c => n * 10 + (c.toNat - '0'.toNat)) 0 ≤ 5
  let word := String.ofList (text.map Char.toLower)
  isNumber || word ∈ ["", "error", "warn", "info", "debug", "trace", "off"]

/-- Whether a text is a field: a name, and perhaps a value, of which a further equals sign is the
    end. -/
def isField (text : List Char) : Bool :=
  match text.dropWhile (· ≠ '=') with
  | [] => true
  | _ :: later =>
    let value := later.takeWhile (· ≠ '=')
    (Decimal.readDouble? value).isSome || Pattern.accepts value

/-- Why a filter cannot be used. -/
inductive FilterFault
  /-- It has not the form of a filter. -/
  | refused
  /-- A part of it begins or ends inside a character. -/
  | cut
  deriving DecidableEq

/-- What stands before a place of a text, and what stands behind it. -/
def splitAtPlace (place : Nat) : List Char → Except FilterFault (List Char × List Char)
  | [] => if place = 0 then .ok ([], []) else .error .cut
  | c :: later =>
    if place = 0 then .ok ([], c :: later)
    else if place < c.utf8Size then .error .cut
    else do
      let (front, back) ← splitAtPlace (place - c.utf8Size) later
      return (c :: front, back)

/-- The part of a text between two places. -/
def between (first last : Nat) (text : List Char) : Except FilterFault (List Char) := do
  let (front, _) ← splitAtPlace last text
  let (_, part) ← splitAtPlace first front
  return part

/-- What part of a directive is being read, with the place of its first character. -/
inductive FilterPart
  | start
  /-- A level or a target. -/
  | target
  /-- A span, in its brackets. -/
  | span (first : Nat)
  /-- A field of a span. -/
  | field (first : Nat)
  /-- What must follow the field of a span. -/
  | fieldEnd
  /-- What may follow a span. -/
  | spanEnd
  /-- A level after a target or a span. -/
  | level (first : Nat)

/-- The part of a directive that a character at a place leads to. -/
def FilterPart.next (directive : List Char) (place : Nat) (c : Char) :
    FilterPart → Except FilterFault FilterPart
  | .start =>
    if c = '[' then .ok (.span (place + 1))
    else if c ∈ ['-', ':', '_'] ∨ Text.isAlphanumeric c then .ok .target
    else .error .refused
  | .target =>
    if c = '=' then do
      let _ ← between 0 place directive
      return .level (place + 1)
    else if c = '[' then do
      let _ ← between 0 place directive
      return .span (place + 1)
    else .ok .target
  | .span first =>
    if c = ']' then do
      let _ ← between first place directive
      return .spanEnd
    else if c = '\x7b' then do
      let _ ← between first place directive
      return .field (place + 1)
    else .ok (.span first)
  | .field first =>
    if c ≠ '\x7d' then .ok (.field first)
    else do
      let text ← between first place directive
      if text.isEmpty ∨ ¬isField text then throw .refused
      return .fieldEnd
  | .fieldEnd => if c = ']' then .ok .spanEnd else .error .refused
  | .spanEnd => if c = '=' then .ok (.level (place + 1)) else .error .refused
  | .level first => .ok (.level first)

/-- The part of a directive that the characters from a place on lead to. -/
def FilterPart.after (directive : List Char) (place : Nat) (part : FilterPart) :
    List Char → Except FilterFault FilterPart
  | [] => .ok part
  | c :: later => do
    (← part.next directive place c).after directive (place + c.utf8Size) later

/-- Checks whether a directive can be used. -/
def checkDirective (directive : List Char) : Except FilterFault Unit := do
  let trimmed := ((directive.dropWhile Text.isBlank).reverse.dropWhile Text.isBlank).reverse
  match ← FilterPart.start.after directive 0 trimmed with
  | .target | .spanEnd => return ()
  | .level first =>
    let (_, text) ← splitAtPlace first directive
    if isLevel text then return () else throw .refused
  | _ => throw .refused

/-- Checks whether a filter can be used. -/
def checkFilter (filter : String) : Except FilterFault Unit :=
  ((filter.splitOn ",").filter fun directive => !directive.isEmpty).forM fun directive =>
    checkDirective directive.toList

end SchemaMatch.CommandLine
