import SchemaMatch.Provider.Remote

/-!
# Targets of requests

What a request asks its host for (`HttpRequest.target`): the path and the query of an address, in
the form in which they are sent.

Control characters at the end of an address and line breaks in it count for nothing, and so does all
from a number sign on. A path is divided by slashes, for which backslashes may stand; of its steps,
a single dot stays and two dots go back. A character that may not stand in a path or in a query is
told by the bytes of its UTF-8 form.
-/

namespace SchemaMatch

/-- The bytes of a character, each as a percent sign with two hexadecimal digits. -/
def percentForm (c : Char) : List Char :=
  (String.utf8EncodeChar c).flatMap fun byte =>
    '%' :: [byte.toNat / 16, byte.toNat % 16].map fun n => (Nat.digitChar n).toUpper

/-- A text with the characters told by their bytes that may stand in no target, or not in this part
    of one. -/
def percentEncoded (excluded : List Char) (text : List Char) : List Char :=
  text.flatMap fun c =>
    if c ≤ ' ' ∨ '\x7f' ≤ c ∨ c ∈ ['"', '<', '>'] ∨ c ∈ excluded then percentForm c else [c]

/-- Whether a step of a path stays where it is. A dot may be told by its byte. -/
def staysPut (step : String) : Bool :=
  step.toLower ∈ [".", "%2e"]

/-- Whether a step of a path goes back. -/
def goesBack (step : String) : Bool :=
  step.toLower ∈ ["..", ".%2e", "%2e.", "%2e%2e"]

/-- Takes the steps of a path after those taken before, the last one first. A path that ends where
    it stays or goes back ends with a slash. -/
def walk (before : List String) : List String → List String
  | [] => before.reverse
  | step :: later =>
    let behind := if later.isEmpty then [""] else []
    if goesBack step then walk (behind ++ before.tail) later
    else if staysPut step then walk (behind ++ before) later
    else walk (step :: before) later

/-- The form of a path in a target. -/
def pathForm (path : List Char) : String :=
  let steps := (String.ofList (path.map fun c => if c = '\\' then '/' else c)).splitOn "/"
  let steps := if steps.head? = some "" then steps.tail else steps
  "/" ++ "/".intercalate ((walk [] steps).map fun step =>
    String.ofList (percentEncoded ['\x60', '\x7b', '\x7d', '^'] step.toList))

/-- The target of a request whose endpoint is told without the host. -/
def HttpRequest.target (r : HttpRequest) : String :=
  let address := (r.endpoint.toList.reverse.dropWhile (· ≤ ' ')).reverse
  let address := (address.filter (· ∉ ['\t', '\n', '\r'])).takeWhile (· ≠ '#')
  let (path, query) := address.span (· ≠ '?')
  pathForm path ++ String.ofList (percentEncoded ['\x27'] query)

end SchemaMatch
