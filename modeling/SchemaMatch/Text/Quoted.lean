import SchemaMatch.Text.Printable

/-!
# Quoted text

How a message shows a text whose content is not known to be harmless: between quotes, with a short
escape for the six characters that have one, a numbered escape for every character that has no form
of its own or would join with the character before it, and all else as it is.
-/

namespace SchemaMatch.Text

/-- A character inside a quoted text. -/
def quotedChar (c : Char) : List Char :=
  if c = '\x00' then ['\\', '0']
  else if c = '\t' then ['\\', 't']
  else if c = '\r' then ['\\', 'r']
  else if c = '\n' then ['\\', 'n']
  else if c = '\\' ∨ c = '"' then ['\\', c]
  else if isGraphemeExtend c ∨ ¬isPrintable c then
    '\\' :: 'u' :: '\x7b' :: (Nat.toDigits 16 c.toNat ++ ['\x7d'])
  else [c]

/-- A text between quotes. -/
def quoted (text : String) : String :=
  String.ofList ('"' :: (text.toList.flatMap quotedChar ++ ['"']))

end SchemaMatch.Text
