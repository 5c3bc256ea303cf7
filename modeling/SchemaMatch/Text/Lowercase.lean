import SchemaMatch.Text.Case

/-!
# Lowercase text

Every character is replaced by its lowercase form. Only the capital sigma looks at its surroundings:
it becomes the final form when it ends a word, that is, when the nearest character before it that is
not case-ignorable has a case, and the nearest such character after it has none.
-/

namespace SchemaMatch.Text

/-- Whether the first character that is not case-ignorable has a case. -/
def startsCased : List Char → Bool
  | [] => false
  | c :: later => if isCaseIgnorable c then startsCased later else isCased c

/-- The lowercase form of a character, given the characters before it, the nearest one first, and
    those after it. -/
def lowercaseAmong (before : List Char) (c : Char) (after : List Char) : List Char :=
  if c = 'Σ' then [if startsCased before ∧ ¬startsCased after then 'ς' else 'σ']
  else lowercaseChar c

/-- The lowercase form of a text that follows some characters, given the nearest one first. -/
def lowercaseAfter (before : List Char) : List Char → List Char
  | [] => []
  | c :: after => lowercaseAmong before c after ++ lowercaseAfter (c :: before) after

/-- The lowercase form of a text. -/
def lowercase (text : List Char) : List Char :=
  lowercaseAfter [] text

end SchemaMatch.Text
