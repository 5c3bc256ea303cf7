import SchemaMatch.Text.Alphanumeric
import SchemaMatch.Text.Lowercase

/-!
# Words

The words of a text are the maximal runs of letters and digits of its lowercase form, without the
stop words, which carry no meaning in a short description. A word is also looked at through its
trigrams: the runs of three characters of the word with two spaces around it.
-/

namespace SchemaMatch.Text

/-- The maximal runs of characters of a kind, given the characters of the run that is open, the last
    one first. -/
def runsFrom (kind : Char → Bool) (opened : List Char) : List Char → List (List Char)
  | [] => if opened.isEmpty then [] else [opened.reverse]
  | c :: later =>
    if kind c then runsFrom kind (c :: opened) later
    else if opened.isEmpty then runsFrom kind [] later
    else opened.reverse :: runsFrom kind [] later

/-- The maximal runs of characters of a kind. -/
def runs (kind : Char → Bool) (text : List Char) : List (List Char) :=
  runsFrom kind [] text

/-- The words that are left out. -/
def stopWords : List String :=
  ["a", "an", "and", "are", "as", "at", "be", "by", "for", "from", "has", "have", "in", "is", "it",
    "its", "of", "on", "or", "that", "the", "this", "to", "was", "were", "will", "with"]

/-- The words of a text. -/
def words (text : String) : List String :=
  ((runs isAlphanumeric (lowercase text.toList)).map String.ofList).filter (· ∉ stopWords)

/-- The runs of three neighbouring characters. -/
def triples : List Char → List String
  | a :: b :: c :: later => String.ofList [a, b, c] :: triples (b :: c :: later)
  | _ => []

/-- The distinct trigrams of a word. -/
def trigrams (word : String) : List String :=
  (triples (' ' :: ' ' :: (word.toList ++ [' ', ' ']))).eraseDups

end SchemaMatch.Text
