import Mathlib.Data.List.Forall2

/-!
# Texts of JSON

What a text of JSON is, without a reader of it: a value (`ValueText`), and an object with given
members (`ObjectText`). White space may stand around every value, name and mark. Between the quotes
of a string every character may be escaped, and only some have to be. What is between the quotes of
a name spells the name (`Spells`). In a string that nobody reads (`Quotable`) an escape may also
stand for half a surrogate pair, which spells nothing.
-/

namespace SchemaMatch.Json

/-! ## White space -/

/-- The characters of white space. -/
def spaces : List Char := [' ', '\n', '\t', '\r']

/-- Whether a text is white space. -/
def Gap (text : List Char) : Prop :=
  ∀ c ∈ text, c ∈ spaces

instance (text : List Char) : Decidable (Gap text) :=
  List.decidableBAll (· ∈ spaces) text

theorem gap_nil : Gap [] :=
  fun _ h => absurd h List.not_mem_nil

/-! ## Strings -/

/-- The letters that may stand behind a backslash, each with the character that it stands for. -/
def letterEscapes : List (Char × Char) :=
  [('"', '"'), ('\\', '\\'), ('/', '/'), ('b', '\x08'), ('f', '\x0c'), ('n', '\n'), ('r', '\r'),
    ('t', '\t')]

/-- The hexadecimal digits, each with its value. -/
def hexDigits : List (Char × Nat) :=
  ['0', '1', '2', '3', '4', '5', '6', '7', '8', '9', 'a', 'b', 'c', 'd', 'e', 'f'].zipIdx ++
    ['A', 'B', 'C', 'D', 'E', 'F'].zipIdx 10

/-- Whether a text is of four hexadecimal digits that spell a number. -/
inductive Hex : List Char → Nat → Prop
  | digits {a b c d : Char} {i j k l : Nat} :
    (a, i) ∈ hexDigits → (b, j) ∈ hexDigits → (c, k) ∈ hexDigits → (d, l) ∈ hexDigits →
    Hex [a, b, c, d] (((i * 16 + j) * 16 + k) * 16 + l)

/-- Whether a character may stand for itself in a string. -/
def Unescaped (c : Char) : Prop :=
  ¬(c = '"' ∨ c = '\\') ∧ ¬c.toNat < 0x20

/-- Whether what stands between two quotes spells some characters. -/
inductive Spells : List Char → List Char → Prop
  | nil : Spells [] []
  | plain {c : Char} {text spelled : List Char} :
    Unescaped c → Spells text spelled → Spells (c :: text) (c :: spelled)
  | letter {l c : Char} {text spelled : List Char} :
    (l, c) ∈ letterEscapes → Spells text spelled → Spells ('\\' :: l :: text) (c :: spelled)
  | numbered {digits text spelled : List Char} {n : Nat} :
    Hex digits n → n.isValidChar → Spells text spelled →
    Spells ('\\' :: 'u' :: (digits ++ text)) (Char.ofNat n :: spelled)
  /-- A character beyond the basic plane, by the halves of its surrogate pair. -/
  | pair {first second text spelled : List Char} {n m : Nat} :
    Hex first (0xD800 + n) → Hex second (0xDC00 + m) → n < 0x400 → m < 0x400 →
    Spells text spelled →
    Spells ('\\' :: 'u' :: (first ++ '\\' :: 'u' :: (second ++ text)))
      (Char.ofNat (0x10000 + n * 0x400 + m) :: spelled)

/-- Whether a text may stand between two quotes. -/
inductive Quotable : List Char → Prop
  | nil : Quotable []
  | plain {c : Char} {text : List Char} : Unescaped c → Quotable text → Quotable (c :: text)
  | letter {l c : Char} {text : List Char} :
    (l, c) ∈ letterEscapes → Quotable text → Quotable ('\\' :: l :: text)
  | numbered {digits text : List Char} {n : Nat} :
    Hex digits n → Quotable text → Quotable ('\\' :: 'u' :: (digits ++ text))

/-! ## Numbers -/

/-- Whether a text is of digits, at least one. -/
def Digits (text : List Char) : Prop :=
  text ≠ [] ∧ ∀ c ∈ text, c.isDigit = true

theorem Digits.exists_cons {text : List Char} (h : Digits text) :
    ∃ c later, text = c :: later ∧ c.isDigit = true := by
  cases text with
  | nil => exact absurd rfl h.1
  | cons c later => exact ⟨c, later, rfl, h.2 c (by simp)⟩

/-- Whether a text is a whole number without a sign: only zero begins with a zero. -/
def WholeText (text : List Char) : Prop :=
  text = ['0'] ∨ Digits text ∧ text.head? ≠ some '0'

/-- Whether a text is the fraction of a number, which may be missing. -/
def FractionText (text : List Char) : Prop :=
  text = [] ∨ ∃ digits, text = '.' :: digits ∧ Digits digits

/-- Whether a text is the exponent of a number, which may be missing. -/
def ExponentText (text : List Char) : Prop :=
  text = [] ∨ ∃ mark ∈ ['e', 'E'], ∃ sign ∈ [[], ['+'], ['-']], ∃ digits,
    text = mark :: (sign ++ digits) ∧ Digits digits

/-- Whether a text is a number, of any magnitude. -/
def NumberText (text : List Char) : Prop :=
  ∃ sign ∈ [[], ['-']], ∃ whole fraction exponent,
    text = sign ++ (whole ++ (fraction ++ exponent)) ∧
      WholeText whole ∧ FractionText fraction ∧ ExponentText exponent

/-! ## Between brackets -/

/-- Whether a text is of what stands behind a part between two brackets: further parts, each behind
    a comma, and the closing bracket. -/
inductive Continued (closing : Char) : List (List Char) → List Char → Prop
  | nil {gap : List Char} : Gap gap → Continued closing [] (gap ++ [closing])
  | cons {gap gap' part text : List Char} {later : List (List Char)} :
    Gap gap → Gap gap' → Continued closing later text →
    Continued closing (part :: later) (gap ++ ',' :: (gap' ++ (part ++ text)))

/-- Whether a text is of some parts between two brackets and the closing bracket. -/
inductive Inside (closing : Char) : List (List Char) → List Char → Prop
  | nil {gap : List Char} : Gap gap → Inside closing [] (gap ++ [closing])
  | cons {gap part text : List Char} {later : List (List Char)} :
    Gap gap → Continued closing later text → Inside closing (part :: later) (gap ++ (part ++ text))

/-- A member of an object as it stands in a text. -/
structure MemberText where
  /-- What stands between the quotes of its name. -/
  name : List Char
  /-- What stands in front of its colon. -/
  before : List Char
  /-- What stands behind its colon. -/
  behind : List Char
  /-- The text of its value. -/
  value : List Char

namespace MemberText

/-- The text of a member. -/
def chars (m : MemberText) : List Char :=
  '"' :: (m.name ++ '"' :: (m.before ++ ':' :: (m.behind ++ m.value)))

/-- Whether only white space stands around the colon. -/
structure Spaced (m : MemberText) : Prop where
  before : Gap m.before
  behind : Gap m.behind

end MemberText

/-! ## Values -/

/-- The words that are values. -/
def words : List (List Char) :=
  [['n', 'u', 'l', 'l'], ['t', 'r', 'u', 'e'], ['f', 'a', 'l', 's', 'e']]

/-- Whether a text is a value, which arrays and objects may enclose to any depth. -/
inductive ValueText : List Char → Prop
  | word {text : List Char} : text ∈ words → ValueText text
  | number {text : List Char} : NumberText text → ValueText text
  | string {text : List Char} : Quotable text → ValueText ('"' :: (text ++ ['"']))
  | array {parts : List (List Char)} {text : List Char} :
    (∀ part ∈ parts, ValueText part) → Inside ']' parts text → ValueText ('[' :: text)
  | object {members : List MemberText} {text : List Char} :
    (∀ m ∈ members, m.Spaced ∧ Quotable m.name) → (∀ m ∈ members, ValueText m.value) →
    Inside '\x7d' (members.map MemberText.chars) text → ValueText ('\x7b' :: text)

/-- Whether a text is of a member with a name and the text of a value. -/
def IsMember (member : String × List Char) (text : List Char) : Prop :=
  ∃ m : MemberText, text = m.chars ∧ m.Spaced ∧ Spells m.name member.1.toList ∧ m.value = member.2

/-- Whether a text is an object with some members, in their order. -/
def ObjectText (members : List (String × List Char)) (text : List Char) : Prop :=
  ∃ parts inner, text = '\x7b' :: inner ∧ List.Forall₂ IsMember members parts ∧
    Inside '\x7d' parts inner

end SchemaMatch.Json
