import SchemaMatch.Text.Alphanumeric
import SchemaMatch.Text.Blank

/-!
# Patterns

Which patterns a log filter may have for the value of a field: regular expressions with groups,
alternatives, repetitions, classes and flags. Only the form of a pattern matters here: whether it is
accepted (`Pattern.accepts`).

A pattern is read in one go, with the groups that are open kept in a list. It is refused

* if its form is faulty, such as by a repetition of nothing, a class or a group without an end, or a
  range whose ends are the wrong way round;
* if it asks for what needs tables of Unicode properties: letter case or the classes of digits,
  white space and word characters, and the boundaries of words, unless it switches to bytes;
* if it could match a part of a character, once it has switched to bytes;
* if its parts are nested too deeply (`heightLimit`).

A brace never closes here, since it would end the field, so that nothing can be told in braces.
-/

namespace SchemaMatch.CommandLine.Pattern

/-- The modes that flags switch on and off. -/
structure Modes where
  /-- Whether white space and comments between parts are passed over. -/
  spaced : Bool
  /-- Whether letter case makes no difference. -/
  caseless : Bool
  /-- Whether characters are matched, and not bytes. -/
  unicode : Bool

/-- The modes at the start. -/
def Modes.standard : Modes := ⟨false, false, true⟩

/-- The greatest height of a pattern. -/
def heightLimit : Nat := 250

/-! ## Space between parts -/

/-- What follows white space and comments, given whether a comment was begun. -/
def afterSpace (comment : Bool) : List Char → List Char
  | [] => []
  | c :: later =>
    if comment then afterSpace (c ≠ '\n') later
    else if Text.isBlank c then afterSpace false later
    else if c = '#' then afterSpace true later
    else c :: later

/-- Passes over white space and comments where the modes say so. -/
def Modes.skip (m : Modes) (text : List Char) : List Char :=
  if m.spaced then afterSpace false text else text

/-- The character that comes next but for white space, of which a comment hides no more than its
    mark. -/
def Modes.peek (m : Modes) (text : List Char) : Option Char :=
  if ¬m.spaced then text.head?
  else
    match text.dropWhile Text.isBlank with
    | '#' :: comment => (comment.dropWhile Text.isBlank).head?.or text.head?
    | c :: _ => some c
    | [] => text.head?

/-! ## Atoms -/

/-- What a character or an escape stands for. -/
inductive Atom
  /-- A character, which may be told by its number as a byte. -/
  | literal (c : Char)
  /-- A byte. -/
  | byte (n : Nat)
  /-- The digits, the white space or the word characters, or all others. -/
  | kind (negated : Bool)
  /-- Any character. -/
  | any
  /-- The start or the end of a line or of the text. -/
  | edge
  /-- The boundary of a word. -/
  | wordEdge

/-- Whether an atom may stand outside classes. -/
def Atom.stands (m : Modes) : Atom → Bool
  | .literal _ => !m.unicode || !m.caseless
  | .byte n => if m.unicode then !m.caseless else n < 0x80
  | .kind negated => !m.unicode && !negated
  | .any => m.unicode
  | .edge => true
  | .wordEdge => !m.unicode

/-- Whether an atom may stand in a class. -/
def Atom.standsInClass (m : Modes) : Atom → Bool
  | .literal c => if m.unicode then !m.caseless else c.toNat < 0x80
  | .byte n => if m.unicode then !m.caseless else n < 0x80
  | .kind negated => !m.unicode && !negated
  | .any | .edge | .wordEdge => false

/-- The number of the character that an atom is. -/
def Atom.code? : Atom → Option Nat
  | .literal c => some c.toNat
  | .byte n => some n
  | _ => none

/-- The value of a hexadecimal digit. -/
def hexValue? (c : Char) : Option Nat :=
  if c.isDigit then some (c.toNat - '0'.toNat)
  else if 'a' ≤ c ∧ c ≤ 'f' then some (c.toNat - 'a'.toNat + 10)
  else if 'A' ≤ c ∧ c ≤ 'F' then some (c.toNat - 'A'.toNat + 10)
  else none

/-- Takes a number of hexadecimal digits and appends them to a number. -/
def readHex (m : Modes) (n : Nat) : (digits : Nat) → List Char → Option (Nat × List Char)
  | 0, text => some (n, text)
  | digits + 1, text =>
    match m.skip text with
    | [] => none
    | c :: later => (hexValue? c).bind fun d => readHex m (n * 16 + d) digits later

/-- Takes the digits of a character that is told by its number. -/
def readCode (m : Modes) (digits : Nat) (text : List Char) : Option (Atom × List Char) := do
  let (n, later) ← readHex m 0 digits text
  if n.isValidChar then return (.literal (Char.ofNat n), later) else none

/-- The control characters that have an escape, by its letter. -/
def controls : List (Char × Char) :=
  [('a', '\x07'), ('f', '\x0c'), ('t', '\t'), ('n', '\n'), ('r', '\r'), ('v', '\x0b')]

/-- Takes an escape after its backslash. Marks may be escaped even where they need not be; letters
    and digits only where they have a meaning. -/
def readEscape (m : Modes) : List Char → Option (Atom × List Char)
  | [] => none
  | c :: later =>
    match controls.lookup c with
    | some control => some (.literal control, later)
    | none =>
      if c = 'x' then (readHex m 0 2 later).map fun read => (.byte read.1, read.2)
      else if c = 'u' then readCode m 4 later
      else if c = 'U' then readCode m 8 later
      else if c ∈ ['d', 's', 'w', 'D', 'S', 'W'] then some (.kind c.isUpper, later)
      else if c = 'A' ∨ c = 'z' then some (.edge, later)
      else if c ∈ ['b', 'B', '<', '>'] then some (.wordEdge, later)
      else if c.isAlphanum ∨ 0x80 ≤ c.toNat then none
      else some (.literal c, later)

/-- Takes an atom outside classes that begins with a character. -/
def readAtom (m : Modes) (c : Char) (later : List Char) : Option (Atom × List Char) :=
  if c = '\\' then readEscape m later
  else if c = '.' then some (.any, later)
  else if c = '^' ∨ c = '$' then some (.edge, later)
  else some (.literal c, later)

/-- Takes an atom in a class that begins with a character. -/
def readClassAtom (m : Modes) (c : Char) (later : List Char) : Option (Atom × List Char) :=
  if c = '\\' then readEscape m later else some (.literal c, later)

/-! ## Classes -/

/-- A class whose end has not been reached. -/
structure OpenClass where
  /-- Whether dashes and a closing bracket would stand for themselves, as at the start. -/
  fresh : Bool
  /-- The number of items since the last operator. -/
  items : Nat
  /-- The greatest height of these items. -/
  height : Nat
  /-- The height of what stands before the last operator. -/
  before : Option Nat

namespace OpenClass

/-- The class at its start. -/
def start : OpenClass := ⟨true, 0, 0, none⟩

/-- The class with one more item. -/
def add (s : OpenClass) (height : Nat) : OpenClass :=
  { s with fresh := false, items := s.items + 1, height := max s.height height }

/-- The height of the content. -/
def content (s : OpenClass) : Nat :=
  let union := if s.items ≤ 1 then s.height else s.height + 1
  match s.before with
  | none => union
  | some height => max height union + 1

/-- The class after an operator. -/
def operator (s : OpenClass) : OpenClass :=
  ⟨false, 0, 0, some s.content⟩

end OpenClass

/-- The names of the classes of ASCII characters. -/
def asciiClasses : List String :=
  ["alnum", "alpha", "ascii", "blank", "cntrl", "digit", "graph", "lower", "print", "punct",
    "space", "upper", "word", "xdigit"]

/-- Takes a class of ASCII characters after its opening bracket, if it is one, and tells whether it
    is negated. -/
def readAsciiClass? : List Char → Option (Bool × List Char)
  | ':' :: text =>
    let (negated, text) :=
      match text with
      | '^' :: later => (true, later)
      | later => (false, later)
    let (name, later) := text.span (· ≠ ':')
    match later with
    | ':' :: ']' :: later =>
      if String.ofList name ∈ asciiClasses then some (negated, later) else none
    | _ => none
  | _ => none

/-- Takes an atom or a range in a class. -/
def readRange (m : Modes) (c : Char) (later : List Char) : Option (List Char) := do
  let (first, rest) ← readClassAtom m c later
  match m.skip rest with
  | [] => none
  | '-' :: later =>
    if m.peek later ∈ [some ']', some '-'] then
      if first.standsInClass m then return '-' :: later else none
    else
      match m.skip later with
      | [] => none
      | d :: later =>
        let (last, rest) ← readClassAtom m d later
        if (← first.code?) ≤ (← last.code?) ∧ first.standsInClass m ∧ last.standsInClass m then
          return rest
        else none
  | rest => if first.standsInClass m then return rest else none

/-- Takes the opening of a class after its bracket. A negated class has bytes that are no
    characters, unless it has characters in place of bytes. -/
def readOpening (m : Modes) (text : List Char) : Option (List Char) :=
  match m.skip text with
  | '^' :: later => if m.unicode then some later else none
  | later => some later

/-- Takes the rest of a class, given the innermost one that is open and those around it, and gives
    its height. -/
def readClass (m : Modes) :
    (fuel : Nat) → OpenClass → List OpenClass → List Char → Option (Nat × List Char)
  | 0, _, _, _ => none
  | fuel + 1, inner, outer, text =>
    match m.skip text with
    | [] => none
    | ']' :: later =>
      if inner.fresh ∧ inner.items = 0 then
        if Atom.standsInClass m (.literal ']') then readClass m fuel (inner.add 0) outer later
        else none
      else
        match outer with
        | [] => some (inner.content + 1, later)
        | next :: outer => readClass m fuel (next.add (inner.content + 1)) outer later
    | '-' :: later =>
      if inner.fresh then
        if Atom.standsInClass m (.literal '-') then
          readClass m fuel { inner.add 0 with fresh := true } outer later
        else none
      else if later.head? = some '-' then readClass m fuel inner.operator outer later.tail
      else (readRange m '-' later).bind (readClass m fuel (inner.add 0) outer)
    | '[' :: later =>
      match readAsciiClass? later with
      | some (negated, later) =>
        if (if m.unicode then !m.caseless else !negated) then
          readClass m fuel (inner.add 0) outer later
        else none
      | none => (readOpening m later).bind (readClass m fuel .start (inner :: outer))
    | c :: later =>
      if (c = '&' ∨ c = '~') ∧ later.head? = some c then
        readClass m fuel inner.operator outer later.tail
      else (readRange m c later).bind (readClass m fuel (inner.add 0) outer)

/-! ## Groups -/

/-- Takes flags up to the mark behind them, which may not be a dash, given those before, the last
    one first. Each flag may come once. -/
def readFlags (given : List Char) : List Char → Option (List Char × Char × List Char)
  | [] => none
  | c :: later =>
    if c = ':' ∨ c = ')' then
      if given.head? = some '-' then none else some (given.reverse, c, later)
    else if c ∈ given ∨ c ∉ ['-', 'i', 'm', 's', 'U', 'u', 'R', 'x'] then none
    else readFlags (c :: given) later

/-- The modes after flags: those behind a dash are switched off. -/
def Modes.switch (m : Modes) (on : Bool) : List Char → Modes
  | [] => m
  | c :: later =>
    if c = '-' then m.switch false later
    else if c = 'x' then { m with spaced := on }.switch on later
    else if c = 'i' then { m with caseless := on }.switch on later
    else if c = 'u' then { m with unicode := on }.switch on later
    else m.switch on later

/-- Whether a text is the name of a group. -/
def isGroupName : List Char → Bool
  | [] => false
  | c :: later =>
    (c = '_' || Text.isAlphabetic c) &&
      later.all fun c => c ∈ ['_', '.', '[', ']'] || Text.isAlphanumeric c

/-- What an opening parenthesis begins. -/
inductive Opening
  /-- A group, which may have a name. -/
  | group (modes : Modes) (name : Option (List Char))
  /-- Flags for what follows. -/
  | flags (modes : Modes)

/-- Takes the name of a group, and the bracket behind it. -/
def readName (m : Modes) (text : List Char) : Option (Opening × List Char) :=
  match text.span (· ≠ '>') with
  | (name, '>' :: later) => if isGroupName name then some (.group m name, later) else none
  | _ => none

/-- Takes what follows an opening parenthesis and belongs to it. -/
def readParenthesis (m : Modes) (text : List Char) : Option (Opening × List Char) :=
  match m.skip text with
  | '?' :: 'P' :: '<' :: later | '?' :: '<' :: later => readName m later
  | '?' :: later => do
    let (flags, mark, later) ← readFlags [] later
    if mark = ':' then return (.group (m.switch true flags) none, later)
    else if flags.isEmpty then none
    else return (.flags (m.switch true flags), later)
  | later => some (.group m none, later)

/-! ## Patterns -/

/-- A group whose end has not been reached, or the whole pattern. -/
structure Scope where
  modes : Modes
  /-- The greatest height of the alternatives before the last one. -/
  before : Option Nat
  /-- The number of parts of the last alternative. -/
  items : Nat
  /-- The greatest height of these parts. -/
  height : Nat
  /-- The height of the last part if it can be repeated. -/
  last : Option Nat

namespace Scope

/-- A scope at its start. -/
def start (modes : Modes) : Scope := ⟨modes, none, 0, 0, none⟩

/-- The scope with one more part. -/
def add (s : Scope) (height : Nat) : Scope :=
  { s with items := s.items + 1, height := max s.height height, last := some height }

/-- The scope after flags. -/
def addFlags (s : Scope) (modes : Modes) : Scope :=
  { s with modes, items := s.items + 1, last := none }

/-- The scope with its last part repeated. -/
def repeated? (s : Scope) : Option Scope :=
  s.last.map fun height =>
    { s with height := max s.height (height + 1), last := some (height + 1) }

/-- The height of the last alternative. -/
def alternative (s : Scope) : Nat :=
  if s.items ≤ 1 then s.height else s.height + 1

/-- The scope after a further alternative was begun. -/
def divided (s : Scope) : Scope :=
  ⟨s.modes, some (max (s.before.getD 0) s.alternative), 0, 0, none⟩

/-- The height of the content. -/
def content (s : Scope) : Nat :=
  match s.before with
  | none => s.alternative
  | some height => max height s.alternative + 1

end Scope

/-- Whether a pattern is accepted from a place on, given the innermost scope that is open, those
    around it, and the names of the groups so far. -/
def acceptsFrom :
    (fuel : Nat) → Scope → List Scope → (names : List (List Char)) → List Char → Bool
  | 0, _, _, _, _ => false
  | fuel + 1, inner, outer, names, text =>
    match inner.modes.skip text with
    | [] => outer.isEmpty && inner.content ≤ heightLimit
    | '(' :: later =>
      match readParenthesis inner.modes later with
      | none => false
      | some (.flags modes, later) => acceptsFrom fuel (inner.addFlags modes) outer names later
      | some (.group modes name, later) =>
        !name.any (· ∈ names) &&
          acceptsFrom fuel (.start modes) (inner :: outer) (name.toList ++ names) later
    | ')' :: later =>
      match outer with
      | [] => false
      | next :: outer => acceptsFrom fuel (next.add (inner.content + 1)) outer names later
    | '|' :: later => acceptsFrom fuel inner.divided outer names later
    | '[' :: later =>
      match (readOpening inner.modes later).bind (readClass inner.modes text.length .start []) with
      | none => false
      | some (height, later) => acceptsFrom fuel (inner.add height) outer names later
    | c :: later =>
      if c ∈ ['?', '*', '+'] then
        match inner.repeated? with
        | none => false
        | some inner =>
          acceptsFrom fuel inner outer names (if later.head? = some '?' then later.tail else later)
      else if c = '\x7b' then false
      else
        match readAtom inner.modes c later with
        | none => false
        | some (atom, later) =>
          atom.stands inner.modes && acceptsFrom fuel (inner.add 0) outer names later

/-- Whether a pattern is accepted. -/
def accepts (text : List Char) : Bool :=
  acceptsFrom (text.length + 1) (.start .standard) [] [] text

end SchemaMatch.CommandLine.Pattern
