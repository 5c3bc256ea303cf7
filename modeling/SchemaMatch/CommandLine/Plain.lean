/-!
# Plain text

What remains of a text that was made for a terminal when it goes elsewhere: the characters that are
shown, without the control characters and the sequences that an escape character begins (`plain`).
Of the control characters only those that are white space remain.

A sequence is told by its second character. A control sequence and most others end with a letter
after their parameters; a device string, a message and a system command have a text of any length,
which ends with the next escape character or a mark of its own. A control character inside a
sequence does not end it: white space there is shown, and so is all that follows up to the next
control character, which takes the sequence up again.
-/

namespace SchemaMatch.CommandLine

/-- What part of a text for a terminal is being read. -/
inductive TerminalPart
  /-- Characters that are shown. -/
  | text
  /-- What follows an escape character. -/
  | escape
  /-- The end of an escape sequence that has intermediate characters. -/
  | escapeEnd
  /-- The start of a control sequence. -/
  | control
  /-- The parameters of a control sequence. -/
  | controlParameters
  /-- The end of a control sequence that has intermediate characters. -/
  | controlEnd
  /-- The rest of a control sequence of no known form. -/
  | controlIgnored
  /-- The start of a device string. -/
  | device
  /-- The parameters of a device string. -/
  | deviceParameters
  /-- The end of the introduction of a device string that has intermediate characters. -/
  | deviceEnd
  /-- The content of a device string. -/
  | deviceContent
  /-- A message. -/
  | message
  /-- A system command. -/
  | system
  deriving DecidableEq

/-- Whether the code point is in a closed range. -/
def within (first last : Nat) (c : Char) : Bool :=
  first ≤ c.toNat && c.toNat ≤ last

/-- Whether the UTF-8 form of a character has the byte that ends a string of the terminal. -/
def hasEndMark (c : Char) : Bool :=
  (String.utf8EncodeChar c).contains 0x9C

/-- The part that a character leads to. -/
def TerminalPart.next (c : Char) (part : TerminalPart) : TerminalPart :=
  if c = '\x1b' then .escape
  else if c = '\x18' ∨ c = '\x1a' then .text
  else
    match part with
    | .text => .text
    | .escape =>
      if within 0x20 0x2F c then .escapeEnd
      else if c = '[' then .control
      else if c = ']' then .system
      else if c = 'P' then .device
      else if c = 'X' ∨ c = '^' ∨ c = '_' then .message
      else if within 0x30 0x7E c then .text
      else .escape
    | .escapeEnd => if within 0x30 0x7E c then .text else .escapeEnd
    | .control =>
      if within 0x20 0x2F c then .controlEnd
      else if within 0x30 0x3F c then .controlParameters
      else if within 0x40 0x7E c then .text
      else .control
    | .controlParameters =>
      if within 0x20 0x2F c then .controlEnd
      else if within 0x3C 0x3F c then .controlIgnored
      else if within 0x40 0x7E c then .text
      else .controlParameters
    | .controlEnd =>
      if within 0x30 0x3F c then .controlIgnored
      else if within 0x40 0x7E c then .text
      else .controlEnd
    | .controlIgnored => if within 0x40 0x7E c then .text else .controlIgnored
    | .device =>
      if within 0x20 0x2F c then .deviceEnd
      else if within 0x30 0x3F c then .deviceParameters
      else if within 0x40 0x7E c then .deviceContent
      else .device
    | .deviceParameters =>
      if within 0x20 0x2F c then .deviceEnd
      else if within 0x3C 0x7E c then .deviceContent
      else .deviceParameters
    | .deviceEnd => if within 0x30 0x7E c then .deviceContent else .deviceEnd
    | .deviceContent => if hasEndMark c then .text else .deviceContent
    | .message => if hasEndMark c then .text else .message
    | .system => if c = '\x07' then .text else .system

/-- Whether the character is white space among the control characters. -/
def isShownControl (c : Char) : Bool :=
  c ∈ ['\t', '\n', '\x0c', '\r']

/-- Whether the character is shown in a text. -/
def isShown (c : Char) : Bool :=
  isShownControl c || (' ' ≤ c && c ≠ '\x7f')

/-- Whether the character is shown in a part. -/
def TerminalPart.shows (c : Char) : TerminalPart → Bool
  | .text => isShown c
  | .escape | .escapeEnd | .control | .controlParameters | .controlEnd | .controlIgnored =>
    isShownControl c
  | .device | .deviceParameters | .deviceEnd | .deviceContent | .message | .system => false

/-- What remains of a text from a part on, given whether the character before it was shown. -/
def plainFrom (shown : Bool) (part : TerminalPart) : List Char → List Char
  | [] => []
  | c :: later =>
    if (if shown then isShown c else part.shows c) then
      c :: plainFrom true (if c.toNat < 0x80 then part else .text) later
    else plainFrom false (part.next c) later

/-- What remains of a text for a terminal when it goes elsewhere. -/
def plain (text : String) : String :=
  String.ofList (plainFrom false .text text.toList)

/-- A text in colour for a terminal. -/
def coloured (text : String) : String :=
  "\x1b[33m" ++ text ++ "\x1b[0m"

end SchemaMatch.CommandLine
