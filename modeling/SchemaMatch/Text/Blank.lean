/-!
# White space

The characters with the property White_Space: the space, the controls that move to another place or
line, and the separators.
-/

namespace SchemaMatch.Text

/-- Whether the character is white space. -/
def isBlank (c : Char) : Bool :=
  c ∈ [' ', '\u0085', '\u00A0', '\u1680', '\u2028', '\u2029', '\u202F', '\u205F', '\u3000'] ||
    (0x09 ≤ c.toNat && c.toNat ≤ 0x0D) || (0x2000 ≤ c.toNat && c.toNat ≤ 0x200A)

end SchemaMatch.Text
