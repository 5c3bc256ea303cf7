import SchemaMatch.Json.Reader.Skip
import SchemaMatch.Proofs.Json.Collections

/-!
# Values are passed over

Every text of a value is passed over, whatever it is and however deep it goes:
`Reader.reads_skipValue`. Strings and numbers are passed over as their grammars build them. Of a
value in a loop over open enclosures it is shown that the loop goes on behind the value as it does
when the value is done (`Reader.Passed`); this is by induction on the value, and on the parts
between the brackets of an array or an object (`Reader.gives_passing_inside`).
-/

namespace SchemaMatch.Json

open Text

/-- The bracket that ends an array or an object. -/
def Enclosure.bracket : Enclosure → Char
  | .array => ']'
  | .object => '\x7d'

theorem Enclosure.bracket_cases (e : Enclosure) : e.bracket = ']' ∨ e.bracket = '\x7d' := by
  cases e
  · exact .inl rfl
  · exact .inr rfl

namespace Reader

variable {bytes rest : List UInt8}

/-! ## Strings -/

/-- One round of passing over a string, which begins with the closing quote or an escape. -/
def skipStringRound (_ : Unit) (byte : UInt8) : Reader (Unit ⊕ Unit) :=
  if byte = Byte.quote then return .inr ()
  else do
    skipEscape
    skipPlain
    return .inl ()

theorem skipString_eq_bind :
    skipString = skipPlain >>= fun _ => loop skipStringRound (fun _ => .endInString) () := rfl

/-- Bytes that stand for themselves are passed over up to one that does not, which is no control
    character. -/
theorem gives_skipPlain_iff {u : Unit} :
    skipPlain.Gives bytes u rest ↔
      rest = bytes.dropWhile Byte.isPlain ∧ rest.head?.any (· < 0x20) = false := by
  rw [skipPlain, gives_bind_iff]
  simp only [gives_passWhile_iff, gives_peek_bind]
  constructor
  · rintro ⟨_, mid, rfl, h⟩
    split at h
    · exact absurd h not_gives_fail
    · next hcontrol =>
      obtain ⟨-, rfl⟩ := gives_pure_iff.1 h
      exact ⟨rfl, Bool.eq_false_iff.2 hcontrol⟩
  · rintro ⟨hrest, hcontrol⟩
    refine ⟨(), rest, hrest, ?_⟩
    rw [hcontrol]
    exact gives_pure_iff.2 ⟨rfl, rfl⟩

theorem gives_skipPlain_cons {byte : UInt8} (hplain : Byte.isPlain byte = false)
    (hcontrol : decide (byte < 0x20) = false) :
    skipPlain.Gives (byte :: bytes) () (byte :: bytes) := by
  rw [gives_skipPlain_iff, List.dropWhile_cons, hplain]
  exact ⟨rfl, hcontrol⟩

theorem gives_skipString_plain {plain : List UInt8}
    (hplain : ∀ b ∈ plain, 0x20 ≤ b ∧ b ≠ Byte.quote ∧ b ≠ Byte.backslash)
    (h : skipString.Gives bytes () rest) : skipString.Gives (plain ++ bytes) () rest := by
  have hpassed : ∀ b ∈ plain, Byte.isPlain b = true := fun b hb => by
    obtain ⟨hcontrol, hquote, hbackslash⟩ := hplain b hb
    exact decide_eq_true ⟨hquote, hbackslash, hcontrol⟩
  obtain ⟨u, mid, hfirst, hlater⟩ := gives_bind_iff.1 h
  refine gives_bind_iff.2 ⟨u, mid, ?_, hlater⟩
  rw [gives_skipPlain_iff, List.dropWhile_append_of_pos hpassed]
  exact gives_skipPlain_iff.1 hfirst

theorem gives_skipString_escape {left : List UInt8} (hescape : skipEscape.Gives bytes () left)
    (h : skipString.Gives left () rest) : skipString.Gives (Byte.backslash :: bytes) () rest := by
  rw [skipString_eq_bind, gives_bind_iff] at h ⊢
  obtain ⟨_, mid, hplain, hlater⟩ := h
  have hround : (skipStringRound () Byte.backslash).Gives bytes (.inl ()) mid := by
    rw [skipStringRound, if_neg (by decide)]
    exact gives_bind_iff.2 ⟨(), left, hescape,
      gives_bind_iff.2 ⟨(), mid, hplain, gives_pure_iff.2 ⟨rfl, rfl⟩⟩⟩
  refine ⟨(), _, gives_skipPlain_cons (by decide) (by decide), ?_⟩
  exact gives_loop_iff.2 (.inr ⟨(), mid, hround, hlater⟩)

theorem gives_skipString_quote : skipString.Gives (Byte.quote :: rest) () rest := by
  refine gives_bind_iff.2 ⟨(), _, gives_skipPlain_cons (by decide) (by decide), ?_⟩
  exact gives_loop_iff.2 (.inl (gives_pure_iff.2 ⟨rfl, rfl⟩))

/-- A string is passed over, from behind its opening quote on. -/
theorem gives_skipString {text : List Char} (h : Quotable text) (rest : List UInt8) :
    skipString.Gives (encoded (text ++ ['"']) ++ rest) () rest := by
  induction h with
  | nil => exact gives_skipString_quote
  | @plain c text hc _ ih =>
    rw [List.cons_append, encoded_cons, List.append_assoc]
    exact gives_skipString_plain (forall_plain_of_unescaped hc) ih
  | @letter l c text hletter _ ih =>
    obtain ⟨hl, -, hsimple⟩ := simpleEscape?_of_mem hletter
    rw [List.cons_append, List.cons_append, encoded_cons_of_ascii (by decide),
      encoded_cons_of_ascii hl]
    refine gives_skipString_escape ?_ ih
    simp [skipEscape, hsimple]
  | @numbered digits text n hdigits _ ih =>
    rw [List.cons_append, List.cons_append, encoded_cons_of_ascii (by decide),
      encoded_cons_of_ascii (by decide), List.append_assoc, encoded_append, List.cons_append,
      List.cons_append, List.append_assoc]
    refine gives_skipString_escape ?_ ih
    have hsimple : simpleEscape? (Byte.ofChar 'u') = none := by decide
    simpa [skipEscape, hsimple] using ⟨n, gives_hexEscape hdigits _⟩

/-! ## Numbers -/

/-- Passes over the fraction and the exponent of a number, if it has them. -/
def skipAfterWhole : Reader Unit := do
  if ← nextIs (· = Byte.point) then
    let _ ← take
    if (← digits) = 0 then fail .invalidNumber .ahead
  if ← nextIs Byte.isExponentMark then skipExponent

theorem skipNumberFrom_eq (byte : UInt8) :
    skipNumberFrom byte =
      if byte = Byte.zero then
        nextIs Byte.isDigit >>= fun found =>
          if found = true then fail .invalidNumber .ahead else skipAfterWhole
      else if Byte.isDigit byte = true then digits >>= fun _ => skipAfterWhole
      else fail .invalidNumber .behind := rfl

theorem gives_digits {text : List Char} (htext : ∀ c ∈ text, c.isDigit = true)
    (hrest : rest.head?.any Byte.isDigit = false) :
    digits.Gives (encoded text ++ rest) text.length rest := by
  have hscanned : ∀ count,
      scanned countDigit count (encoded text ++ rest) = (count + text.length, rest) := by
    induction text with
    | nil =>
      intro count
      cases rest with
      | nil => rfl
      | cons b later => simp_all [scanned, countDigit]
    | cons c later ih =>
      intro count
      have hc := htext c (by simp)
      have hstep : countDigit count (Byte.ofChar c) = some (count + 1) := if_pos (digit_ofChar hc).1
      rw [encoded_cons_of_ascii (ascii_of_isDigit hc), List.cons_append, scanned, hstep]
      simp only
      rw [ih (fun d hd => htext d (List.mem_cons_of_mem _ hd)), List.length_cons,
        Nat.add_right_comm, Nat.add_assoc]
  have h := hscanned 0
  rw [Nat.zero_add] at h
  exact gives_scan_iff.2 h.symm

/-- What may follow the whole part of a number does not begin with a byte that is neither a point
    nor the mark of an exponent. -/
theorem head?_any_eq_false {text : List Char} (h : ExponentText text) (hrest : Ends rest)
    (property : UInt8 → Bool) (hproperty : ∀ b, property b = true → Byte.isNumeral b)
    (hmark : ∀ c ∈ ['e', 'E'], property (Byte.ofChar c) = false) :
    (encoded text ++ rest).head?.any property = false := by
  obtain rfl | ⟨mark, hmem, sign, -, digits, rfl, -⟩ := h
  · exact hrest.any_eq_false hproperty
  · have hascii : mark.toNat < 0x80 := by
      have hall : ∀ c ∈ ['e', 'E'], c.toNat < 0x80 := forall_mem_pair.2 (by decide)
      exact hall mark hmem
    rw [encoded_cons_of_ascii hascii]
    simpa using hmark mark hmem

theorem gives_exponentSign {sign digits : List Char} (hsign : sign ∈ [[], ['+'], ['-']])
    (h : Digits digits) (rest : List UInt8) :
    ∃ downward, exponentSign.Gives (encoded (sign ++ digits) ++ rest) downward
      (encoded digits ++ rest) := by
  obtain ⟨c, later, rfl, hc⟩ := h.exists_cons
  have hdigit := (digit_ofChar hc).1
  simp only [List.mem_cons, List.not_mem_nil, or_false] at hsign
  rcases hsign with rfl | rfl | rfl
  · have hplus : Byte.ofChar c ≠ Byte.plus := fun e => absurd hdigit (by rw [e]; decide)
    have hminus : Byte.ofChar c ≠ Byte.minus := fun e => absurd hdigit (by rw [e]; decide)
    refine ⟨false, ?_⟩
    rw [List.nil_append, encoded_cons_of_ascii (ascii_of_isDigit hc)]
    simp [exponentSign, gives_nextIs_bind, hplus, hminus]
  · refine ⟨false, ?_⟩
    rw [List.cons_append, encoded_cons_of_ascii (by decide)]
    simp [exponentSign, gives_nextIs_bind, Byte.ofChar]
  · have hminus : Byte.ofChar '-' = Byte.minus := rfl
    have hplus : Byte.minus ≠ Byte.plus := by decide
    refine ⟨true, ?_⟩
    rw [List.cons_append, encoded_cons_of_ascii (by decide)]
    simp [exponentSign, gives_nextIs_bind, hplus, hminus]

theorem gives_skipExponent {text : List Char} (h : ExponentText text) (hrest : Ends rest) :
    (nextIs Byte.isExponentMark >>= fun found =>
      if found = true then skipExponent else pure () : Reader Unit).Gives
        (encoded text ++ rest) () rest := by
  rw [gives_nextIs_bind]
  obtain rfl | ⟨mark, hmark, sign, hsign, digits, rfl, hdigits⟩ := h
  · simp [hrest.any_eq_false isNumeral_of_isExponentMark]
  · obtain ⟨hascii, hmark⟩ : mark.toNat < 0x80 ∧ Byte.isExponentMark (Byte.ofChar mark) = true := by
      have hall : ∀ c ∈ ['e', 'E'],
          c.toNat < 0x80 ∧ Byte.isExponentMark (Byte.ofChar c) = true :=
        forall_mem_pair.2 (by decide)
      exact hall mark hmark
    obtain ⟨downward, hsign⟩ := gives_exponentSign hsign hdigits rest
    obtain ⟨c, later, rfl, hc⟩ := hdigits.exists_cons
    have hlater : ∀ d ∈ later, d.isDigit = true :=
      fun d hd => hdigits.2 d (List.mem_cons_of_mem _ hd)
    have hleft := gives_digits hlater (hrest.any_eq_false isNumeral_of_isDigit)
    rw [encoded_cons_of_ascii (ascii_of_isDigit hc)] at hsign
    rw [encoded_cons_of_ascii hascii, List.cons_append, List.head?_cons, Option.any_some, hmark,
      if_pos rfl, skipExponent, gives_take_bind]
    refine gives_bind_iff.2 ⟨downward, _, hsign, ?_⟩
    rw [List.cons_append, gives_take_bind]
    simpa [(digit_ofChar hc).1] using ⟨_, hleft⟩

theorem gives_skipAfterWhole {fraction exponent : List Char} (hfraction : FractionText fraction)
    (hexponent : ExponentText exponent) (hrest : Ends rest) :
    skipAfterWhole.Gives (encoded fraction ++ (encoded exponent ++ rest)) () rest := by
  have hlast := gives_skipExponent hexponent hrest
  obtain rfl | ⟨digits, rfl, hdigits⟩ := hfraction
  · have hpoint := head?_any_eq_false hexponent hrest (fun b => decide (b = Byte.point))
      (isNumeral_of_eq (by decide)) (forall_mem_pair.2 (by decide))
    rw [skipAfterWhole, encoded_nil, List.nil_append, gives_nextIs_bind, hpoint]
    exact hlast
  · have hdigit := head?_any_eq_false hexponent hrest _ isNumeral_of_isDigit
      (forall_mem_pair.2 (by decide))
    have hcount : digits.length ≠ 0 := mt List.eq_nil_of_length_eq_zero hdigits.1
    rw [encoded_cons_of_ascii (by decide), List.cons_append, skipAfterWhole, gives_nextIs_bind]
    simp only [List.head?_cons, Option.any_some]
    rw [decide_eq_true (by decide), if_pos rfl, gives_take_bind]
    refine gives_bind_iff.2 ⟨digits.length, _, gives_digits hdigits.2 hdigit, ?_⟩
    rw [if_neg hcount]
    exact hlast

/-- The whole part of a number begins with a digit, and the number is passed over behind it. -/
theorem exists_gives_skipNumberFrom {whole fraction exponent : List Char} (hwhole : WholeText whole)
    (hfraction : FractionText fraction) (hexponent : ExponentText exponent) :
    ∃ c later, whole ++ (fraction ++ exponent) = c :: later ∧ c.isDigit = true ∧
      ∀ rest, Ends rest →
        (skipNumberFrom (Byte.ofChar c)).Gives (encoded later ++ rest) () rest := by
  -- Behind the whole part, no further digit stands.
  have hdigit : ∀ rest, Ends rest →
      (encoded (fraction ++ exponent) ++ rest).head?.any Byte.isDigit = false := by
    intro rest hrest
    obtain rfl | ⟨digits, rfl, -⟩ := hfraction
    · exact head?_any_eq_false hexponent hrest _ isNumeral_of_isDigit
        (forall_mem_pair.2 (by decide))
    · rw [List.cons_append, encoded_cons_of_ascii (by decide)]
      rfl
  have hafter : ∀ rest, Ends rest →
      skipAfterWhole.Gives (encoded (fraction ++ exponent) ++ rest) () rest := by
    intro rest hrest
    rw [encoded_append, List.append_assoc]
    exact gives_skipAfterWhole hfraction hexponent hrest
  obtain rfl | ⟨hdigits, hzero⟩ := hwhole
  · refine ⟨'0', fraction ++ exponent, rfl, rfl, fun rest hrest => ?_⟩
    rw [skipNumberFrom_eq, if_pos (by decide), gives_nextIs_bind, hdigit rest hrest]
    exact hafter rest hrest
  · obtain ⟨c, later, rfl, hc⟩ := hdigits.exists_cons
    refine ⟨c, later ++ (fraction ++ exponent), rfl, hc, fun rest hrest => ?_⟩
    have hne : Byte.ofChar c ≠ Byte.zero := by
      intro e
      have hc : c = '0' := (ofChar_inj (ascii_of_isDigit hc) (by decide)).1 e
      exact hzero (by rw [hc]; rfl)
    have hlater : ∀ d ∈ later, d.isDigit = true :=
      fun d hd => hdigits.2 d (List.mem_cons_of_mem _ hd)
    rw [skipNumberFrom_eq, if_neg hne, if_pos (digit_ofChar hc).1, encoded_append,
      List.append_assoc]
    exact gives_bind_iff.2 ⟨_, _, gives_digits hlater (hdigit rest hrest), hafter rest hrest⟩

/-! ## Values -/

/-- Goes on after a round of passing over a value. -/
def goOn : Pass ⊕ Unit → Reader Unit
  | .inl pass => loop skipRound Pass.atEnd pass
  | .inr _ => pure ()

theorem gives_goOn_cons {pass : Pass} {byte : UInt8} :
    (goOn (.inl pass)).Gives (byte :: bytes) () rest ↔
      (skipRound pass byte >>= goOn).Gives bytes () rest := by
  rw [goOn, gives_loop_iff, gives_bind_iff]
  constructor
  · rintro (h | ⟨pass', left, h, hlater⟩)
    · exact ⟨.inr (), rest, h, gives_pure_iff.2 ⟨rfl, rfl⟩⟩
    · exact ⟨.inl pass', left, h, hlater⟩
  · rintro ⟨pass' | u, left, h, hlater⟩
    · exact .inr ⟨pass', left, h, hlater⟩
    · obtain ⟨-, rfl⟩ := gives_pure_iff.1 hlater
      exact .inl h

theorem gives_goOn_gap {pass : Pass} {gap : List Char} (hgap : Gap gap) :
    (goOn (.inl pass)).Gives (encoded gap ++ bytes) () rest ↔
      (goOn (.inl pass)).Gives bytes () rest :=
  gives_loop_gap (fun state byte h => by simp [skipRound, h]) hgap

/-- Whether a text is passed over by what begins with its first byte: what comes next goes on behind
    the text. -/
def Passed (first : UInt8 → Reader (Pass ⊕ Unit)) (next : Pass ⊕ Unit) (text : List Char) : Prop :=
  ∃ byte later, encoded text = byte :: later ∧ Byte.BeginsValue byte ∧
    ∀ bytes rest, Ends bytes → (goOn next).Gives bytes () rest →
      (first byte >>= goOn).Gives (later ++ bytes) () rest

/-- What is passed over by a reader of its own leaves the enclosures as they are. -/
theorem passed_of_gives {enclosures : List Enclosure} {text : List Char} {byte : UInt8}
    {later : List UInt8} (htext : encoded text = byte :: later) (hbyte : Byte.BeginsValue byte)
    {reader : Reader Unit}
    (hreader : skipValueFrom enclosures byte = reader >>= fun _ => pure (afterValue enclosures))
    (hgives : ∀ bytes, Ends bytes → reader.Gives (later ++ bytes) () bytes) :
    Passed (skipValueFrom enclosures) (afterValue enclosures) text := by
  refine ⟨byte, later, htext, hbyte, fun bytes rest hbytes h => ?_⟩
  rw [hreader, bind_assoc]
  exact gives_bind_iff.2 ⟨(), bytes, hgives bytes hbytes, by simpa using h⟩

/-- A word is passed over behind its first letter. -/
theorem passed_word {enclosures : List Enclosure} {text : List Char} (h : text ∈ words) :
    Passed (skipValueFrom enclosures) (afterValue enclosures) text := by
  simp only [words, List.mem_cons, List.not_mem_nil, or_false] at h
  rcases h with rfl | rfl | rfl <;>
    exact passed_of_gives (encoded_cons_of_ascii (by decide) _) (by decide) rfl
      fun bytes _ => gives_word (by simp) bytes

theorem passed_string {enclosures : List Enclosure} {text : List Char} (h : Quotable text) :
    Passed (skipValueFrom enclosures) (afterValue enclosures) ('"' :: (text ++ ['"'])) :=
  passed_of_gives (encoded_cons_of_ascii (by decide) _) (by decide) rfl
    fun bytes _ => gives_skipString h bytes

theorem passed_number {enclosures : List Enclosure} {text : List Char} (h : NumberText text) :
    Passed (skipValueFrom enclosures) (afterValue enclosures) text := by
  obtain ⟨sign, hsign, whole, fraction, exponent, rfl, hwhole, hfraction, hexponent⟩ := h
  obtain ⟨c, later, htext, hc, hgives⟩ :=
    exists_gives_skipNumberFrom hwhole hfraction hexponent
  have hascii := ascii_of_isDigit hc
  have hdigit := (digit_ofChar hc).1
  have hne : ∀ b, Byte.isDigit b = false → Byte.ofChar c ≠ b := fun b hb e => by
    simp [e, hb] at hdigit
  rw [htext]
  simp only [List.mem_cons, List.not_mem_nil, or_false] at hsign
  rcases hsign with rfl | rfl
  · refine passed_of_gives (encoded_cons_of_ascii hascii later)
      (Byte.BeginsNumber.beginsValue (.inr hdigit)) ?_ hgives
    rw [skipValueFrom, if_neg (hne _ rfl), if_neg (hne _ rfl), if_neg (hne _ rfl),
      if_neg (hne _ rfl), if_pos hdigit]
  · refine passed_of_gives (encoded_cons_of_ascii (by decide) (c :: later)) (by decide) rfl
      fun bytes hbytes => ?_
    rw [encoded_cons_of_ascii hascii, List.cons_append, skipNegative, gives_take_bind]
    exact hgives bytes hbytes

/-! ## Arrays and objects -/

variable {innermost : Enclosure} {outer enclosures : List Enclosure} {parts : List (List Char)}
  {text : List Char}

/-- What is passed over by what begins with its first byte is passed over by the rounds, behind
    white space or none. -/
theorem Passed.gives {first : UInt8 → Reader (Pass ⊕ Unit)} {next : Pass ⊕ Unit} {pass : Pass}
    (h : Passed first next text)
    (hround : ∀ byte, Byte.BeginsValue byte → skipRound pass byte = first byte) {gap : List Char}
    (hgap : Gap gap) (hbytes : Ends bytes) (hnext : (goOn next).Gives bytes () rest) :
    (goOn (.inl pass)).Gives (encoded (gap ++ text) ++ bytes) () rest := by
  obtain ⟨byte, later, htext, hbyte, hlater⟩ := h
  rw [encoded_append, List.append_assoc, gives_goOn_gap hgap, htext, List.cons_append,
    gives_goOn_cons, hround byte hbyte]
  exact hlater bytes rest hbytes hnext

/-- Whether a text is passed over as an item or a member of the innermost enclosure. -/
abbrev PassedEntry (innermost : Enclosure) (outer : List Enclosure) (text : List Char) : Prop :=
  Passed (skipEntryFrom innermost outer) (.inl ⟨.comma, innermost :: outer⟩) text

/-- Behind a comma is an entry. -/
theorem exists_skipRound_comma (innermost : Enclosure) (outer : List Enclosure) :
    ∃ pass, skipRound ⟨.comma, innermost :: outer⟩ Byte.comma = pure (.inl pass) ∧
      ∀ byte, Byte.BeginsValue byte → skipRound pass byte = skipEntryFrom innermost outer byte := by
  cases innermost with
  | array =>
    exact ⟨⟨.value, .array :: outer⟩, rfl, fun byte h => by simp [skipRound, h.1, skipEntryFrom]⟩
  | object =>
    exact ⟨⟨.name, .object :: outer⟩, rfl, fun byte h => by simp [skipRound, h.1, skipEntryFrom]⟩

theorem skipRound_value {byte : UInt8} (h : Byte.BeginsValue byte) :
    skipRound ⟨.value, enclosures⟩ byte = skipValueFrom enclosures byte := by
  simp [skipRound, h.1]

theorem skipRound_first {byte : UInt8} (h : Byte.BeginsValue byte) :
    skipRound ⟨.first, innermost :: outer⟩ byte = skipEntryFrom innermost outer byte := by
  obtain ⟨hblank, hbracket, hbrace⟩ := h
  have hclosing : byte ≠ innermost.closing := by cases innermost <;> assumption
  simp [skipRound, hblank, hclosing]

/-- The closing bracket ends the innermost enclosure, and what is outside of it goes on. -/
theorem gives_goOn_closing {due : Due} (hdue : due = .first ∨ due = .comma) {gap : List Char}
    (hgap : Gap gap) (h : (goOn (afterValue outer)).Gives bytes () rest) :
    (goOn (.inl ⟨due, innermost :: outer⟩)).Gives
      (encoded (gap ++ [innermost.bracket]) ++ bytes) () rest := by
  have hround :
      skipRound ⟨due, innermost :: outer⟩ innermost.closing = pure (afterValue outer) := by
    obtain rfl | rfl := hdue <;> cases innermost <;> rfl
  have hbracket : encoded [innermost.bracket] = [innermost.closing] := by
    cases innermost <;> rfl
  rw [encoded_append, List.append_assoc, gives_goOn_gap hgap, hbracket, List.singleton_append,
    gives_goOn_cons, hround, pure_bind]
  exact h

theorem gives_passing_continued (hparts : ∀ part ∈ parts, PassedEntry innermost outer part)
    (h : Continued innermost.bracket parts text)
    (hafter : (goOn (afterValue outer)).Gives bytes () rest) :
    (goOn (.inl ⟨.comma, innermost :: outer⟩)).Gives (encoded text ++ bytes) () rest := by
  -- By induction on the parts: each goes on with the comma in front of the next, and the last one
  -- with the closing bracket.
  induction h with
  | nil hgap => exact gives_goOn_closing (.inr rfl) hgap hafter
  | @cons gap gap' part text later hgap hgap' hlater ih =>
    obtain ⟨pass, hcomma, hround⟩ := exists_skipRound_comma innermost outer
    have hends := ends_continued innermost.bracket_cases hlater bytes
    have hrest := ih fun part hpart => hparts part (List.mem_cons_of_mem _ hpart)
    have hentry := (hparts part (by simp)).gives hround hgap' hends hrest
    rw [encoded_append, List.append_assoc, gives_goOn_gap hgap, encoded_cons_of_ascii (by decide),
      List.cons_append, gives_goOn_cons]
    change (skipRound ⟨.comma, innermost :: outer⟩ Byte.comma >>= goOn).Gives _ () rest
    rw [hcomma, pure_bind]
    simpa using hentry

/-- The parts between two brackets are passed over if each is. -/
theorem gives_passing_inside (hparts : ∀ part ∈ parts, PassedEntry innermost outer part)
    (h : Inside innermost.bracket parts text)
    (hafter : (goOn (afterValue outer)).Gives bytes () rest) :
    (goOn (.inl ⟨.first, innermost :: outer⟩)).Gives (encoded text ++ bytes) () rest := by
  cases h with
  | nil hgap => exact gives_goOn_closing (.inl rfl) hgap hafter
  | @cons gap part text later hgap hlater =>
    have hends := ends_continued innermost.bracket_cases hlater bytes
    have hrest := gives_passing_continued (fun part h => hparts part (List.mem_cons_of_mem _ h))
      hlater hafter
    have hentry := (hparts part (by simp)).gives (fun _ => skipRound_first) hgap hends hrest
    simpa using hentry

theorem passed_enclosed (innermost : Enclosure) {opening : Char}
    (hopening : opening = '[' ∨ opening = '\x7b')
    (hfirst : skipValueFrom enclosures (Byte.ofChar opening) =
      pure (.inl ⟨.first, innermost :: enclosures⟩))
    (hparts : ∀ part ∈ parts, PassedEntry innermost enclosures part)
    (h : Inside innermost.bracket parts text) :
    Passed (skipValueFrom enclosures) (afterValue enclosures) (opening :: text) := by
  have hspec : opening.toNat < 0x80 ∧ Byte.BeginsValue (Byte.ofChar opening) := by
    obtain rfl | rfl := hopening <;> decide
  refine ⟨_, _, encoded_cons_of_ascii hspec.1 text, hspec.2, fun bytes rest _ hafter => ?_⟩
  rw [hfirst, pure_bind]
  exact gives_passing_inside hparts h hafter

/-- A member is passed over if its value is. -/
theorem passed_member {m : MemberText} (h : m.Spaced) (hname : Quotable m.name)
    (hvalue : Passed (skipValueFrom (.object :: outer)) (afterValue (.object :: outer)) m.value) :
    PassedEntry .object outer m.chars := by
  refine ⟨_, _, encoded_cons_of_ascii (by decide) _, by decide, fun bytes rest hbytes hnext => ?_⟩
  have hlast := hvalue.gives (fun _ => skipRound_value) h.behind hbytes hnext
  have hbytes : encoded (m.name ++ '"' :: (m.before ++ ':' :: (m.behind ++ m.value))) ++ bytes =
      encoded (m.name ++ ['"']) ++
        (encoded (m.before ++ ':' :: (m.behind ++ m.value)) ++ bytes) := by
    simp [encoded_cons]
  change ((skipString >>= fun _ => colon >>= fun _ => pure (.inl ⟨.value, .object :: outer⟩)) >>=
    goOn : Reader Unit).Gives _ () rest
  rw [hbytes, bind_assoc]
  refine gives_bind_iff.2 ⟨(), _, gives_skipString hname _, ?_⟩
  rw [bind_assoc]
  exact gives_bind_iff.2 ⟨(), _, gives_colon h.before _ bytes, by simpa using hlast⟩

/-- A value is passed over in any enclosures. -/
theorem passed_of_valueText (h : ValueText text) (enclosures : List Enclosure) :
    Passed (skipValueFrom enclosures) (afterValue enclosures) text := by
  -- By induction on the value, in any enclosures: its parts lie in one more than it does itself.
  induction h generalizing enclosures with
  | word h => exact passed_word h
  | number h => exact passed_number h
  | string h => exact passed_string h
  | array _ hinside ih =>
    exact passed_enclosed .array (.inl rfl) rfl
      (fun part hpart => ih part hpart (.array :: enclosures)) hinside
  | object hmembers _ hinside ih =>
    refine passed_enclosed .object (.inr rfl) rfl (fun part hpart => ?_) hinside
    obtain ⟨m, hm, rfl⟩ := List.mem_map.1 hpart
    exact passed_member (hmembers m hm).1 (hmembers m hm).2 (ih m hm (.object :: enclosures))

/-- A value is passed over, whatever it is. -/
theorem reads_skipValue (h : ValueText text) : skipValue.Reads text () := by
  have hpassed := passed_of_valueText h []
  obtain ⟨byte, later, htext, hbyte, -⟩ := id hpassed
  refine ⟨⟨byte, later, htext, hbyte⟩, fun {bytes rest} hafter hrest => ?_⟩
  have hgives :=
    hpassed.gives (fun _ => skipRound_value) gap_nil hrest (gives_pure_iff.2 ⟨rfl, rfl⟩)
  rw [skipValue, gives_loop_iff_afterBlanks fun state byte h => by simp [skipRound, h], hafter]
  exact hgives

end Reader

end SchemaMatch.Json
