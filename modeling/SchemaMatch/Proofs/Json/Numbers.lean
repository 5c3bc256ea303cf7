import SchemaMatch.Proofs.Json.Reading
import SchemaMatch.Proofs.Text.Utf8

/-!
# Numbers in a text

Where a number ends is decided by the byte behind it, so a number that is read from the end of a
text is read the same when other bytes follow, unless they go on with the number (`Ends`). A reader
of which this holds is *steady* (`Reader.Steady`): it is shown of the readers of digits first, and
then of those put together from them, up to `Reader.steady_number`.

Only a number without a point and without an exponent is whole (`Reader.digits_of_number`), and a
whole number of at most 64 bits is read from its digits (`Reader.gives_unsignedNumber`).
-/

namespace SchemaMatch.Json

/-- Whether a byte may be a part of a number. -/
def Byte.isNumeral (b : UInt8) : Bool :=
  Byte.isDigit b ∨ b = Byte.point ∨ b = Byte.plus ∨ b = Byte.minus ∨ Byte.isExponentMark b

/-- Whether a number that stands in front of some bytes ends there. -/
def Ends (rest : List UInt8) : Prop :=
  ∀ b ∈ rest.head?, Byte.isNumeral b = false

/-- What follows a number does not begin with a byte that could belong to it. -/
theorem Ends.any_eq_false {rest : List UInt8} (h : Ends rest) {property : UInt8 → Bool}
    (hproperty : ∀ b, property b = true → Byte.isNumeral b) : rest.head?.any property = false := by
  cases hhead : rest.head? with
  | none => rfl
  | some b =>
    have hb := h b hhead
    exact Bool.eq_false_iff.2 fun e => by simp [hproperty b e] at hb

theorem Ends.isDigit_eq {b : UInt8} {later : List UInt8} (h : Ends (b :: later)) :
    Byte.isDigit b = false := by
  have hnumeral := h b rfl
  simp only [Byte.isNumeral, decide_eq_false_iff_not, not_or] at hnumeral
  exact Bool.eq_false_iff.2 hnumeral.1

namespace Reader

variable {α β σ : Type} {bytes rest : List UInt8}

/-- Whether what a reader gives from some bytes comes from the front of them, and is the same when
    other bytes follow that do not go on with a number. -/
def Steady (reader : Reader α) (bytes : List UInt8) : Prop :=
  ∀ value left, reader.Gives bytes value left → left <:+ bytes ∧
    ∀ more, (left = [] → Ends more) → reader.Gives (bytes ++ more) value (left ++ more)

/-! ## Readers put together -/

theorem steady_pure (value : α) : (pure value : Reader α).Steady bytes := by
  intro given left h
  obtain ⟨rfl, rfl⟩ := gives_pure_iff.1 h
  exact ⟨List.suffix_rfl, fun more _ => by simp⟩

theorem steady_fail {reason : Reason} {site : Site} : (fail reason site : Reader α).Steady bytes :=
  fun _ _ h => absurd h not_gives_fail

theorem Steady.bind {first : Reader α} {next : α → Reader β} (hfirst : first.Steady bytes)
    (hnext : ∀ given mid, first.Gives bytes given mid → (next given).Steady mid) :
    (first >>= next).Steady bytes := by
  intro value left h
  obtain ⟨given, mid, hgiven, hvalue⟩ := gives_bind_iff.1 h
  obtain ⟨hmid, hgiven'⟩ := hfirst given mid hgiven
  obtain ⟨hleft, hvalue'⟩ := hnext given mid hgiven value left hvalue
  refine ⟨hleft.trans hmid, fun more hmore => gives_bind_iff.2 ⟨given, mid ++ more, ?_, ?_⟩⟩
  · exact hgiven' more fun e => hmore (List.suffix_nil.1 (e ▸ hleft))
  · exact hvalue' more hmore

/-- After a byte is taken, only what follows it matters. -/
theorem Steady.take {next : Option UInt8 → Reader β} {byte : UInt8} {later : List UInt8}
    (h : (next (some byte)).Steady later) : (take >>= next).Steady (byte :: later) := by
  intro value left hgives
  obtain ⟨hleft, hmore⟩ := h value left (gives_take_bind.1 hgives)
  exact ⟨hleft.trans (List.suffix_cons _ _), fun more hends => gives_take_bind.2 (hmore more hends)⟩

/-- Taking a byte is steady where there has to be one. -/
theorem Steady.take_some {next : Option UInt8 → Reader β}
    (hnone : ∀ value left, ¬(next none).Gives [] value left)
    (hsome : ∀ byte later, (next (some byte)).Steady later) :
    (Reader.take >>= next).Steady bytes := by
  cases bytes with
  | nil => exact fun value left h => absurd (gives_take_bind.1 h) (hnone value left)
  | cons byte later => exact .take (hsome byte later)

@[simp] theorem gives_nextIs_iff {property : UInt8 → Bool} {found : Bool} :
    (nextIs property).Gives bytes found rest ↔
      found = bytes.head?.any property ∧ rest = bytes := by
  simp only [nextIs, gives_bind_iff, gives_peek_iff, gives_pure_iff]
  constructor
  · rintro ⟨_, _, ⟨rfl, rfl⟩, rfl, rfl⟩
    exact ⟨rfl, rfl⟩
  · rintro ⟨rfl, rfl⟩
    exact ⟨_, _, ⟨rfl, rfl⟩, rfl, rfl⟩

theorem gives_nextIs_bind {property : UInt8 → Bool} {next : Bool → Reader β} {value : β} :
    (nextIs property >>= next).Gives bytes value rest ↔
      (next (bytes.head?.any property)).Gives bytes value rest := by
  simp [gives_bind_iff, and_assoc]

/-- Looking for a byte that belongs to a number is steady. -/
theorem steady_nextIs {property : UInt8 → Bool} (h : ∀ b, property b = true → Byte.isNumeral b) :
    (nextIs property).Steady bytes := by
  intro value left hgives
  obtain ⟨rfl, rfl⟩ := gives_nextIs_iff.1 hgives
  refine ⟨List.suffix_rfl, fun more hmore => ?_⟩
  cases left with
  | cons byte later => simp
  | nil =>
    -- The byte that follows does not go on with a number, so it is not the one looked for.
    have hnext := (hmore rfl).any_eq_false h
    simp [hnext]

/-- A choice by the next byte is steady if both readers are. -/
theorem Steady.ifNext {property : UInt8 → Bool} {yes no : Reader β}
    (h : ∀ b, property b = true → Byte.isNumeral b)
    (hyes : ∀ byte later, bytes = byte :: later → yes.Steady (byte :: later))
    (hno : no.Steady bytes) :
    (nextIs property >>= fun found => if found = true then yes else no).Steady bytes := by
  refine (steady_nextIs h).bind fun found mid hfound => ?_
  obtain ⟨rfl, rfl⟩ := gives_nextIs_iff.1 hfound
  cases mid with
  | nil => exact hno
  | cons byte later =>
    by_cases hproperty : property byte
    · simpa [hproperty] using hyes byte later rfl
    · simpa [hproperty] using hno

theorem isNumeral_of_isDigit (b : UInt8) (h : Byte.isDigit b = true) : Byte.isNumeral b := by
  simp [Byte.isNumeral, h]

theorem isNumeral_of_eq {mark : UInt8} (hmark : Byte.isNumeral mark) (b : UInt8)
    (h : decide (b = mark) = true) : Byte.isNumeral b :=
  of_decide_eq_true h ▸ hmark

theorem isNumeral_of_isExponentMark (b : UInt8) (h : Byte.isExponentMark b = true) :
    Byte.isNumeral b := by
  simp [Byte.isNumeral, h]

/-! ## Digits -/

/-- Bytes that follow change nothing about a scan that stopped in front of them. -/
theorem scanned_append {step : σ → UInt8 → Option σ}
    (hstep : ∀ state b next, step state b = some next → Byte.isNumeral b) {state : σ}
    {more : List UInt8} (h : (scanned step state bytes).2 = [] → Ends more) :
    scanned step state (bytes ++ more) =
      ((scanned step state bytes).1, (scanned step state bytes).2 ++ more) := by
  induction bytes generalizing state with
  | nil =>
    cases more with
    | nil => rfl
    | cons b later =>
      have hstop : step state b = none :=
        Option.eq_none_iff_forall_ne_some.2 fun next hnext => by
          simpa [hstep state b next hnext] using h rfl b rfl
      simp [scanned, hstop]
  | cons byte later ih =>
    rw [List.cons_append, scanned, scanned]
    rw [scanned] at h
    cases hbyte : step state byte with
    | none => rfl
    | some next =>
      rw [hbyte] at h
      exact ih h

/-- A scan for bytes of a number is steady. -/
theorem steady_scan {step : σ → UInt8 → Option σ}
    (hstep : ∀ state b next, step state b = some next → Byte.isNumeral b) (state : σ) :
    (scan step state).Steady bytes := by
  intro value left h
  have hscanned := gives_scan_iff.1 h
  obtain ⟨taken, hbytes, -⟩ := exists_scanned step state bytes
  rw [← hscanned] at hbytes
  refine ⟨⟨taken, hbytes.symm⟩, fun more hmore => gives_scan_iff.2 ?_⟩
  rw [scanned_append hstep (by rwa [← hscanned]), ← hscanned]

theorem isDigit_of_countDigit {count next : Nat} {b : UInt8} (h : countDigit count b = some next) :
    Byte.isDigit b = true := by
  rw [countDigit] at h
  split at h
  · next hb => exact hb
  · cases h

theorem isDigit_of_absorbDigit {limit : Nat} {state next : Nat × Nat} {b : UInt8}
    (h : absorbDigit limit state b = some next) : Byte.isDigit b = true := by
  rw [absorbDigit] at h
  split at h
  · next hb => exact hb.1
  · cases h

theorem steady_digits : digits.Steady bytes :=
  steady_scan (fun _ b _ h => isNumeral_of_isDigit b (isDigit_of_countDigit h)) 0

theorem steady_digitsWithin (limit n : Nat) : (digitsWithin limit n).Steady bytes :=
  steady_scan (fun _ b _ h => isNumeral_of_isDigit b (isDigit_of_absorbDigit h)) (n, 0)

/-- Only digits are absorbed. -/
theorem exists_of_gives_digitsWithin {limit n : Nat} {value : Nat × Nat}
    (h : (digitsWithin limit n).Gives bytes value rest) :
    ∃ taken, bytes = taken ++ rest ∧ ∀ b ∈ taken, Byte.isDigit b = true := by
  obtain ⟨taken, hbytes, htaken⟩ := exists_scanned (absorbDigit limit) (n, 0) bytes
  rw [← gives_scan_iff.1 h] at hbytes
  exact ⟨taken, hbytes, fun b hb => by
    obtain ⟨state, next, hnext⟩ := htaken b hb
    exact isDigit_of_absorbDigit hnext⟩

/-! ## Numbers -/

variable {negative : Bool} {n : Nat} {known : Int}

theorem steady_scaled : (scaled negative n known).Steady bytes := by
  rw [scaled]
  cases scale? n.toUInt64.toFloat known with
  | none => exact steady_fail
  | some x => exact steady_pure _

theorem steady_exponentSign : exponentSign.Steady bytes := by
  refine .ifNext (isNumeral_of_eq (by decide)) (fun _ _ _ => .take (steady_pure _)) ?_
  exact .ifNext (isNumeral_of_eq (by decide)) (fun _ _ _ => .take (steady_pure _)) (steady_pure _)

theorem steady_exponentPart {byte : UInt8} {later : List UInt8} :
    (exponentPart negative n known).Steady (byte :: later) := by
  refine .take (.bind steady_exponentSign fun downward mid _ => ?_)
  refine .take_some (by simp) fun digit later => ?_
  simp only
  split
  · refine .bind (steady_digitsWithin _ _) fun _ _ _ => ?_
    refine .ifNext isNumeral_of_isDigit (fun _ _ _ => .take ?_) steady_scaled
    split
    · exact steady_fail
    · exact .bind steady_digits fun _ _ _ => steady_pure _
  · exact steady_fail

theorem steady_exponentPart? : (exponentPart? negative n known).Steady bytes :=
  .ifNext isNumeral_of_isExponentMark (fun _ _ _ => steady_exponentPart) steady_scaled

theorem steady_fractionPart {byte : UInt8} {later : List UInt8} :
    (fractionPart negative n known).Steady (byte :: later) := by
  refine .take (.bind (steady_digitsWithin _ _) fun absorbed mid _ => ?_)
  refine .ifNext isNumeral_of_isDigit
    (fun _ _ _ => .bind steady_digits fun _ _ _ => steady_exponentPart?) ?_
  split
  · intro value left h
    cases hhead : mid.head? <;> simp [hhead] at h
  · exact steady_exponentPart?

theorem steady_afterWhole : (afterWhole negative n).Steady bytes := by
  refine .ifNext (isNumeral_of_eq (by decide)) (fun _ _ _ => steady_fractionPart) ?_
  exact .ifNext isNumeral_of_isExponentMark (fun _ _ _ => steady_exponentPart) (steady_pure _)

theorem steady_unsignedNumber : (unsignedNumber negative).Steady bytes := by
  refine .take_some (by simp) fun byte later => ?_
  simp only
  split
  · exact .ifNext isNumeral_of_isDigit (fun _ _ _ => steady_fail) steady_afterWhole
  · split
    · refine .bind (steady_digitsWithin _ _) fun _ _ _ => ?_
      refine .ifNext isNumeral_of_isDigit (fun _ _ _ => .bind steady_digits fun _ _ _ => ?_)
        steady_afterWhole
      exact .ifNext (isNumeral_of_eq (by decide)) (fun _ _ _ => steady_fractionPart)
        steady_exponentPart?
    · exact steady_fail

/-- A number is read the same when other bytes follow that do not go on with it. -/
theorem steady_number : number.Steady bytes :=
  .ifNext (isNumeral_of_eq (by decide)) (fun _ _ _ => .take steady_unsignedNumber)
    steady_unsignedNumber

/-! ## Whole numbers -/

/-- Whether all numbers that a reader gives are held in double precision. -/
def Fractional (reader : Reader Number) : Prop :=
  ∀ bytes given left, reader.Gives bytes given left → ∃ x, given = .double x

theorem Fractional.bind {first : Reader α} {next : α → Reader Number}
    (h : ∀ given, (next given).Fractional) : (first >>= next).Fractional := by
  intro bytes value left hvalue
  obtain ⟨given, mid, -, hvalue⟩ := gives_bind_iff.1 hvalue
  exact h given mid value left hvalue

theorem fractional_fail {reason : Reason} {site : Site} : (fail reason site).Fractional :=
  fun _ _ _ h => absurd h not_gives_fail

theorem fractional_double (x : Float) : (pure (.double x) : Reader Number).Fractional :=
  fun _ _ _ h => ⟨x, (gives_pure_iff.1 h).1⟩

theorem fractional_scaled : (scaled negative n known).Fractional := by
  rw [scaled]
  cases scale? n.toUInt64.toFloat known with
  | none => exact fractional_fail
  | some x => exact fractional_double _

theorem fractional_exponentPart : (exponentPart negative n known).Fractional := by
  refine .bind fun _ => .bind fun downward => .bind fun next => ?_
  cases next with
  | none => exact fractional_fail
  | some byte =>
    simp only
    split
    · refine .bind fun _ => .bind fun more => ?_
      split
      · refine .bind fun _ => ?_
        split
        · exact fractional_fail
        · exact .bind fun _ => fractional_double _
      · exact fractional_scaled
    · exact fractional_fail

theorem fractional_exponentPart? : (exponentPart? negative n known).Fractional := by
  refine .bind fun found => ?_
  split
  · exact fractional_exponentPart
  · exact fractional_scaled

theorem fractional_fractionPart : (fractionPart negative n known).Fractional := by
  refine .bind fun _ => .bind fun absorbed => .bind fun more => ?_
  split
  · exact .bind fun _ => fractional_exponentPart?
  · split
    · refine .bind fun next => ?_
      cases next <;> exact fractional_fail
    · exact fractional_exponentPart?

theorem rest_of_afterWhole {given : Number} (hgiven : ¬∃ x, given = .double x)
    (h : (afterWhole negative n).Gives bytes given rest) : rest = bytes := by
  obtain ⟨point, mid, hpoint, h⟩ := gives_bind_iff.1 h
  obtain ⟨rfl, rfl⟩ := gives_nextIs_iff.1 hpoint
  split at h
  · exact absurd (fractional_fractionPart _ _ _ h) hgiven
  · obtain ⟨mark, mid, hmark, h⟩ := gives_bind_iff.1 h
    obtain ⟨rfl, rfl⟩ := gives_nextIs_iff.1 hmark
    split at h
    · exact absurd (fractional_exponentPart _ _ _ h) hgiven
    · exact (gives_pure_iff.1 h).2

/-- After its sign, a number that is not held in double precision has digits only. -/
theorem digits_of_unsignedNumber {given : Number} (hgiven : ¬∃ x, given = .double x)
    (h : (unsignedNumber negative).Gives bytes given rest) :
    ∃ taken, bytes = taken ++ rest ∧ ∀ b ∈ taken, Byte.isDigit b = true := by
  cases bytes with
  | nil => simp [unsignedNumber] at h
  | cons byte later =>
    have h := gives_take_bind.1 h
    simp only [List.head?_cons, List.tail_cons] at h
    split at h
    · next hzero =>
      obtain ⟨digit, mid, hdigit, h⟩ := gives_bind_iff.1 h
      obtain ⟨rfl, rfl⟩ := gives_nextIs_iff.1 hdigit
      split at h
      · exact absurd h not_gives_fail
      · -- A zero stands alone.
        refine ⟨[byte], by rw [rest_of_afterWhole hgiven h]; rfl, fun b hb => ?_⟩
        rw [List.mem_singleton.1 hb, hzero]
        rfl
    · split at h
      · next hbyte =>
        obtain ⟨absorbed, mid, habsorbed, h⟩ := gives_bind_iff.1 h
        obtain ⟨digit, mid, hdigit, h⟩ := gives_bind_iff.1 h
        obtain ⟨rfl, rfl⟩ := gives_nextIs_iff.1 hdigit
        split at h
        · -- Digits are left when no more can be absorbed: such a number is always scaled.
          obtain ⟨dropped, mid, -, h⟩ := gives_bind_iff.1 h
          obtain ⟨point, mid, -, h⟩ := gives_bind_iff.1 h
          split at h
          · exact absurd (fractional_fractionPart _ _ _ h) hgiven
          · exact absurd (fractional_exponentPart? _ _ _ h) hgiven
        · obtain ⟨taken, hlater, htaken⟩ := exists_of_gives_digitsWithin habsorbed
          refine ⟨byte :: taken, ?_, fun b hb => ?_⟩
          · rw [rest_of_afterWhole hgiven h, List.cons_append, ← hlater]
          · rcases List.mem_cons.1 hb with rfl | hb
            · exact hbyte
            · exact htaken b hb
      · exact absurd h not_gives_fail

/-- A number that is not held in double precision has digits only, but for its sign. -/
theorem digits_of_number {given : Number} (hgiven : ¬∃ x, given = .double x)
    (h : number.Gives bytes given rest) :
    ∃ taken, bytes = taken ++ rest ∧ ∀ b ∈ taken, Byte.isDigit b = true ∨ b = Byte.minus := by
  obtain ⟨sign, mid, hsign, h⟩ := gives_bind_iff.1 h
  obtain ⟨rfl, rfl⟩ := gives_nextIs_iff.1 hsign
  split at h
  · next hminus =>
    cases mid with
    | nil => simp at hminus
    | cons byte later =>
      obtain ⟨taken, hlater, htaken⟩ := digits_of_unsignedNumber hgiven (gives_take_bind.1 h)
      refine ⟨byte :: taken, by rw [List.cons_append, ← hlater]; rfl, fun b hb => ?_⟩
      rcases List.mem_cons.1 hb with rfl | hb
      · exact .inr (by simpa using hminus)
      · exact .inl (htaken b hb)
  · obtain ⟨taken, hbytes, htaken⟩ := digits_of_unsignedNumber hgiven h
    exact ⟨taken, hbytes, fun b hb => .inl (htaken b hb)⟩

/-! ## Written numbers -/

theorem ascii_of_isDigit {c : Char} (h : c.isDigit = true) : c.toNat < 0x80 := by
  simp only [Char.isDigit, Bool.and_eq_true, decide_eq_true_eq] at h
  exact Nat.lt_of_le_of_lt h.2 (by decide)

/-- The byte of a digit has the value of the digit. -/
theorem digit_ofChar {c : Char} (h : c.isDigit = true) :
    Byte.isDigit (Byte.ofChar c) = true ∧ digitValue (Byte.ofChar c) = c.toNat - '0'.toNat := by
  have hascii := ascii_of_isDigit h
  have hall : ∀ n < 0x80, (Char.ofNat n).isDigit = true →
      Byte.isDigit (Byte.ofChar (Char.ofNat n)) = true := by decide
  constructor
  · rw [← Char.ofNat_toNat c] at h ⊢
    exact hall _ hascii h
  · rw [digitValue, Text.toNat_ofChar hascii]

/-- More digits make a number no less. -/
theorem le_ofDigitChars (digits : List Char) (n : Nat) : n ≤ Nat.ofDigitChars 10 digits n := by
  rw [Nat.ofDigitChars_eq_ofDigitChars_zero]
  exact Nat.le_add_right_of_le (Nat.le_mul_of_pos_left _ (Nat.pow_pos (by decide)))

/-- Digits are absorbed as the number that they spell, if it is within the limit. -/
theorem scanned_absorbDigit {limit n : Nat} {text : List Char}
    (htext : ∀ c ∈ text, c.isDigit = true) (hlimit : Nat.ofDigitChars 10 text n ≤ limit)
    (hrest : Ends rest) (count : Nat) :
    scanned (absorbDigit limit) (n, count) (Text.encoded text ++ rest) =
      ((Nat.ofDigitChars 10 text n, count + text.length), rest) := by
  induction text generalizing n count with
  | nil =>
    cases rest with
    | nil => rfl
    | cons b later => simp [scanned, absorbDigit, hrest.isDigit_eq]
  | cons c later ih =>
    have hc := htext c (by simp)
    obtain ⟨hdigit, hvalue⟩ := digit_ofChar hc
    rw [Nat.ofDigitChars_cons, Nat.mul_comm] at hlimit
    -- The number so far is within the limit because all of it is.
    have hnext := Nat.le_trans (le_ofDigitChars later _) hlimit
    have hstep : absorbDigit limit (n, count) (Byte.ofChar c) =
        some (n * 10 + (c.toNat - '0'.toNat), count + 1) := by
      rw [absorbDigit, hvalue, if_pos ⟨hdigit, hnext⟩]
    rw [Text.encoded_cons_of_ascii (ascii_of_isDigit hc), List.cons_append, scanned, hstep]
    simp only
    rw [ih (fun d hd => htext d (List.mem_cons_of_mem _ hd)) hlimit, Nat.ofDigitChars_cons,
      Nat.mul_comm 10, List.length_cons, Nat.add_right_comm, Nat.add_assoc]

/-- A number other than zero is written without a zero in front. -/
theorem exists_toDigits_eq_cons {n : Nat} (hn : n ≠ 0) :
    ∃ c later, Nat.toDigits 10 n = c :: later ∧ c ≠ '0' := by
  induction n using Nat.strongRecOn with
  | ind n ih =>
    rw [Nat.toDigits_eq_if (by decide)]
    split
    · exact ⟨_, [], rfl, by simpa using hn⟩
    · obtain ⟨c, later, hdigits, hc⟩ := ih (n / 10) (by omega) (by omega)
      exact ⟨c, later ++ [Nat.digitChar (n % 10)], by rw [hdigits, List.cons_append], hc⟩

theorem gives_afterWhole (hrest : Ends rest) (n : Nat) :
    (afterWhole false n).Gives rest (.whole n) rest := by
  rw [afterWhole, gives_nextIs_bind, hrest.any_eq_false (isNumeral_of_eq (by decide)),
    if_neg (by decide), gives_nextIs_bind, hrest.any_eq_false isNumeral_of_isExponentMark,
    if_neg (by decide)]
  simp [wholeNumber]

/-- A whole number of at most 64 bits is read from its digits. -/
theorem gives_unsignedNumber {n : Nat} (hn : n ≤ significandLimit) (hrest : Ends rest) :
    (unsignedNumber false).Gives (Text.encoded (Nat.toDigits 10 n) ++ rest) (.whole n) rest := by
  have hend := hrest.any_eq_false isNumeral_of_isDigit
  rcases Nat.eq_zero_or_pos n with rfl | hpos
  · rw [Nat.toDigits_zero, Text.encoded_cons_of_ascii (by decide), List.cons_append, unsignedNumber,
      gives_take_bind]
    change (if Byte.zero = Byte.zero then _ else _ : Reader Number).Gives rest _ rest
    rw [if_pos rfl, gives_nextIs_bind, hend, if_neg (by decide)]
    exact gives_afterWhole hrest 0
  · obtain ⟨c, later, hdigits, hc⟩ := exists_toDigits_eq_cons (Nat.ne_of_gt hpos)
    have hall : ∀ d ∈ c :: later, d.isDigit = true := fun d hd =>
      Nat.isDigit_of_mem_toDigits (by decide) (by decide) (hdigits ▸ hd)
    have hascii := ascii_of_isDigit (hall c (by simp))
    obtain ⟨hdigit, hvalue⟩ := digit_ofChar (hall c (by simp))
    have hspelled : Nat.ofDigitChars 10 later (digitValue (Byte.ofChar c)) = n := by
      have h := Nat.ofDigitChars_toDigits (b := 10) (n := n) (by decide) (by decide)
      rwa [hdigits, Nat.ofDigitChars_cons, Nat.mul_zero, Nat.zero_add, ← hvalue] at h
    have habsorbed : (digitsWithin significandLimit (digitValue (Byte.ofChar c))).Gives
        (Text.encoded later ++ rest) (n, later.length) rest := by
      have h := scanned_absorbDigit (fun d hd => hall d (List.mem_cons_of_mem _ hd))
        (Nat.le_trans (Nat.le_of_eq hspelled) hn) hrest 0
      rw [hspelled, Nat.zero_add] at h
      exact gives_scan_iff.2 h.symm
    have hzero : Byte.ofChar c ≠ Byte.zero := fun e => hc ((Text.ofChar_inj hascii (by decide)).1 e)
    rw [hdigits, Text.encoded_cons_of_ascii hascii, List.cons_append, unsignedNumber,
      gives_take_bind]
    change (if Byte.ofChar c = Byte.zero then _ else _ : Reader Number).Gives
      (Text.encoded later ++ rest) _ rest
    rw [if_neg hzero, if_pos hdigit]
    refine gives_bind_iff.2 ⟨(n, later.length), rest, habsorbed, ?_⟩
    change (nextIs Byte.isDigit >>= _ : Reader Number).Gives rest _ rest
    rw [gives_nextIs_bind, hend, if_neg (by decide)]
    exact gives_afterWhole hrest n

end Reader

end SchemaMatch.Json
