import SchemaMatch.Proofs.Json.Outcome

/-!
# What a reader gives

On a text a reader *gives* a value and leaves the rest (`Reader.Gives`), or it gives none. What
readers give is told by the readers that they are put together from: one gives what comes of the two
halves of a sequence (`Reader.gives_bind_iff`), and a loop what comes of its first round and of the
rounds after it (`Reader.gives_loop_iff`).
-/

namespace SchemaMatch.Json

/-- What follows the white space in front. -/
def afterBlanks (bytes : List UInt8) : List UInt8 := bytes.dropWhile Byte.isBlank

theorem afterBlanks_cons (byte : UInt8) (later : List UInt8) :
    afterBlanks (byte :: later) =
      if Byte.isBlank byte then afterBlanks later else byte :: later :=
  List.dropWhile_cons

namespace Reader

variable {α β σ : Type} {bytes rest : List UInt8}

/-- Whether a reader gives a value from some bytes and leaves the rest. -/
def Gives (reader : Reader α) (bytes : List UInt8) (value : α) (rest : List UInt8) : Prop :=
  reader.outcome bytes = .ok (value, rest)

/-- Whether a reader has a fault on some bytes, and for which reason. -/
def Refuses (reader : Reader α) (bytes : List UInt8) (reason : Reason) : Prop :=
  ∃ place, reader.outcome bytes = .error ⟨reason, place⟩

/-! ## Readers put together -/

@[simp] theorem gives_pure_iff {value given : α} :
    (pure given : Reader α).Gives bytes value rest ↔ value = given ∧ rest = bytes := by
  simp [Gives, eq_comm]

theorem gives_bind_iff {first : Reader α} {next : α → Reader β} {value : β} :
    (first >>= next).Gives bytes value rest ↔
      ∃ given mid, first.Gives bytes given mid ∧ (next given).Gives mid value rest := by
  simp only [Gives, outcome_bind]
  cases first.outcome bytes with
  | error fault => simp [Except.bind]
  | ok given => simp [Except.bind, Prod.ext_iff, and_assoc]

/-- Two readers one after the other report a fault if the first does, or the second on what the
    first leaves. -/
theorem refuses_bind_iff {first : Reader α} {next : α → Reader β} {reason : Reason} :
    (first >>= next).Refuses bytes reason ↔
      first.Refuses bytes reason ∨
        ∃ given mid, first.Gives bytes given mid ∧ (next given).Refuses mid reason := by
  simp only [Refuses, Gives, outcome_bind]
  cases first.outcome bytes with
  | error fault => simp [Except.bind]
  | ok given => simp [Except.bind, Prod.ext_iff, and_assoc]

@[simp] theorem gives_map_iff {f : α → β} {reader : Reader α} {value : β} :
    (f <$> reader).Gives bytes value rest ↔
      ∃ given, reader.Gives bytes given rest ∧ value = f given := by
  rw [← bind_pure_comp, gives_bind_iff]
  simp only [gives_pure_iff]
  constructor
  · rintro ⟨given, mid, h, rfl, rfl⟩
    exact ⟨given, h, rfl⟩
  · rintro ⟨given, h, rfl⟩
    exact ⟨given, rest, h, rfl, rfl⟩

@[simp] theorem not_gives_fail {reason : Reason} {site : Site} {value : α} :
    ¬(fail reason site).Gives bytes value rest :=
  nofun

@[simp] theorem refuses_fail_iff {reason given : Reason} {site : Site} :
    (fail given site : Reader α).Refuses bytes reason ↔ given = reason := by
  simp [Refuses]

@[simp] theorem gives_peek_iff {next : Option UInt8} :
    peek.Gives bytes next rest ↔ next = bytes.head? ∧ rest = bytes := by
  simp [Gives, Source.peek, eq_comm]

@[simp] theorem gives_take_iff {next : Option UInt8} :
    take.Gives bytes next rest ↔ next = bytes.head? ∧ rest = bytes.tail := by
  simp [Gives, Source.take, eq_comm]

theorem gives_asText_iff {taken : List UInt8} {text : String} :
    (asText taken).Gives bytes text rest ↔
      SchemaMatch.Text.ofBytes? taken = some text ∧ rest = bytes := by
  rw [Gives, outcome_asText]
  cases SchemaMatch.Text.ofBytes? taken <;> simp [eq_comm]

theorem outcome_hexEscape_cons (a b c d : UInt8) (rest : List UInt8) :
    hexEscape.outcome (a :: b :: c :: d :: rest) =
      match hexNumber? [a, b, c, d] with
      | some n => .ok (n, rest)
      | none => .error ⟨.invalidEscape, rest.length⟩ := by
  rw [outcome_hexEscape]
  simp only [Source.hexEscape]
  cases hexNumber? [a, b, c, d] <;> rfl

/-- The digits of a numbered escape are four. -/
theorem outcome_hexEscape_of_length (h : bytes.length < 4) :
    hexEscape.outcome bytes = .error ⟨.endInString, 0⟩ := by
  rcases bytes with _ | ⟨a, _ | ⟨b, _ | ⟨c, _ | ⟨d, rest⟩⟩⟩⟩
  any_goals rfl
  simp only [List.length_cons] at h
  omega

theorem exists_four_of_length (h : 4 ≤ bytes.length) :
    ∃ a b c d rest, bytes = a :: b :: c :: d :: rest := by
  rcases bytes with _ | ⟨a, _ | ⟨b, _ | ⟨c, _ | ⟨d, rest⟩⟩⟩⟩
  any_goals simp at h
  exact ⟨a, b, c, d, rest, rfl⟩

theorem gives_hexEscape_iff {n : Nat} :
    hexEscape.Gives bytes n rest ↔
      ∃ a b c d, bytes = a :: b :: c :: d :: rest ∧ hexNumber? [a, b, c, d] = some n := by
  constructor
  · intro h
    rcases Nat.lt_or_ge bytes.length 4 with hlength | hlength
    · simp [Gives, outcome_hexEscape_of_length hlength] at h
    · obtain ⟨a, b, c, d, later, rfl⟩ := exists_four_of_length hlength
      rw [Gives, outcome_hexEscape_cons] at h
      cases hnumber : hexNumber? [a, b, c, d] with
      | none => simp [hnumber] at h
      | some m =>
        rw [hnumber] at h
        cases h
        exact ⟨a, b, c, d, rfl, hnumber⟩
  · rintro ⟨a, b, c, d, rfl, h⟩
    rw [Gives, outcome_hexEscape_cons, h]

theorem refuses_hexEscape {reason : Reason} (h : hexEscape.Refuses bytes reason) :
    reason = .invalidEscape ∨ reason = .endInString := by
  obtain ⟨place, h⟩ := h
  rcases Nat.lt_or_ge bytes.length 4 with hlength | hlength
  · rw [outcome_hexEscape_of_length hlength] at h
    cases h
    exact .inr rfl
  · obtain ⟨a, b, c, d, later, rfl⟩ := exists_four_of_length hlength
    rw [outcome_hexEscape_cons] at h
    cases hnumber : hexNumber? [a, b, c, d] with
    | none =>
      rw [hnumber] at h
      cases h
      exact .inl rfl
    | some n => simp [hnumber] at h

/-! ## Scans -/

/-- The last of the states that bytes give, one after the other, and what is left of the bytes. -/
def scanned (step : σ → UInt8 → Option σ) (state : σ) : List UInt8 → σ × List UInt8
  | [] => (state, [])
  | byte :: rest =>
    match step state byte with
    | none => (state, byte :: rest)
    | some state => scanned step state rest

theorem outcome_scan_text (step : σ → UInt8 → Option σ) (state : σ) (bytes : List UInt8) :
    (scan step state).outcome bytes = .ok (scanned step state bytes) := by
  induction bytes generalizing state with
  | nil => rw [outcome_scan]; rfl
  | cons byte rest ih =>
    rw [outcome_scan, scanned]
    change (match step state byte with
      | none => _
      | some state => (scan step state).outcome rest) = _
    cases step state byte with
    | none => rfl
    | some state => exact ih state

theorem gives_scan_iff {step : σ → UInt8 → Option σ} {state last : σ} :
    (scan step state).Gives bytes last rest ↔ (last, rest) = scanned step state bytes := by
  rw [Gives, outcome_scan_text, Except.ok.injEq, eq_comm]

/-- What is taken gives states, one byte after the other. -/
theorem exists_scanned (step : σ → UInt8 → Option σ) (state : σ) (bytes : List UInt8) :
    ∃ taken, bytes = taken ++ (scanned step state bytes).2 ∧
      ∀ b ∈ taken, ∃ state next, step state b = some next := by
  fun_induction scanned step state bytes with
  | case1 | case2 => exact ⟨[], rfl, nofun⟩
  | case3 state byte rest next h ih =>
    obtain ⟨taken, hrest, htaken⟩ := ih
    refine ⟨byte :: taken, by rw [List.cons_append, ← hrest], ?_⟩
    exact List.forall_mem_cons.2 ⟨⟨state, next, h⟩, htaken⟩

theorem gives_passWhile_iff {property : UInt8 → Bool} {u : Unit} :
    (passWhile property).Gives bytes u rest ↔ rest = bytes.dropWhile property := by
  rw [passWhile, gives_scan_iff]
  induction bytes with
  | nil => simp [scanned]
  | cons byte later ih =>
    rw [scanned, List.dropWhile_cons]
    split <;> simp_all

@[simp] theorem gives_blanks_iff {u : Unit} :
    blanks.Gives bytes u rest ↔ rest = afterBlanks bytes :=
  gives_passWhile_iff

@[simp] theorem gives_peek_bind {next : Option UInt8 → Reader β} {value : β} :
    (peek >>= next).Gives bytes value rest ↔ (next bytes.head?).Gives bytes value rest := by
  simp [gives_bind_iff, and_assoc]

@[simp] theorem gives_take_bind {next : Option UInt8 → Reader β} {value : β} :
    (take >>= next).Gives bytes value rest ↔ (next bytes.head?).Gives bytes.tail value rest := by
  simp [gives_bind_iff, and_assoc]

@[simp] theorem gives_blanks_bind {next : Unit → Reader β} {value : β} :
    (blanks >>= next).Gives bytes value rest ↔ (next ()).Gives (afterBlanks bytes) value rest := by
  simp only [gives_bind_iff, gives_blanks_iff]
  exact ⟨fun ⟨_, _, hmid, h⟩ => hmid ▸ h, fun h => ⟨(), _, rfl, h⟩⟩

/-! ## Loops -/

section Loop

variable {round : σ → UInt8 → Reader (σ ⊕ α)} {atEnd : σ → Reason} {state : σ} {value : α}

theorem not_gives_loop_nil : ¬(loop round atEnd state).Gives [] value rest := by
  simp [Gives, outcome_loop, Source.take]

/-- A loop gives what its first round gives at the end, or else what comes after that round. -/
theorem gives_loop_iff {byte : UInt8} :
    (loop round atEnd state).Gives (byte :: bytes) value rest ↔
      (round state byte).Gives bytes (.inr value) rest ∨
        ∃ state' left, (round state byte).Gives bytes (.inl state') left ∧
          (loop round atEnd state').Gives left value rest := by
  simp only [Gives]
  rw [outcome_loop]
  change ((round state byte).outcome bytes).bind _ = _ ↔ _
  cases (round state byte).outcome bytes with
  | error fault => simp [Except.bind]
  | ok given =>
    obtain ⟨next | last, left⟩ := given
    · simp [Except.bind, and_assoc]
    · simp [Except.bind]

/-- A loop reports a fault if its first round does, or what comes after that round. -/
theorem refuses_loop_iff {byte : UInt8} {reason : Reason} :
    (loop round atEnd state).Refuses (byte :: bytes) reason ↔
      (round state byte).Refuses bytes reason ∨
        ∃ state' left, (round state byte).Gives bytes (.inl state') left ∧
          (loop round atEnd state').Refuses left reason := by
  simp only [Refuses, Gives]
  rw [outcome_loop]
  change (∃ place, ((round state byte).outcome bytes).bind _ = _) ↔ _
  cases (round state byte).outcome bytes with
  | error fault => simp [Except.bind]
  | ok given =>
    obtain ⟨next | last, left⟩ := given
    · simp [Except.bind, and_assoc]
    · simp [Except.bind]

end Loop

end Reader

/-! ## All of a text -/

namespace Decoder

open Reader

variable {α : Type} {decoder : Decoder α} {value : α} {bytes : List UInt8}

theorem decode_eq_ok_iff_gives :
    decoder.decode bytes = .ok value ↔ ∃ rest, decoder.whole.Gives bytes value rest := by
  simp only [decode, decodeFrom_eq_outcome, Gives]
  cases decoder.whole.outcome bytes with
  | error fault => exact ⟨nofun, nofun⟩
  | ok given =>
    constructor
    · rintro ⟨⟩
      exact ⟨given.2, rfl⟩
    · rintro ⟨rest, ⟨⟩⟩
      rfl

theorem refuses_of_decode {fault : Fault Position}
    (h : decoder.decode bytes = .error fault) : decoder.whole.Refuses bytes fault.reason := by
  simp only [decode, decodeFrom_eq_outcome] at h
  cases hwhole : decoder.whole.outcome bytes with
  | error found =>
    rw [hwhole] at h
    cases h
    exact ⟨found.place, hwhole⟩
  | ok given =>
    rw [hwhole] at h
    cases h

end Decoder

end SchemaMatch.Json
