import SchemaMatch.Json.Reader.Collection

/-!
# What a reader comes to

On a source a reader comes to a value and what the source is afterwards, or to a fault: its
`Reader.outcome`. The outcome of a reader is told by those of its parts: two readers one after the
other hand on the source (`Reader.outcome_bind`), and a loop goes through its first round and then
through the rounds after it (`Reader.outcome_loop`).

Readers are *equivalent* if they have the same outcome on every source. A loop whose rounds
correspond to those of another one, state by state, is equivalent to it, up to what corresponds to
its values (`Reader.loop_map`).
-/

namespace SchemaMatch.Json

variable {S P α β σ : Type} [Source S P] {s : S}

/-- A reading without the bound on what is left. -/
def Read.toProd (read : Read α s) : α × S := (read.value, read.rest)

theorem Read.map_toProd_after {t : S} (h : Source.left t ≤ Source.left s)
    (given : Except (Fault P) (Read α t)) :
    (given.map (after h)).map toProd = given.map toProd := by
  cases given <;> rfl

theorem Read.map_toProd_andThen (first : Except (Fault P) (Read α s))
    (next : α → (t : S) → Except (Fault P) (Read β t)) :
    (andThen first next).map toProd =
      (first.map toProd).bind fun given => (next given.1 given.2).map toProd := by
  cases first with
  | error fault => rfl
  | ok read =>
    change ((next read.value read.rest).map (after read.left_le)).map toProd = _
    exact map_toProd_after _ _

namespace Reader

/-- What a reader comes to. -/
def outcome (reader : Reader α) (s : S) : Except (Fault P) (α × S) :=
  (reader.on s).map Read.toProd

theorem left_le_of_outcome {reader : Reader α} {value : α} {t : S}
    (h : reader.outcome s = .ok (value, t)) : Source.left t ≤ Source.left s := by
  rw [outcome] at h
  cases hread : reader.on s with
  | error fault => simp [hread, Except.map] at h
  | ok read =>
    rw [hread] at h
    cases h
    exact read.left_le

/-- What a decoder comes to on a source is what its reader of all of it does. -/
theorem decodeFrom_eq_outcome (decoder : Decoder α) (s : S) :
    decoder.decodeFrom s = (decoder.whole.outcome s).map Prod.fst := by
  rw [Decoder.decodeFrom, outcome]
  cases decoder.whole.on s <;> rfl

/-! ## Readers put together -/

@[simp] theorem outcome_pure (value : α) (s : S) :
    (pure value : Reader α).outcome s = .ok (value, s) := rfl

@[simp] theorem outcome_fail (reason : Reason) (site : Site) (s : S) :
    (fail reason site : Reader α).outcome s = .error ⟨reason, Source.place site s⟩ := rfl

theorem outcome_perform (operation : Operation β) (next : β → Reader α) (s : S) :
    (perform operation next).outcome s =
      ((operation.on s).map Read.toProd).bind fun given => (next given.1).outcome given.2 :=
  Read.map_toProd_andThen _ _

theorem outcome_bind (first : Reader α) (next : α → Reader β) (s : S) :
    (first >>= next).outcome s =
      (first.outcome s).bind fun given => (next given.1).outcome given.2 := by
  change (Reader.bind first next).outcome s = _
  induction first generalizing s with
  | give | fail => rfl
  | perform operation later ih =>
    rw [Reader.bind, outcome_perform, outcome_perform]
    cases (operation.on s).map Read.toProd with
    | error fault => rfl
    | ok given => exact ih _ _ _
  | repeated round atEnd state later _ ih =>
    rw [Reader.bind, outcome, outcome, Reader.on, Reader.on, Read.map_toProd_andThen,
      Read.map_toProd_andThen]
    cases (Source.rounds (fun state byte => (round state byte).on) atEnd state s).map
      Read.toProd with
    | error fault => rfl
    | ok given => exact ih _ _ _

theorem outcome_map (f : α → β) (reader : Reader α) (s : S) :
    (f <$> reader).outcome s = (reader.outcome s).map fun given => (f given.1, given.2) := by
  rw [← bind_pure_comp, outcome_bind]
  cases reader.outcome s <;> rfl

theorem outcome_of_perform (operation : Operation α) (s : S) :
    (perform operation .give).outcome s = (operation.on s).map Read.toProd := by
  rw [outcome_perform]
  cases operation.on s <;> rfl

@[simp] theorem outcome_peek (s : S) : peek.outcome s = .ok (Source.peek s) :=
  outcome_of_perform _ s

@[simp] theorem outcome_take (s : S) : take.outcome s = .ok (Source.take s) :=
  outcome_of_perform _ s

theorem outcome_hexEscape (s : S) :
    hexEscape.outcome s =
      match (Source.hexEscape s).1 with
      | .ok n => .ok (n, (Source.hexEscape s).2)
      | .error reason => .error ⟨reason, Source.place .behind (Source.hexEscape s).2⟩ := by
  rw [hexEscape, outcome_of_perform, Operation.on]
  cases (Source.hexEscape s).1 <;> rfl

theorem outcome_asText (taken : List UInt8) (s : S) :
    (asText taken).outcome s =
      match SchemaMatch.Text.ofBytes? taken with
      | some text => .ok (text, s)
      | none =>
        .error ⟨.invalidUtf8,
          Source.placeBack (taken.length - SchemaMatch.Text.validLength taken) s⟩ := by
  rw [asText, outcome_of_perform, Operation.on]
  cases SchemaMatch.Text.ofBytes? taken <;> rfl

/-! ## Loops -/

theorem outcome_scan (step : σ → UInt8 → Option σ) (state : σ) (s : S) :
    (scan step state).outcome s =
      match (Source.peek s).1.bind (step state) with
      | none => .ok (state, (Source.peek s).2)
      | some state => (scan step state).outcome (Source.take (Source.peek s).2).2 := by
  simp only [scan, outcome_of_perform, Operation.on, Except.map]
  rw [Source.scan]
  split
  · next heq => simp only [heq, Read.toProd]
  · next heq => simp only [heq, Read.toProd, Read.after]

section Loop

variable {round : σ → UInt8 → Reader (σ ⊕ α)} {atEnd : σ → Reason} {state : σ}

theorem outcome_loop_eq_rounds :
    (loop round atEnd state).outcome s =
      (Source.rounds (fun state byte => (round state byte).on) atEnd state s).map Read.toProd := by
  rw [loop, outcome, Reader.on, Read.map_toProd_andThen]
  cases Source.rounds (fun state byte => (round state byte).on) atEnd state s <;> rfl

/-- A loop goes through a round, and then ends or goes on in a new state. -/
theorem outcome_loop :
    (loop round atEnd state).outcome s =
      match (Source.take s).1 with
      | none => .error ⟨atEnd state, Source.place .behind (Source.take s).2⟩
      | some byte =>
        ((round state byte).outcome (Source.take s).2).bind fun
          | (.inl state, t) => (loop round atEnd state).outcome t
          | (.inr value, t) => .ok (value, t) := by
  simp only [outcome_loop_eq_rounds]
  rw [Source.rounds]
  split
  · next h => simp only [h, Except.map]
  · next byte h =>
    simp only [h, outcome]
    cases (round state byte).on (Source.take s).2 with
    | error fault => rfl
    | ok read =>
      obtain ⟨next | value, t, hle⟩ := read
      · exact Read.map_toProd_after _ _
      · rfl

/-- What holds of the rounds from a state on if it holds of those after the first one of them, holds
    of all rounds: each of them takes a byte. -/
theorem loop_induction (round : σ → UInt8 → Reader (σ ⊕ α)) {motive : σ → S → Prop}
    (h : ∀ state s, (∀ byte next t, (Source.take s).1 = some byte →
      (round state byte).outcome (Source.take s).2 = .ok (.inl next, t) → motive next t) →
      motive state s) (state : σ) (s : S) : motive state s := by
  induction hleft : Source.left s using Nat.strongRecOn generalizing state s with
  | ind left ih =>
    subst hleft
    refine h state s fun byte next t hbyte hround => ih _ ?_ next t rfl
    exact Nat.lt_of_le_of_lt (left_le_of_outcome hround) (Source.left_take_lt (by rw [hbyte]; rfl))

end Loop

/-! ## Equivalence -/

/-- Readers are equivalent if they come to the same on every source. -/
instance : Setoid (Reader α) where
  r reader other := ∀ (S P : Type) [Source S P] (s : S), reader.outcome s = other.outcome s
  iseqv := ⟨fun _ _ _ _ _ => rfl, fun h S P _ s => (h S P s).symm,
    fun h h' S P _ s => (h S P s).trans (h' S P s)⟩

theorem bind_equiv {next next' : α → Reader β} (first : Reader α)
    (h : ∀ value, next value ≈ next' value) : (first >>= next) ≈ (first >>= next') := by
  intro S P _ s
  rw [outcome_bind, outcome_bind]
  exact congrArg _ (funext fun given => h given.1 S P given.2)

theorem ite_equiv {c : Prop} [Decidable c] {yes yes' no no' : Reader α} (hyes : yes ≈ yes')
    (hno : no ≈ no') : (if c then yes else no) ≈ if c then yes' else no' := by
  split
  · exact hyes
  · exact hno

theorem nested_equiv {content content' : Nat → Reader α}
    (h : ∀ depth, content depth ≈ content' depth) :
    ∀ depth, nested content depth ≈ nested content' depth
  | 0 => Setoid.refl _
  | depth + 1 => bind_equiv take fun _ => h depth

/-! ## Readers that correspond -/

@[simp] theorem map_fail (f : α → β) (reason : Reason) (site : Site) :
    f <$> (fail reason site : Reader α) = fail reason site := rfl

theorem map_ite {c : Prop} [Decidable c] (f : α → β) (yes no : Reader α) :
    f <$> (if c then yes else no) = if c then f <$> yes else f <$> no :=
  apply_ite _ _ _ _

theorem map_nested (f : α → β) (content : Nat → Reader α) (depth : Nat) :
    f <$> nested content depth = nested (fun depth => f <$> content depth) depth := by
  cases depth with
  | zero => rfl
  | succ depth => simp only [nested, map_bind]

theorem map_mismatch (f : α → β) (expected : String) :
    f <$> (Decoder.mismatch expected : Reader α) = Decoder.mismatch expected := by
  simp only [Decoder.mismatch, map_bind, map_ite, map_fail]

section Corresponding

variable {τ : Type} {f : σ → τ} {g : α → β}

theorem loop_map {round : σ → UInt8 → Reader (σ ⊕ α)} {round' : τ → UInt8 → Reader (τ ⊕ β)}
    {atEnd : σ → Reason} {atEnd' : τ → Reason}
    (hround : ∀ state byte, round' (f state) byte = Sum.map f g <$> round state byte)
    (hend : ∀ state, atEnd' (f state) = atEnd state) (state : σ) :
    loop round' atEnd' (f state) ≈ g <$> loop round atEnd state := by
  intro S P _ s
  refine loop_induction round (motive := fun state s =>
    (loop round' atEnd' (f state)).outcome s = (g <$> loop round atEnd state).outcome s)
    (fun state s ih => ?_) state s
  simp only [outcome_map] at ih ⊢
  rw [outcome_loop, outcome_loop, hend]
  cases hbyte : (Source.take s).1 with
  | none => rfl
  | some byte =>
    simp only [hround, outcome_map]
    cases hfirst : (round state byte).outcome (Source.take s).2 with
    | error fault => rfl
    | ok given =>
      obtain ⟨next | value, t⟩ := given
      · exact ih byte next t hbyte hfirst
      · rfl

/-- The members of an object, where each of them is read as the corresponding one. -/
theorem members_map {member : σ → String → Reader σ} {member' : τ → String → Reader τ}
    (hmember : ∀ state name, member' (f state) name = f <$> member state name) (state : σ) :
    members member' (f state) ≈ f <$> members member state := by
  have hround : ∀ state byte,
      memberRound member' (f state) byte = Sum.map f f <$> memberRound member state byte := by
    intro state byte
    rw [memberRound, memberRound]
    split
    · rfl
    split
    · rfl
    split
    · simp only [map_bind]
      refine bind_congr fun _ => bind_congr fun next => ?_
      cases next with
      | none => rfl
      | some byte =>
        dsimp only
        split
        · rfl
        · simp [hmember]
    · rfl
  rw [members, members]
  simp only [map_bind]
  refine bind_equiv _ fun _ => bind_equiv _ fun next => ?_
  cases next with
  | none => exact Setoid.refl _
  | some byte =>
    dsimp only
    rw [map_ite]
    refine ite_equiv (by simp only [map_bind, map_pure]; exact Setoid.refl _) ?_
    simp only [map_bind, hmember, bind_map_left]
    exact bind_equiv _ fun name => bind_equiv _ fun state => loop_map hround (fun _ => rfl) state

end Corresponding

end Reader

end SchemaMatch.Json
