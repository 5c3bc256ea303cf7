import SchemaMatch.Decimal.Layout

/-!
# The characters of a decimal

A decimal has no characters but digits, signs, a point and an `e` (`IsDecimal`), and it always has a
point or an `e`, so that it can be told from a whole number: `Layout.isFractional_signed`.
-/

namespace SchemaMatch.Decimal

/-- Whether a character may stand in a decimal. -/
def IsDecimal (c : Char) : Prop :=
  c.isDigit = true ∨ c = '.' ∨ c = 'e' ∨ c = '+' ∨ c = '-'

/-- Whether a text has characters of decimals only, and a point or an `e` among them. -/
structure IsFractional (text : List Char) : Prop where
  isDecimal : ∀ c ∈ text, IsDecimal c
  mark : '.' ∈ text ∨ 'e' ∈ text

theorem isDecimal_of_mem_repr {n : Nat} {c : Char} (h : c ∈ (Nat.repr n).toList) : IsDecimal c := by
  rw [Nat.toList_repr] at h
  exact .inl (Nat.isDigit_of_mem_toDigits (by decide) (by decide) h)

theorem isDecimal_of_mem_zeros {n : Nat} {c : Char} (h : c ∈ zeros n) : IsDecimal c := by
  rw [List.eq_of_mem_replicate h]
  exact .inl rfl

variable {digits : List Char} {leading : Int}

theorem isFractional_positional (hdigits : ∀ c ∈ digits, IsDecimal c) :
    IsFractional (positional digits leading) := by
  have hpoint : IsDecimal '.' := .inr (.inl rfl)
  have hzero : IsDecimal '0' := .inl rfl
  rw [positional]
  split
  · refine ⟨?_, .inl (by simp)⟩
    simp only [List.mem_cons, List.mem_append, forall_eq_or_imp]
    exact ⟨hzero, hpoint, fun c hc => hc.elim isDecimal_of_mem_zeros (hdigits c)⟩
  · dsimp only
    split
    · refine ⟨?_, .inl (by simp)⟩
      simp only [List.mem_append, List.mem_cons, List.not_mem_nil, or_false]
      rintro c ((hc | hc) | rfl | rfl)
      · exact hdigits c hc
      · exact isDecimal_of_mem_zeros hc
      · exact hpoint
      · exact hzero
    · refine ⟨?_, .inl (by simp)⟩
      simp only [List.mem_append, List.mem_cons]
      rintro c (hc | rfl | hc)
      · exact hdigits c (List.mem_of_mem_take hc)
      · exact hpoint
      · exact hdigits c (List.mem_of_mem_drop hc)

theorem isFractional_exponential (hdigits : ∀ c ∈ digits, IsDecimal c) :
    IsFractional (exponential digits leading) := by
  refine ⟨?_, .inr (by simp [exponential])⟩
  simp only [exponential, List.mem_append, List.mem_cons]
  rintro c (hc | rfl | rfl | hc)
  · split at hc
    · simp only [List.mem_cons] at hc
      rcases hc with rfl | rfl | rfl | hc
      · exact hdigits _ (by simp)
      · exact .inr (.inl rfl)
      · exact hdigits _ (by simp)
      · exact hdigits c (by simp [hc])
    · exact hdigits c hc
  · exact .inr (.inr (.inl rfl))
  · split
    · exact .inr (.inr (.inr (.inr rfl)))
    · exact .inr (.inr (.inr (.inl rfl)))
  · exact isDecimal_of_mem_repr hc

theorem Layout.isFractional_magnitude (n : Layout) (d : Digits) : IsFractional (n.magnitude d) := by
  have hdigits : ∀ c ∈ d.scientific.1, IsDecimal c := fun _ => isDecimal_of_mem_repr
  rw [magnitude]
  generalize d.scientific = form at hdigits ⊢
  obtain ⟨digits, leading⟩ := form
  dsimp only
  split
  · exact isFractional_positional hdigits
  · exact isFractional_exponential hdigits

/-- A decimal has characters of decimals only, and a point or an `e` among them. -/
theorem Layout.isFractional_signed (n : Layout) (negative : Bool) (magnitude : Option Digits) :
    IsFractional (n.signed negative magnitude).toList := by
  have htext : IsFractional ((magnitude.map n.magnitude).getD ['0', '.', '0']) := by
    cases magnitude with
    | none => exact ⟨by simp [IsDecimal, Char.isDigit], .inl (by simp)⟩
    | some d => exact n.isFractional_magnitude d
  rw [signed, String.toList_ofList]
  split
  · refine ⟨?_, htext.mark.imp (List.mem_cons_of_mem _) (List.mem_cons_of_mem _)⟩
    simp only [List.mem_cons, forall_eq_or_imp]
    exact ⟨.inr (.inr (.inr (.inr rfl))), htext.isDecimal⟩
  · exact htext

theorem isFractional_ofDouble (x : Float) : IsFractional (ofDouble x).toList :=
  doubles.isFractional_signed _ _

theorem isFractional_ofSingle (x : Float32) : IsFractional (ofSingle x).toList :=
  singles.isFractional_signed _ _

end SchemaMatch.Decimal
