import Mathlib.Data.Nat.Init
import SchemaMatch.Random.ChaCha

/-!
# Draws by their numbers

A draw of a seeded stream is determined by its number: the draws of the blocks follow one another,
eight to a block (`Key.draw`). The stream makes a block only when the one before it is used up, and
keeps what is left of it (`Stream.At`). Every draw moves the stream to the next number
(`Stream.At.next`), so that taking some draws gives those of the numbers from its place on, none of
them left out and none given again (`Stream.At.take`).
-/

namespace SchemaMatch.Random

/-- The draw of a number in the stream of a key. -/
def Key.draw (key : Key) (n : Nat) : UInt64 :=
  (key.blockDraws (n / 8).toUInt64).getD (n % 8) 0

/-- A block holds the draws of eight numbers. -/
theorem Key.blockDraws_eq_map (key : Key) (k : ℕ) :
    key.blockDraws k.toUInt64 = (List.range' (8 * k) 8).map key.draw := by
  refine List.ext_getElem (by rw [List.length_map, List.length_range']; rfl) fun i hi hi' => ?_
  rw [List.length_map, List.length_range'] at hi'
  have hdiv : (8 * k + i) / 8 = k := by omega
  have hmod : (8 * k + i) % 8 = i := by omega
  rw [List.getElem_map, List.getElem_range', Nat.one_mul, draw, hdiv, hmod,
    List.getD_eq_getElem?_getD, List.getElem?_eq_getElem hi, Option.getD_some]

namespace Stream

variable {key : Key} {n : ℕ} {s : Stream}

/-- Whether a stream stands before the draw of a number: it has the draws left from this number to
    the end of a block, and goes on with the next block. -/
def At (key : Key) (n : ℕ) (s : Stream) : Prop :=
  ∃ k left : ℕ, n + left = 8 * k ∧ s = ⟨key, k.toUInt64, (List.range' n left).map key.draw⟩

theorem at_ofSeed (seed : UInt64) : At (Key.ofSeed seed) 0 (ofSeed seed) := ⟨0, 0, rfl, rfl⟩

/-- A draw moves a stream on by one number. -/
theorem At.next (h : At key n s) : s.next.1 = key.draw n ∧ At key (n + 1) s.next.2 := by
  obtain ⟨k, left, hplace, rfl⟩ := h
  cases left with
  | zero =>
    -- The block is used up, and the next one begins with the number.
    obtain rfl : n = 8 * k := hplace
    have hnext : next ⟨key, k.toUInt64, []⟩ =
        ((key.blockDraws k.toUInt64).headD 0,
          ⟨key, k.toUInt64 + 1, (key.blockDraws k.toUInt64).tail⟩) := rfl
    have hnumber : k.toUInt64 + 1 = (k + 1).toUInt64 := (UInt64.ofNat_add k 1).symm
    rw [List.range'_zero, List.map_nil, hnext, key.blockDraws_eq_map, hnumber, List.range'_succ]
    exact ⟨rfl, k + 1, 7, by omega, rfl⟩
  | succ left =>
    rw [List.range'_succ]
    exact ⟨rfl, k, left, by omega, rfl⟩

theorem take_succ (count : ℕ) (s : Stream) :
    s.take (count + 1) = (s.next.1 :: (s.next.2.take count).1, (s.next.2.take count).2) := rfl

/-- Taking draws gives those of as many numbers, and moves the stream behind them. -/
theorem At.take (h : At key n s) (count : ℕ) :
    (s.take count).1 = (List.range' n count).map key.draw ∧
      At key (n + count) (s.take count).2 := by
  induction count generalizing n s with
  | zero => exact ⟨rfl, h⟩
  | succ count ih =>
    obtain ⟨hdraw, hnext⟩ := h.next
    obtain ⟨hlater, hend⟩ := ih hnext
    rw [take_succ, hdraw, hlater, List.range'_succ, List.map_cons]
    exact ⟨rfl, by rwa [Nat.add_right_comm] at hend⟩

/-- Draws are taken together as they are one after the other. -/
theorem take_add (m n : ℕ) (s : Stream) :
    s.take (m + n) = ((s.take m).1 ++ ((s.take m).2.take n).1, ((s.take m).2.take n).2) := by
  induction m generalizing s with
  | zero => rw [Nat.zero_add]; rfl
  | succ m ih => rw [Nat.succ_add, take_succ, ih, take_succ]; rfl

theorem length_take (count : ℕ) (s : Stream) : (s.take count).1.length = count := by
  induction count generalizing s with
  | zero => rfl
  | succ count ih => rw [take_succ, List.length_cons, ih]

end Stream

end SchemaMatch.Random
