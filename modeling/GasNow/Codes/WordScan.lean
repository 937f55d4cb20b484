import Mathlib.Data.Fin.Basic
import Mathlib.Data.List.Basic
import Mathlib.Tactic.Ring

/-!
# Bytes 0 and 255 in a word

The bytes of a word that are 0 or 255 are those that, less one, have their highest bit set and,
plus one, have it clear. The word's own subtraction and addition may carry from one byte to the
next, but only from a byte that is 0 or 255, so that the test is right for the word as a whole.

## Main definitions

- `value`, the number that bytes make, the first one lowest
- `ones`, the number whose bytes are all 1
- `marks`, the test of all bytes of a word at once
-/

namespace WordScan

/-- A byte that is 0 or 255. -/
def IsSpecial (b : Fin 256) : Prop := (b : ℕ) = 0 ∨ (b : ℕ) = 255

instance (b : Fin 256) : Decidable (IsSpecial b) := inferInstanceAs (Decidable (_ ∨ _))

def value : List (Fin 256) → ℕ
  | [] => 0
  | b :: l => b + 256 * value l

def ones : ℕ → ℕ
  | 0 => 0
  | n + 1 => 1 + 256 * ones n

/-- The word less `ones`. -/
def lessOnes (l : List (Fin 256)) : ℕ :=
  (256 ^ l.length - ones l.length + value l) % 256 ^ l.length

/-- The word plus `ones`. -/
def plusOnes (l : List (Fin 256)) : ℕ := (value l + ones l.length) % 256 ^ l.length

theorem ones_lt (n : ℕ) : ones n < 256 ^ n := by
  induction n with
  | zero => exact Nat.one_pos
  | succ n ih =>
    rw [ones, pow_succ]
    omega

theorem value_lt (l : List (Fin 256)) : value l < 256 ^ l.length := by
  induction l with
  | nil => exact Nat.one_pos
  | cons b l ih =>
    rw [value, List.length_cons, pow_succ]
    omega

/-- The remainder of a number by its lowest byte. -/
theorem byte_add_mod {x y m : ℕ} (hx : x < 256) :
    (x + 256 * y) % (m * 256) = x + 256 * (y % m) := by
  rw [Nat.mul_comm m, Nat.mod_mul]
  have hlow : (x + 256 * y) % 256 = x := by omega
  have hhigh : (x + 256 * y) / 256 = y := by omega
  rw [hlow, hhigh]

theorem lessOnes_cons {b : Fin 256} {l : List (Fin 256)} (h : ¬IsSpecial b) :
    lessOnes (b :: l) = (b - 1) + 256 * lessOnes l := by
  have hb : 0 < (b : ℕ) := Nat.pos_of_ne_zero fun h0 => h (.inl h0)
  have hones := ones_lt l.length
  have hsplit : 256 ^ l.length * 256 - (1 + 256 * ones l.length) + (b + 256 * value l) =
      (b - 1) + 256 * (256 ^ l.length - ones l.length + value l) := by omega
  unfold lessOnes
  rw [List.length_cons, pow_succ, ones, value, hsplit, byte_add_mod (by omega)]

theorem plusOnes_cons {b : Fin 256} {l : List (Fin 256)} (h : ¬IsSpecial b) :
    plusOnes (b :: l) = (b + 1) + 256 * plusOnes l := by
  have hb : (b : ℕ) ≠ 255 := fun h255 => h (.inr h255)
  have hsplit : b + 256 * value l + (1 + 256 * ones l.length) =
      (b + 1) + 256 * (value l + ones l.length) := by ring
  unfold plusOnes
  rw [List.length_cons, pow_succ, ones, value, hsplit, byte_add_mod (by omega)]

/-- The lowest byte, which nothing is carried to. -/
theorem lessOnes_mod (b : Fin 256) (l : List (Fin 256)) :
    lessOnes (b :: l) % 256 = (b + 255) % 256 := by
  have hones := ones_lt l.length
  unfold lessOnes
  rw [List.length_cons, pow_succ, Nat.mul_comm (256 ^ l.length), Nat.mod_mul_right_mod, ones, value]
  omega

theorem plusOnes_mod (b : Fin 256) (l : List (Fin 256)) :
    plusOnes (b :: l) % 256 = (b + 1) % 256 := by
  unfold plusOnes
  rw [List.length_cons, pow_succ, Nat.mul_comm (256 ^ l.length), Nat.mod_mul_right_mod, ones, value]
  omega

/-- The highest bit of the lowest byte. -/
theorem testBit_seven (x : ℕ) : x.testBit 7 = (x % 256).testBit 7 := by
  have h := Nat.testBit_mod_two_pow x 8 7
  simpa using h.symm

/-- The bits of the other bytes. -/
theorem testBit_byte_add {x : ℕ} (hx : x < 256) (y k : ℕ) :
    (x + 256 * y).testBit (8 + k) = y.testBit k := by
  have hdiv : (x + 256 * y) / 2 ^ 8 = y := by omega
  have hshift := Nat.testBit_div_two_pow (x := x + 256 * y) (i := k) (n := 8)
  rw [hdiv] at hshift
  rw [hshift, Nat.add_comm 8]

/-- Byte `i` is marked. -/
def Marked (l : List (Fin 256)) (i : ℕ) : Prop :=
  (lessOnes l).testBit (8 * i + 7) = true ∧ (plusOnes l).testBit (8 * i + 7) = false

/-- The lowest byte is marked exactly when it is special. -/
theorem marked_zero (b : Fin 256) (l : List (Fin 256)) : Marked (b :: l) 0 ↔ IsSpecial b := by
  unfold Marked IsSpecial
  rw [Nat.mul_zero, Nat.zero_add, testBit_seven, lessOnes_mod, testBit_seven (plusOnes _),
    plusOnes_mod]
  simp only [Nat.testBit_eq_decide_div_mod_eq, decide_eq_true_eq, decide_eq_false_iff_not]
  omega

theorem marked_succ {b : Fin 256} {l : List (Fin 256)} (h : ¬IsSpecial b) (i : ℕ) :
    Marked (b :: l) (i + 1) ↔ Marked l i := by
  have hb : (b : ℕ) ≠ 255 := fun h255 => h (.inr h255)
  have hindex : 8 * (i + 1) + 7 = 8 + (8 * i + 7) := by omega
  unfold Marked
  rw [lessOnes_cons h, plusOnes_cons h, hindex, testBit_byte_add (by omega),
    testBit_byte_add (by omega)]

/-- Some byte is marked exactly when some byte is special. -/
theorem exists_marked_iff (l : List (Fin 256)) :
    (∃ i < l.length, Marked l i) ↔ ∃ b ∈ l, IsSpecial b := by
  induction l with
  | nil => simp
  | cons b l ih =>
    by_cases h : IsSpecial b
    · apply iff_of_true
      · exact ⟨0, Nat.succ_pos _, (marked_zero b l).mpr h⟩
      · exact ⟨b, List.mem_cons_self, h⟩
    · rw [List.exists_mem_cons_iff, or_iff_right h, ← ih]
      constructor
      · rintro ⟨i, hi, hmarked⟩
        cases i with
        | zero => exact absurd ((marked_zero b l).mp hmarked) h
        | succ i => exact ⟨i, Nat.lt_of_succ_lt_succ hi, (marked_succ h i).mp hmarked⟩
      · rintro ⟨i, hi, hmarked⟩
        exact ⟨i + 1, Nat.succ_lt_succ hi, (marked_succ h i).mpr hmarked⟩

/-- The highest bits of all bytes. -/
theorem testBit_highs (n j : ℕ) : (128 * ones n).testBit j = decide (j < 8 * n ∧ j % 8 = 7) := by
  induction n generalizing j with
  | zero => simp [ones]
  | succ n ih =>
    have hsplit : 128 * ones (n + 1) = 128 + 256 * (128 * ones n) := by
      rw [ones]
      ring
    rw [hsplit]
    by_cases hj : j < 8
    · have hlow := Nat.testBit_mod_two_pow (128 + 256 * (128 * ones n)) 8 j
      have hmod : (128 + 256 * (128 * ones n)) % 2 ^ 8 = 2 ^ 7 := by omega
      rw [hmod, Nat.testBit_two_pow, decide_eq_true hj, Bool.true_and] at hlow
      rw [← hlow]
      apply decide_eq_decide.mpr
      omega
    · obtain ⟨k, rfl⟩ := Nat.exists_eq_add_of_le (not_lt.mp hj)
      rw [testBit_byte_add (by omega), ih]
      apply decide_eq_decide.mpr
      omega

/-- The test of all bytes of a word. -/
def marks (n : ℕ) (v : BitVec (8 * n)) : BitVec (8 * n) :=
  (v - BitVec.ofNat (8 * n) (ones n)) &&& ~~~(v + BitVec.ofNat (8 * n) (ones n)) &&&
    BitVec.ofNat (8 * n) (128 * ones n)

/-- The test finds out whether some byte is special. -/
theorem marks_ne_zero_iff {n : ℕ} {l : List (Fin 256)} (hn : l.length = n) :
    marks n (BitVec.ofNat (8 * n) (value l)) ≠ 0 ↔ ∃ b ∈ l, IsSpecial b := by
  subst hn
  have hpow : 2 ^ (8 * l.length) = 256 ^ l.length := by rw [Nat.pow_mul]
  have hvalue : value l % 256 ^ l.length = value l := Nat.mod_eq_of_lt (value_lt l)
  have hones : ones l.length % 256 ^ l.length = ones l.length := Nat.mod_eq_of_lt (ones_lt _)
  have hbit : ∀ j, (marks l.length (BitVec.ofNat (8 * l.length) (value l))).getLsbD j = true ↔
      j < 8 * l.length ∧ j % 8 = 7 ∧ (lessOnes l).testBit j = true ∧
        (plusOnes l).testBit j = false := by
    intro j
    unfold marks
    rw [BitVec.getLsbD_and, BitVec.getLsbD_and, BitVec.getLsbD_not, BitVec.getLsbD_ofNat,
      testBit_highs]
    unfold BitVec.getLsbD
    rw [BitVec.toNat_sub, BitVec.toNat_add, BitVec.toNat_ofNat, BitVec.toNat_ofNat, hpow, hvalue,
      hones]
    simp only [Bool.and_eq_true, decide_eq_true_eq, Bool.not_eq_true']
    unfold lessOnes plusOnes
    tauto
  rw [← exists_marked_iff]
  constructor
  · intro hne
    obtain ⟨j, hj⟩ : ∃ j, (marks l.length (BitVec.ofNat (8 * l.length) (value l))).getLsbD j =
        true := by
      by_contra hnone
      apply hne
      apply BitVec.eq_of_getLsbD_eq
      intro j _
      show _ = (0#(8 * l.length)).getLsbD j
      rw [BitVec.getLsbD_zero]
      exact Bool.eq_false_iff.mpr fun hj => hnone ⟨j, hj⟩
    obtain ⟨hlt, hmod, hmarked⟩ := (hbit j).mp hj
    refine ⟨j / 8, by omega, ?_⟩
    have hindex : 8 * (j / 8) + 7 = j := by omega
    unfold Marked
    rw [hindex]
    exact hmarked
  · rintro ⟨i, hi, hmarked⟩ hzero
    have hset := (hbit (8 * i + 7)).mpr ⟨by omega, by omega, hmarked⟩
    have hclear : (0#(8 * l.length)).getLsbD (8 * i + 7) = false := BitVec.getLsbD_zero
    rw [hzero] at hset
    exact Bool.false_ne_true (hclear.symm.trans hset)

end WordScan
