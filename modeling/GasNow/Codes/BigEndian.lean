import GasNow.Codes.Ordered
import Mathlib.Data.List.Induction
import Mathlib.Data.Nat.Bitwise
import Mathlib.Order.Fin.Basic
import Mathlib.Tactic.Positivity
import Mathlib.Tactic.Ring

/-!
# Numbers as bytes, the highest first

Byte strings of one length are ordered as the numbers that they stand for.

## Main definitions

- `byte`, the lowest byte of a number
- `bytes`, the lowest `n` bytes of a number, the highest first
- `number`, the number that bytes stand for
-/

namespace BigEndian

open Codes

instance neZero_256 : NeZero 256 := ⟨by decide⟩

def byte (x : ℕ) : Fin 256 := Fin.ofNat 256 x

def bytes : ℕ → ℕ → List (Fin 256)
  | 0, _ => []
  | n + 1, x => byte (x / 256 ^ n) :: bytes n x

def number (l : List (Fin 256)) : ℕ := l.foldl (fun x b => x * 256 + b) 0

@[simp] theorem val_byte (x : ℕ) : (byte x : ℕ) = x % 256 := rfl

@[simp] theorem length_bytes (n x : ℕ) : (bytes n x).length = n := by
  induction n with
  | zero => rfl
  | succ n ih => rw [bytes, List.length_cons, ih]

theorem byte_congr {x y : ℕ} (h : x % 256 = y % 256) : byte x = byte y := Fin.ext h

/-- The bytes that are written depend on nothing above them. -/
theorem bytes_congr {n x y : ℕ} (h : x % 256 ^ n = y % 256 ^ n) : bytes n x = bytes n y := by
  induction n with
  | zero => rfl
  | succ n ih =>
    rw [pow_succ] at h
    have hhigh : x / 256 ^ n % 256 = y / 256 ^ n % 256 := by
      rw [← Nat.mod_mul_right_div_self, ← Nat.mod_mul_right_div_self, h]
    have hlow : x % 256 ^ n = y % 256 ^ n := by
      rw [← Nat.mod_mul_right_mod x (256 ^ n) 256, ← Nat.mod_mul_right_mod y (256 ^ n) 256, h]
    rw [bytes, bytes, ih hlow, byte_congr hhigh]

/-- The higher bytes, then the lower ones. -/
theorem bytes_add (n m x : ℕ) : bytes (n + m) x = bytes n (x / 256 ^ m) ++ bytes m x := by
  induction n with
  | zero => rw [Nat.zero_add]; rfl
  | succ n ih =>
    have hindex : n + 1 + m = n + m + 1 := by omega
    rw [hindex, bytes, bytes, ih, Nat.div_div_eq_div_mul, ← pow_add, Nat.add_comm m n]
    rfl

theorem number_append (l m : List (Fin 256)) :
    number (l ++ m) = number l * 256 ^ m.length + number m := by
  induction m using List.reverseRecOn with
  | nil => simp [number]
  | append_singleton m b ih =>
    have hl : number (l ++ (m ++ [b])) = number (l ++ m) * 256 + b := by
      simp [number]
    have hm : number (m ++ [b]) = number m * 256 + b := by
      simp [number]
    rw [hl, hm, ih, List.length_append, List.length_singleton, pow_succ]
    ring

theorem number_bytes (n x : ℕ) : number (bytes n x) = x % 256 ^ n := by
  induction n with
  | zero => simp [bytes, number, Nat.mod_one]
  | succ n ih =>
    have hcons : bytes (n + 1) x = [byte (x / 256 ^ n)] ++ bytes n x := rfl
    rw [hcons, number_append, length_bytes, ih]
    have hbyte : number [byte (x / 256 ^ n)] = x / 256 ^ n % 256 := by
      show 0 * 256 + _ = _
      rw [Nat.zero_mul, Nat.zero_add, val_byte]
    rw [hbyte, pow_succ, Nat.mod_mul]
    ring

theorem number_cons (b : Fin 256) (l : List (Fin 256)) :
    number (b :: l) = b * 256 ^ l.length + number l := by
  have happend := number_append [b] l
  rw [List.singleton_append] at happend
  rw [happend]
  simp [number]

theorem number_lt (l : List (Fin 256)) : number l < 256 ^ l.length := by
  induction l with
  | nil => simp [number]
  | cons b l ih =>
    have hb : (b : ℕ) * 256 ^ l.length ≤ 255 * 256 ^ l.length :=
      Nat.mul_le_mul_right _ (Nat.le_of_lt_succ b.isLt)
    rw [number_cons, List.length_cons, pow_succ]
    omega

/-- The bytes of the number that bytes stand for. -/
theorem bytes_number (l : List (Fin 256)) : bytes l.length (number l) = l := by
  induction l with
  | nil => rfl
  | cons b l ih =>
    have hlt := number_lt l
    have hhigh : number (b :: l) / 256 ^ l.length = b := by
      rw [number_cons, Nat.mul_comm, Nat.mul_add_div (by positivity), Nat.div_eq_of_lt hlt,
        Nat.add_zero]
    have hlow : bytes l.length (number (b :: l)) = bytes l.length (number l) := by
      apply bytes_congr
      rw [number_cons, Nat.mul_comm, Nat.mul_add_mod]
    rw [List.length_cons, bytes, hlow, ih, hhigh]
    congr 1
    exact Fin.ext (Nat.mod_eq_of_lt b.isLt)

theorem byte_xor (x y : ℕ) : byte (x ^^^ y) = byte x ^^^ byte y := by
  apply Fin.ext
  have hmod := Nat.xor_mod_two_pow (a := x) (b := y) (n := 8)
  have hlt : x % 256 ^^^ y % 256 < 256 := Nat.xor_lt_two_pow (n := 8) (Nat.mod_lt _ (by decide))
    (Nat.mod_lt _ (by decide))
  show (x ^^^ y) % 256 = (x % 256 ^^^ y % 256) % 256
  rw [Nat.mod_eq_of_lt hlt]
  exact hmod

/-- `xor` works on each byte for itself. -/
theorem bytes_xor (n x y : ℕ) :
    bytes n (x ^^^ y) = List.zipWith (· ^^^ ·) (bytes n x) (bytes n y) := by
  have hpow : ∀ n, 256 ^ n = 2 ^ (8 * n) := fun n => by rw [Nat.pow_mul]
  induction n with
  | zero => rfl
  | succ n ih =>
    rw [bytes, bytes, bytes, List.zipWith_cons_cons, ih, hpow, Nat.xor_div_two_pow, byte_xor]

/-- `xor` with a number without lower bits. -/
theorem xor_high {k r : ℕ} (hr : r < 2 ^ k) (a b : ℕ) :
    (2 ^ k * a + r) ^^^ (2 ^ k * b) = 2 ^ k * (a ^^^ b) + r := by
  have hdiv : ((2 ^ k * a + r) ^^^ (2 ^ k * b)) / 2 ^ k = a ^^^ b := by
    rw [Nat.xor_div_two_pow, Nat.mul_add_div (Nat.two_pow_pos k), Nat.div_eq_of_lt hr, Nat.add_zero,
      Nat.mul_div_cancel_left _ (Nat.two_pow_pos k)]
  have hmod : ((2 ^ k * a + r) ^^^ (2 ^ k * b)) % 2 ^ k = r := by
    rw [Nat.xor_mod_two_pow, Nat.mul_add_mod, Nat.mod_eq_of_lt hr, Nat.mul_mod_right, Nat.xor_zero]
  calc (2 ^ k * a + r) ^^^ (2 ^ k * b)
      = 2 ^ k * (((2 ^ k * a + r) ^^^ (2 ^ k * b)) / 2 ^ k) +
          ((2 ^ k * a + r) ^^^ (2 ^ k * b)) % 2 ^ k := (Nat.div_add_mod _ _).symm
    _ = 2 ^ k * (a ^^^ b) + r := by rw [hdiv, hmod]

/-- `xor` with ones takes a number from them. -/
theorem ones_xor {k b : ℕ} (hb : b < 2 ^ k) : (2 ^ k - 1) ^^^ b = 2 ^ k - 1 - b := by
  have hsub : 2 ^ k - 1 - b = 2 ^ k - (b + 1) := by omega
  rw [hsub]
  apply Nat.eq_of_testBit_eq
  intro i
  rw [Nat.testBit_xor, Nat.testBit_two_pow_sub_one, Nat.testBit_two_pow_sub_succ hb]
  by_cases hi : i < k
  · simp [hi]
  · have hbit : b.testBit i = false :=
      Nat.testBit_lt_two_pow (hb.trans_le (Nat.pow_le_pow_right (by decide) (not_lt.mp hi)))
    simp [hi, hbit]

/-- Byte strings of one length are ordered as their numbers. -/
theorem precedes_bytes {n x y : ℕ} (h : x % 256 ^ n < y % 256 ^ n) :
    Precedes (bytes n x) (bytes n y) := by
  induction n with
  | zero =>
    rw [pow_zero, Nat.mod_one, Nat.mod_one] at h
    exact absurd h (lt_irrefl 0)
  | succ n ih =>
    rw [pow_succ, Nat.mod_mul, Nat.mod_mul] at h
    have hx : x % 256 ^ n < 256 ^ n := Nat.mod_lt _ (by positivity)
    have hy : y % 256 ^ n < 256 ^ n := Nat.mod_lt _ (by positivity)
    rcases lt_trichotomy (x / 256 ^ n % 256) (y / 256 ^ n % 256) with hlt | heq | hgt
    · have hbyte : byte (x / 256 ^ n) < byte (y / 256 ^ n) := hlt
      exact precedes_cons hbyte _ _
    · rw [heq] at h
      have hlow := ih (by omega)
      rw [bytes, bytes, byte_congr heq]
      exact hlow.prepend [_]
    · have hmul : 256 ^ n * (y / 256 ^ n % 256 + 1) ≤ 256 ^ n * (x / 256 ^ n % 256) :=
        Nat.mul_le_mul_left _ hgt
      rw [Nat.mul_add, Nat.mul_one] at hmul
      omega

/-- A shorter string before a longer one. -/
theorem precedes_bytes_add {n m x y : ℕ} (h : x % 256 ^ n < y / 256 ^ m % 256 ^ n) :
    Precedes (bytes n x) (bytes (n + m) y) := by
  have happend := (precedes_bytes h).append [] (bytes m y)
  rw [List.append_nil] at happend
  rw [bytes_add]
  exact happend

/-- A longer string before a shorter one. -/
theorem precedes_add_bytes {n m x y : ℕ} (h : x / 256 ^ m % 256 ^ n < y % 256 ^ n) :
    Precedes (bytes (n + m) x) (bytes n y) := by
  have happend := (precedes_bytes h).append (bytes m x) []
  rw [List.append_nil] at happend
  rw [bytes_add]
  exact happend

end BigEndian
