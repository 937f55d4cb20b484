import Mathlib.Data.List.TakeWhile
import Mathlib.Data.Nat.Digits.Lemmas

/-!
# Decimal numerals in text

Reading a decimal numeral at the front of a text, and printing one with leading zeros.
Printing and reading are inverse as long as the text that follows does not start with
another digit.

## Main definitions

- `natPrefix`, `intPrefix`, the number that a text starts with, `0` if there is none
- `field`, a numeral at the front of a text and the rest of the text
- `padded`, a numeral with leading zeros up to a width
-/

namespace Numerals

/-- The text does not go on with a digit. -/
def EndsNumeral (rest : List Char) : Prop := ∀ c ∈ rest.head?, c.isDigit = false

theorem endsNumeral_nil : EndsNumeral [] := by simp [EndsNumeral]

theorem takeWhile_digits {ds rest : List Char} (hds : ∀ c ∈ ds, c.isDigit = true)
    (hrest : EndsNumeral rest) : (ds ++ rest).takeWhile Char.isDigit = ds := by
  rw [List.takeWhile_append_of_pos hds]
  cases rest with
  | nil => simp
  | cons c cs => simp [hrest c (by simp)]

theorem isDigit_of_mem_toDigits {n : Nat} {c : Char} (h : c ∈ Nat.toDigits 10 n) :
    c.isDigit = true :=
  Nat.isDigit_of_mem_toDigits (by decide) (by decide) h

/-- The number that the text starts with. -/
def natPrefix (cs : List Char) : Nat := Nat.ofDigitChars 10 (cs.takeWhile Char.isDigit) 0

/-- The number that the text starts with, after an optional sign. -/
def intPrefix : List Char → Int
  | '-' :: cs => -(natPrefix cs : Int)
  | '+' :: cs => natPrefix cs
  | cs => natPrefix cs

theorem natPrefix_toDigits (n : Nat) {rest : List Char} (hrest : EndsNumeral rest) :
    natPrefix (Nat.toDigits 10 n ++ rest) = n := by
  rw [natPrefix, takeWhile_digits (fun _ => isDigit_of_mem_toDigits) hrest,
    Nat.ofDigitChars_ten_toDigits]

/-- A digit is neither a sign nor white space. -/
theorem isDigit_ne {c d : Char} (hc : c.isDigit = true) (hd : d.isDigit = false) : c ≠ d := by
  rintro rfl
  simp [hc] at hd

theorem intPrefix_of_digit {c : Char} {cs : List Char} (hc : c.isDigit = true) :
    intPrefix (c :: cs) = natPrefix (c :: cs) := by
  have hminus : c ≠ '-' := isDigit_ne hc (by decide)
  have hplus : c ≠ '+' := isDigit_ne hc (by decide)
  unfold intPrefix
  split
  · next h => exact absurd (List.cons.inj h).1 hminus
  · next h => exact absurd (List.cons.inj h).1 hplus
  · rfl

/-- The decimal text of an integer reads back as that integer. -/
theorem intPrefix_repr (n : Int) : intPrefix (toString n).toList = n := by
  cases n with
  | ofNat m =>
    have h : (toString (Int.ofNat m)).toList = Nat.toDigits 10 m := Nat.toList_repr
    rw [h]
    cases hd : Nat.toDigits 10 m with
    | nil => exact absurd hd Nat.toDigits_ne_nil
    | cons c cs =>
      rw [intPrefix_of_digit (isDigit_of_mem_toDigits (hd ▸ List.mem_cons_self)), ← hd]
      have := natPrefix_toDigits m endsNumeral_nil
      simpa using this
  | negSucc m =>
    have h : (toString (Int.negSucc m)).toList = '-' :: Nat.toDigits 10 (m + 1) := by
      simp [toString, Int.repr, Nat.toList_repr]
    rw [h, intPrefix]
    have := natPrefix_toDigits (m + 1) endsNumeral_nil
    rw [List.append_nil] at this
    rw [this]
    rfl

/-- The decimal text of an integer starts with a digit or a minus sign. -/
theorem repr_head (n : Int) :
    ∃ c cs, (toString n).toList = c :: cs ∧ (c.isDigit = true ∨ c = '-') := by
  cases n with
  | ofNat m =>
    have h : (toString (Int.ofNat m)).toList = Nat.toDigits 10 m := Nat.toList_repr
    cases hd : Nat.toDigits 10 m with
    | nil => exact absurd hd Nat.toDigits_ne_nil
    | cons c cs =>
      exact ⟨c, cs, h.trans hd, .inl (isDigit_of_mem_toDigits (hd ▸ List.mem_cons_self))⟩
  | negSucc m =>
    exact ⟨'-', Nat.toDigits 10 (m + 1), by simp [toString, Int.repr, Nat.toList_repr], .inr rfl⟩

/-- The numeral at the front of a text, and what follows it. -/
def field (cs : List Char) : Option (Nat × List Char) :=
  match cs.takeWhile Char.isDigit with
  | [] => none
  | _ :: _ => some (natPrefix cs, cs.dropWhile Char.isDigit)

/-- A numeral with leading zeros up to `width` digits. -/
def padded (width n : Nat) : List Char := (Nat.toDigits 10 n).leftpad width '0'

end Numerals
