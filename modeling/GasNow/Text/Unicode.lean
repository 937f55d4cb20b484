import Mathlib.Algebra.BigOperators.Group.List.Basic
import Mathlib.Algebra.GroupWithZero.Nat

/-!
# Encoded text

A text is a list of scalars, and an offset counts the bytes of its UTF-8 encoding. An offset
that falls inside the encoding of a scalar is rounded down to the scalar's start.

## Main definitions

- `Utf8.size`, the length of the encoding
- `Utf8.upTo`, the part of a text before an offset
- `Unicode`, the case mapping of scalars and the segmentation of texts into characters
-/

namespace Utf8

/-- The length of the encoding. -/
def size (text : List Char) : Nat := (text.map Char.utf8Size).sum

/-- The scalars that are encoded before the offset. -/
def upTo : Nat → List Char → List Char
  | _, [] => []
  | offset, c :: cs => if c.utf8Size ≤ offset then c :: upTo (offset - c.utf8Size) cs else []

@[simp] theorem size_nil : size [] = 0 := rfl

@[simp] theorem size_cons (c : Char) (cs : List Char) : size (c :: cs) = c.utf8Size + size cs := by
  simp [size]

@[simp] theorem size_append (xs ys : List Char) : size (xs ++ ys) = size xs + size ys := by
  simp [size]

theorem upTo_eq_nil_iff {offset : Nat} {text : List Char} :
    upTo offset text = [] ↔ ∀ c ∈ text.head?, offset < c.utf8Size := by
  cases text with
  | nil => simp [upTo]
  | cons c cs => simp [upTo]

/-- The part before an offset is a given prefix exactly when the prefix ends at the offset, or
before it and the next scalar after it. -/
theorem upTo_append_eq_iff {offset : Nat} {text rest : List Char} :
    upTo offset (text ++ rest) = text ↔
      size text ≤ offset ∧ ∀ c ∈ rest.head?, offset < size text + c.utf8Size := by
  induction text generalizing offset with
  | nil => simp [upTo_eq_nil_iff]
  | cons c cs ih =>
    rw [List.cons_append, upTo]
    by_cases hc : c.utf8Size ≤ offset
    · rw [if_pos hc, List.cons_inj_right, ih, size_cons]
      constructor
      · rintro ⟨hle, hlt⟩
        refine ⟨by omega, fun d hd => ?_⟩
        have hd := hlt d hd
        omega
      · rintro ⟨hle, hlt⟩
        refine ⟨by omega, fun d hd => ?_⟩
        have hd := hlt d hd
        omega
    · rw [if_neg hc, size_cons]
      refine iff_of_false nofun fun h => hc ?_
      omega

end Utf8

/-- What a version of Unicode says of scalars and texts. -/
structure Unicode where
  /-- The full uppercase mapping of a scalar, without regard to language or context. -/
  uppercaseMapping : Char → List Char
  /-- The number of scalars of a text's first character, an extended grapheme cluster. -/
  firstCharacter : List Char → Nat
  firstCharacter_pos : ∀ text, text ≠ [] → 0 < firstCharacter text
  firstCharacter_le : ∀ text, firstCharacter text ≤ text.length

namespace Unicode

variable (u : Unicode)

/-- `uppercased()` -/
def uppercased (text : List Char) : List Char := text.flatMap u.uppercaseMapping

/-- The first character. -/
def first (text : List Char) : List Char := text.take (u.firstCharacter text)

/-- `dropFirst()` -/
def dropFirst (text : List Char) : List Char := text.drop (u.firstCharacter text)

theorem first_append_dropFirst (text : List Char) : u.first text ++ u.dropFirst text = text :=
  List.take_append_drop _ _

/-- The uppercase form is that of the first character followed by that of the rest. -/
theorem uppercased_eq (text : List Char) :
    u.uppercased text = u.uppercased (u.first text) ++ u.uppercased (u.dropFirst text) := by
  conv_lhs => rw [← u.first_append_dropFirst text]
  simp only [uppercased, List.flatMap_append]

end Unicode
