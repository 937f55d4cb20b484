import Mathlib.Data.List.Basic

/-!
# Character sets

Sets of Unicode scalars and the parts of a text that lie between members of one.

## Main definitions

- `decimalDigits`, the decimal digits of all scripts (Unicode 13, general category Nd)
- `components`, the parts of a text between members of a set

A text that is joined with a separator outside a set keeps its members of the set.
-/

namespace CharacterSet

/-- The digits zero. The nine digits after each of them follow it. -/
def zeros : List Nat :=
  [0x0030, 0x0660, 0x06F0, 0x07C0, 0x0966, 0x09E6, 0x0A66, 0x0AE6, 0x0B66, 0x0BE6, 0x0C66, 0x0CE6,
    0x0D66, 0x0DE6, 0x0E50, 0x0ED0, 0x0F20, 0x1040, 0x1090, 0x17E0, 0x1810, 0x1946, 0x19D0, 0x1A80,
    0x1A90, 0x1B50, 0x1BB0, 0x1C40, 0x1C50, 0xA620, 0xA8D0, 0xA900, 0xA9D0, 0xA9F0, 0xAA50, 0xABF0,
    0xFF10, 0x104A0, 0x10D30, 0x11066, 0x110F0, 0x11136, 0x111D0, 0x112F0, 0x11450, 0x114D0,
    0x11650, 0x116C0, 0x11730, 0x118E0, 0x11950, 0x11C50, 0x11D50, 0x11DA0, 0x16A60, 0x16B50,
    0x1D7CE, 0x1D7D8, 0x1D7E2, 0x1D7EC, 0x1D7F6, 0x1E140, 0x1E2F0, 0x1E950, 0x1FBF0]

def decimalDigits (c : Char) : Bool := zeros.any fun z => z ≤ c.toNat ∧ c.toNat < z + 10

/-- `components(separatedBy:)` -/
def components (separators : Char → Bool) (text : List Char) : List (List Char) :=
  text.splitOnP separators

/-- The joined components are the text without its separators. -/
theorem flatten_components (separators : Char → Bool) (text : List Char) :
    (components separators text).flatten = text.filter fun c => !separators c := by
  unfold components
  induction text with
  | nil => rfl
  | cons c cs ih =>
    rw [List.splitOnP_cons_eq_if_modifyHead]
    by_cases hc : separators c = true
    · simp [hc, ih]
    · have hne : cs.splitOnP separators ≠ [] := List.splitOnP_ne_nil separators cs
      obtain ⟨part, parts, hparts⟩ := List.exists_cons_of_ne_nil hne
      rw [hparts] at ih ⊢
      simpa [hc] using congrArg (List.cons c) ih

/-- The members of a set in a text of members that has been joined with another character. -/
theorem filter_intercalate {p : Char → Bool} {sep : Char} (hsep : p sep = false)
    {parts : List (List Char)} (hparts : ∀ part ∈ parts, ∀ c ∈ part, p c = true) :
    ([sep].intercalate parts).filter p = parts.flatten := by
  induction parts with
  | nil => rfl
  | cons part parts ih =>
    obtain ⟨hpart, hrest⟩ := List.forall_mem_cons.mp hparts
    have hself : part.filter p = part := List.filter_eq_self.mpr hpart
    cases parts with
    | nil => simpa using hself
    | cons next parts =>
      rw [List.intercalate_cons_cons, List.filter_append, List.filter_append, ih hrest, hself,
        List.filter_cons_of_neg (by simp [hsep])]
      simp

end CharacterSet
