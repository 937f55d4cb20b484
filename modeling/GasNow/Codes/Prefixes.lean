import GasNow.Codes.Ordered

/-!
# The strings with a given prefix

In the order of strings, those that start with the same prefix are next to each other: the prefix
is the least of them, and what is between two of them is one of them.
-/

namespace Codes

section LinearOrder

variable {β : Type*} [LinearOrder β] {p k k' : List β}

theorem prefix_le (h : p <+: k) : p ≤ k := by
  obtain ⟨s, rfl⟩ := h
  rw [← not_lt]
  intro hlt
  have hnil : p ++ s < p ++ [] := by
    rw [List.append_nil]
    exact hlt
  rw [append_left_lt_iff] at hnil
  exact List.not_lt_nil s hnil

/-- Strings between two strings with a prefix have the prefix. -/
theorem prefix_of_le_of_le (hpk : p ≤ k) (hkk' : k ≤ k') (h : p <+: k') : p <+: k := by
  induction p generalizing k k' with
  | nil => exact List.nil_prefix
  | cons x p ih =>
    obtain ⟨s, rfl⟩ := h
    rw [← not_lt] at hpk hkk'
    cases k with
    | nil => exact absurd (List.nil_lt_cons x p) hpk
    | cons y k =>
      rw [List.cons_lt_cons_iff, not_or] at hpk
      rw [List.cons_append, List.cons_lt_cons_iff, not_or] at hkk'
      obtain rfl : x = y := le_antisymm (not_lt.mp hpk.1) (not_lt.mp hkk'.1)
      have hp : p ≤ k := not_lt.mp fun hlt => hpk.2 ⟨rfl, hlt⟩
      have hk : k ≤ p ++ s := not_lt.mp fun hlt => hkk'.2 ⟨rfl, hlt⟩
      rw [List.cons_prefix_cons]
      exact ⟨rfl, ih hp hk (List.prefix_append p s)⟩

end LinearOrder

end Codes
