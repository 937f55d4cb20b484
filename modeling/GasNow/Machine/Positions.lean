import Mathlib.Data.List.Perm.Basic
import Mathlib.Data.Multiset.ZeroCons

/-!
# Removing an element by its position

An outstanding call, or a row of a table, is named by its position. Removing a position
removes one occurrence of the element there and keeps the order of the rest.
-/

namespace Machine

variable {α : Type*} {l : List α}

theorem perm_cons_eraseIdx {n : Nat} {x : α} (h : l[n]? = some x) :
    l.Perm (x :: l.eraseIdx n) := by
  obtain ⟨hn, rfl⟩ := List.getElem?_eq_some_iff.mp h
  exact (List.getElem_cons_eraseIdx_perm hn).symm

theorem mem_eraseIdx_of_ne {n : Nat} {x y : α} (h : l[n]? = some x) (hy : y ∈ l) (hne : y ≠ x) :
    y ∈ l.eraseIdx n :=
  (List.mem_cons.mp ((perm_cons_eraseIdx h).mem_iff.mp hy)).resolve_left hne

/-- Two removals with the same result remove equal elements. -/
theorem eraseIdx_cancel {n m : Nat} {x y : α} (hn : l[n]? = some x) (hm : l[m]? = some y)
    (h : l.eraseIdx n = l.eraseIdx m) : x = y := by
  have hperm : (x :: l.eraseIdx n).Perm (y :: l.eraseIdx n) :=
    (perm_cons_eraseIdx hn).symm.trans (h ▸ perm_cons_eraseIdx hm)
  have hcons : x ::ₘ (l.eraseIdx n : Multiset α) = y ::ₘ l.eraseIdx n :=
    Multiset.coe_eq_coe.mpr hperm
  exact (Multiset.cons_inj_left _).mp hcons

theorem length_eraseIdx_lt {n : Nat} {x : α} (h : l[n]? = some x) :
    (l.eraseIdx n).length < l.length := by
  have := (perm_cons_eraseIdx h).length_eq
  simp only [List.length_cons] at this
  omega

end Machine
