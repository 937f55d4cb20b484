import GasNow.Geometry.Strip
import Mathlib.Algebra.BigOperators.Group.Finset.Basic
import Mathlib.Algebra.Order.BigOperators.Group.Finset
import Mathlib.Order.Interval.Set.Disjoint

/-!
# Items in columns

Items of different heights are dealt to `c` columns by turns, item `i` to column `i % c`, where
it lies below the earlier items of its column.

## Main definitions

- `fill`, how far a column is filled
- `box`, the points that an item covers
-/

namespace Columns

section Fill

variable {K : Type*} [AddCommMonoid K]

/-- How far the first `n` items fill column `k`. -/
def fill (c : ℕ) (height : ℕ → K) (n k : ℕ) : K :=
  ∑ i ∈ (Finset.range n).filter (· % c = k), height i

variable {c : ℕ} {height : ℕ → K}

@[simp] theorem fill_zero (k : ℕ) : fill c height 0 k = 0 := by simp [fill]

theorem fill_succ (n k : ℕ) :
    fill c height (n + 1) k = fill c height n k + if n % c = k then height n else 0 := by
  unfold fill
  rw [Finset.range_add_one, Finset.filter_insert]
  by_cases h : n % c = k
  · rw [if_pos h, if_pos h, Finset.sum_insert (by simp), add_comm]
  · rw [if_neg h, if_neg h, add_zero]

/-- The item fills its own column. -/
theorem fill_succ_self (n : ℕ) :
    fill c height (n + 1) (n % c) = fill c height n (n % c) + height n := by
  rw [fill_succ, if_pos rfl]

/-- The other columns stay as they are. -/
theorem fill_succ_of_ne {n k : ℕ} (h : n % c ≠ k) :
    fill c height (n + 1) k = fill c height n k := by
  rw [fill_succ, if_neg h, add_zero]

/-- A column that is filled at all is filled up to the end of its last item. -/
theorem exists_last {n k : ℕ} (h : fill c height n k ≠ 0) :
    ∃ i < n, i % c = k ∧ fill c height i k + height i = fill c height n k := by
  induction n with
  | zero => exact absurd (fill_zero k) h
  | succ n ih =>
    by_cases hn : n % c = k
    · subst hn
      exact ⟨n, Nat.lt_succ_self n, rfl, (fill_succ_self n).symm⟩
    · rw [fill_succ_of_ne hn] at h ⊢
      obtain ⟨i, hi, hlast⟩ := ih h
      exact ⟨i, Nat.lt_succ_of_lt hi, hlast⟩

variable [PartialOrder K] [IsOrderedAddMonoid K]

theorem fill_nonneg (hheight : ∀ i, 0 ≤ height i) (n k : ℕ) : 0 ≤ fill c height n k := by
  apply Finset.sum_nonneg
  intro i _
  exact hheight i

theorem fill_mono (hheight : ∀ i, 0 ≤ height i) {n m : ℕ} (hnm : n ≤ m) (k : ℕ) :
    fill c height n k ≤ fill c height m k := by
  apply Finset.sum_le_sum_of_subset_of_nonneg
  · apply Finset.filter_subset_filter
    exact Finset.range_mono hnm
  · intro i _ _
    exact hheight i

/-- A later item of the same column starts below an earlier one. -/
theorem fill_add_le (hheight : ∀ i, 0 ≤ height i) {i j : ℕ} (hij : i < j) :
    fill c height i (i % c) + height i ≤ fill c height j (i % c) := by
  rw [← fill_succ_self]
  exact fill_mono hheight hij _

end Fill

section Boxes

variable {K : Type*} [Field K] [LinearOrder K] [IsStrictOrderedRing K]

/-- The points that item `i` covers in columns of width `w`. -/
def box (c : ℕ) (w : K) (height : ℕ → K) (i : ℕ) : Set (K × K) :=
  Strip.cell w (i % c : ℕ) ×ˢ
    Set.Ico (fill c height i (i % c)) (fill c height i (i % c) + height i)

variable {c : ℕ} {w : K} {height : ℕ → K}

/-- No two items overlap. -/
theorem disjoint_box (hheight : ∀ i, 0 ≤ height i) {i j : ℕ} (hij : i ≠ j) :
    Disjoint (box c w height i) (box c w height j) := by
  wlog hlt : i < j generalizing i j
  · exact (this hij.symm (by omega)).symm
  apply Set.disjoint_prod.mpr
  by_cases hcolumn : i % c = j % c
  · right
    rw [Set.Ico_disjoint_Ico]
    rw [← hcolumn]
    exact (min_le_left _ _).trans ((fill_add_le hheight hlt).trans (le_max_right _ _))
  · left
    apply Strip.disjoint_cells
    exact_mod_cast hcolumn

/-- The first `n` items lie in the columns, above the fill of their own. -/
theorem box_subset (hc : 0 < c) (hw : 0 ≤ w) (hheight : ∀ i, 0 ≤ height i) {i n : ℕ} (hin : i < n) :
    box c w height i ⊆ Set.Ico 0 (c * w) ×ˢ Set.Ico 0 (fill c height n (i % c)) := by
  have hcolumn : Strip.cell w (i % c : ℕ) ⊆ Set.Ico 0 (c * w) := by
    have hmod : ((i % c : ℕ) : ℤ) < (c : ℕ) := by exact_mod_cast Nat.mod_lt i hc
    exact_mod_cast Strip.cell_subset hw (Int.natCast_nonneg _) hmod
  apply Set.prod_mono hcolumn
  exact Set.Ico_subset_Ico (fill_nonneg hheight i _) (fill_add_le hheight hin)

/-- The tallest column stays the tallest one or is that of the item. -/
theorem isGreatest_fill_succ (hc : 0 < c) {n : ℕ} (hn : 0 ≤ height n) {H : K}
    (hH : IsGreatest (fill c height n '' Set.Iio c) H) :
    IsGreatest (fill c height (n + 1) '' Set.Iio c)
      (max H (fill c height n (n % c) + height n)) := by
  obtain ⟨⟨k, hk, rfl⟩, hmax⟩ := hH
  constructor
  · by_cases hle : fill c height n k ≤ fill c height n (n % c) + height n
    · rw [max_eq_right hle, ← fill_succ_self]
      exact Set.mem_image_of_mem _ (Nat.mod_lt n hc)
    · have hne : n % c ≠ k := by
        rintro rfl
        exact hle (le_add_of_nonneg_right hn)
      rw [max_eq_left (le_of_not_ge hle), ← fill_succ_of_ne hne]
      exact Set.mem_image_of_mem _ hk
  · rintro _ ⟨j, hj, rfl⟩
    by_cases hjn : n % c = j
    · subst hjn
      rw [fill_succ_self]
      exact le_max_right _ _
    · rw [fill_succ_of_ne hjn]
      exact (hmax (Set.mem_image_of_mem _ hj)).trans (le_max_left _ _)

end Boxes

end Columns
