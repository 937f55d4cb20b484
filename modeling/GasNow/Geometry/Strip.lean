import Mathlib.Algebra.Order.Interval.Set.Group
import Mathlib.Algebra.Order.Round
import Mathlib.Data.Int.ConditionallyCompleteOrder
import Mathlib.Order.CompletePartialOrder
import Mathlib.Tactic.FieldSimp
import Mathlib.Tactic.Linarith
import Mathlib.Tactic.Ring

/-!
# Strips of cells of equal width

A strip is cut into cells of one width that are numbered from its start. Positions on the strip
are turned into cell numbers by rounding, and cell numbers into positions by multiplying; the
two are inverse up to half a cell.

## Main definitions

- `cell`, the `i`-th cell
- `truncate`, a number without its fraction, as conversions to integers take it
- `nearest`, the cell whose start is nearest to a position
-/

namespace Strip

variable {K : Type*} [Field K] [LinearOrder K]

/-- The `i`-th cell. -/
def cell (w : K) (i : ℤ) : Set K := Set.Ico (i * w) ((i + 1) * w)

section Cells

variable [IsStrictOrderedRing K]

theorem disjoint_cells (w : K) {i j : ℤ} (hij : i ≠ j) : Disjoint (cell w i) (cell w j) := by
  have hall := Set.pairwise_disjoint_Ico_zsmul (α := K) w
  simpa [Function.onFun, cell, zsmul_eq_mul] using hall hij

/-- The first `n` cells lie between the start of the strip and the start of cell `n`. -/
theorem cell_subset {w : K} (hw : 0 ≤ w) {i n : ℤ} (hi : 0 ≤ i) (hin : i < n) :
    cell w i ⊆ Set.Ico 0 (n * w) := by
  intro x hx
  obtain ⟨hlo, hhi⟩ := hx
  have hstart : 0 ≤ (i : K) * w := mul_nonneg (by exact_mod_cast hi) hw
  have hend : ((i : K) + 1) * w ≤ n * w :=
    mul_le_mul_of_nonneg_right (by exact_mod_cast hin) hw
  exact ⟨hstart.trans hlo, hhi.trans_le hend⟩

end Cells

section Rounding

variable [FloorRing K]

/-- The number without its fraction. -/
def truncate (x : K) : ℤ := if 0 ≤ x then ⌊x⌋ else ⌈x⌉

/-- The cell whose start is nearest to `x`, the right one of two that are equally near. -/
def nearest (w x : K) : ℤ := round (x / w)

theorem truncate_of_nonneg {x : K} (hx : 0 ≤ x) : truncate x = ⌊x⌋ := if_pos hx

variable [IsStrictOrderedRing K]

/-- Half a cell before truncation rounds to the nearest cell. -/
theorem truncate_eq_nearest {w x : K} (hw : 0 < w) (hx : 0 ≤ x) :
    truncate ((x + w / 2) / w) = nearest w x := by
  have hsum : (x + w / 2) / w = x / w + 1 / 2 := by
    field_simp
  have hnonneg : 0 ≤ x / w + 1 / 2 := by
    have hdiv : 0 ≤ x / w := div_nonneg hx hw.le
    linarith
  rw [hsum, truncate_of_nonneg hnonneg, nearest, round_eq]

theorem nearest_start {w : K} (hw : 0 < w) (i : ℤ) : nearest w (i * w) = i := by
  have hcancel : (i : K) * w / w = i := mul_div_cancel_right₀ _ hw.ne'
  rw [nearest, hcancel, round_intCast]

/-- The nearest cell starts within half a cell. -/
theorem abs_sub_nearest_le {w : K} (hw : 0 < w) (x : K) : |x - nearest w x * w| ≤ w / 2 := by
  have hround : |x / w - nearest w x| ≤ 1 / 2 := abs_sub_round (x / w)
  have hscale : x - nearest w x * w = (x / w - nearest w x) * w := by
    rw [sub_mul, div_mul_cancel₀ _ hw.ne']
  calc |x - nearest w x * w| = |x / w - nearest w x| * w := by
        rw [hscale, abs_mul, abs_of_pos hw]
    _ ≤ 1 / 2 * w := mul_le_mul_of_nonneg_right hround hw.le
    _ = w / 2 := by ring

theorem nearest_mono {w x y : K} (hw : 0 < w) (hxy : x ≤ y) : nearest w x ≤ nearest w y := by
  rw [nearest, nearest, round_eq, round_eq]
  have hdiv : x / w ≤ y / w := div_le_div_of_nonneg_right hxy hw.le
  exact Int.floor_le_floor (by linarith)

/-- A position between two starts is nearest to one of the cells from the first to the second. -/
theorem nearest_mem_Icc {w x : K} (hw : 0 < w) {i j : ℤ} (hi : i * w ≤ x) (hj : x ≤ j * w) :
    nearest w x ∈ Set.Icc i j := by
  constructor
  · calc i = nearest w (i * w) := (nearest_start hw i).symm
      _ ≤ nearest w x := nearest_mono hw hi
  · calc nearest w x ≤ nearest w (j * w) := nearest_mono hw hj
      _ = j := nearest_start hw j

end Rounding

end Strip
