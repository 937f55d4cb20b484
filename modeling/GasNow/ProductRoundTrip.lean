import GasNow.ProductDetailsVC
import GasNow.CartVC
import GasNow.WishlistVC

/-!
# The format of cart and wishlist documents

The product screen keeps its quantity as the text of a label and writes its price as text;
the cart and the wishlist read both back. Whatever is written by one screen is read with the
same values by the others.
-/

namespace GasNow

/-- The two quantity buttons of the product screen. -/
inductive QuantityTap where
  | add
  | remove
  deriving DecidableEq

namespace QuantityTap

def count (q : Int) : QuantityTap → Int
  | add => q + 1
  | remove => max 1 (q - 1)

/-- The quantity after taps that follow `setUp`. -/
def quantity (taps : List QuantityTap) : Int := taps.foldl count 1

/-- No tap takes the quantity `q` beyond 64 bits. -/
def Fits (q : Int) (taps : List QuantityTap) : Prop :=
  ∀ pre, pre <+: taps → pre.foldl count q ≤ Int64.maxValue.toInt

instance (q : Int) (taps : List QuantityTap) : Decidable (Fits q taps) :=
  decidable_of_iff (∀ pre ∈ taps.inits, pre.foldl count q ≤ Int64.maxValue.toInt) (by simp [Fits])

theorem Fits.cons {q : Int} {tap : QuantityTap} {taps : List QuantityTap}
    (h : Fits q (tap :: taps)) : count q tap ≤ Int64.maxValue.toInt ∧ Fits (count q tap) taps :=
  ⟨h [tap] (by simp), fun pre hpre => h (tap :: pre) (List.cons_prefix_cons.mpr ⟨rfl, hpre⟩)⟩

theorem one_le_count {q : Int} (hq : 1 ≤ q) (tap : QuantityTap) : 1 ≤ count q tap := by
  cases tap
  · exact hq.trans (by simp [count])
  · exact le_max_left _ _

end QuantityTap

namespace ProductDetailsVC

open QuantityTap

def tap (vc : ProductDetailsVC) : QuantityTap → Except Trap ProductDetailsVC
  | .add => vc.addProduct
  | .remove => vc.removeProduct

/-- The controller with the quantity label set to the decimal text of `q`. -/
def withQuantity (vc : ProductDetailsVC) (q : Int64) : ProductDetailsVC :=
  { vc with lblProductQuantity := some (GasNow.description q) }

/-- The quantity label holds the decimal text of `q`. -/
def Shows (vc : ProductDetailsVC) (q : Int64) : Prop :=
  vc.lblProductQuantity = some (GasNow.description q)

theorem Shows.qty {vc : ProductDetailsVC} {q : Int64} (h : vc.Shows q) : vc.qty = .ok q := by
  rw [Shows] at h
  simp [ProductDetailsVC.qty, h, unwrap, bind, Except.bind, pure, Except.pure]

theorem shows_withQuantity (vc : ProductDetailsVC) (q : Int64) : (vc.withQuantity q).Shows q := rfl

/-- The label already holds the text that it would be set to. -/
theorem Shows.withQuantity_eq {vc : ProductDetailsVC} {q : Int64} (h : vc.Shows q) :
    vc.withQuantity q = vc := by
  rw [withQuantity, ← (h : vc.lblProductQuantity = _)]

theorem Shows.docData {vc : ProductDetailsVC} {q : Int64} (h : vc.Shows q) (name price : String)
    (hname : vc.productName = some name) (hprice : vc.productPrice = some price) (user : User) :
    vc.docData (some user) =
      .ok (entryData q vc.productItemInfo.image name price (user.email.getD "")) := by
  simp [ProductDetailsVC.docData, h.qty, hname, hprice, unwrap, bind, Except.bind, pure,
    Except.pure]

theorem Shows.buyNowAction {vc : ProductDetailsVC} {q : Int64} (h : vc.Shows q) :
    ∃ vc', vc.buyNowAction = .ok (vc', [.pushOrderDetails
      [{ vc.productItemInfo with product_quantity := q }]]) := by
  simp [ProductDetailsVC.buyNowAction, h.qty, bind, Except.bind, pure, Except.pure]

theorem checked_eq_ok {n : Int} (h0 : 1 ≤ n) (h1 : n ≤ Int64.maxValue.toInt) :
    ∃ q, checked n = .ok q ∧ q.toInt = n := by
  have hmin : Int64.minValue.toInt ≤ 1 := by decide
  have h : Int64.minValue.toInt ≤ n ∧ n ≤ Int64.maxValue.toInt := ⟨hmin.trans h0, h1⟩
  exact ⟨Int64.ofIntLE n h.1 h.2, by rw [checked, dif_pos h], Int64.toInt_ofIntLE⟩

theorem one_lt_iff {q : Int64} : q > 1 ↔ 1 < q.toInt := by
  rw [gt_iff_lt, Int64.lt_iff_toInt_lt]
  rfl

/-- A tap changes the quantity label only, to the decimal text of the next quantity. -/
theorem Shows.tap {vc : ProductDetailsVC} {q : Int64} (h : vc.Shows q) (hq : 1 ≤ q.toInt)
    (tap : QuantityTap) (hfits : count q.toInt tap ≤ Int64.maxValue.toInt) :
    ∃ q', q'.toInt = count q.toInt tap ∧
      vc.tap tap = .ok (vc.withQuantity q') := by
  cases tap with
  | add =>
    obtain ⟨q', hok, hq'⟩ := checked_eq_ok (n := q.toInt + 1) (by omega) hfits
    exact ⟨q', hq', by
      simp [ProductDetailsVC.tap, addProduct, withQuantity, h.qty, hok, bind, Except.bind, pure,
        Except.pure]⟩
  | remove =>
    by_cases hgt : 1 < q.toInt
    · have hcount : count q.toInt .remove = q.toInt - 1 := max_eq_right (by omega)
      obtain ⟨q', hok, hq'⟩ := checked_eq_ok (n := q.toInt - 1) (by omega) (hcount ▸ hfits)
      exact ⟨q', hq'.trans hcount.symm, by
        simp [ProductDetailsVC.tap, removeProduct, withQuantity, h.qty, one_lt_iff, hgt, hok, bind,
          Except.bind, pure, Except.pure]⟩
    · -- at one the button does nothing
      have hcount : count q.toInt .remove = q.toInt := by
        simp only [count]
        omega
      exact ⟨q, hcount.symm, by
        simp [ProductDetailsVC.tap, removeProduct, h.qty, one_lt_iff, hgt, h.withQuantity_eq, bind,
          Except.bind, pure, Except.pure]⟩

/-- After any taps the label holds the decimal text of the quantity they count to, and
nothing else has changed. -/
theorem Shows.taps {vc : ProductDetailsVC} {q : Int64} (h : vc.Shows q) (hq : 1 ≤ q.toInt)
    (taps : List QuantityTap) (hfits : Fits q.toInt taps) :
    ∃ q', q'.toInt = taps.foldl count q.toInt ∧ 1 ≤ q'.toInt ∧
      taps.foldlM ProductDetailsVC.tap vc = .ok (vc.withQuantity q') := by
  induction taps generalizing vc q with
  | nil =>
    exact ⟨q, rfl, hq, by rw [h.withQuantity_eq]; rfl⟩
  | cons tap taps ih =>
    obtain ⟨hfirst, hrest⟩ := hfits.cons
    obtain ⟨q₁, hq₁, hok⟩ := h.tap hq tap hfirst
    have hone : 1 ≤ q₁.toInt := hq₁ ▸ one_le_count hq tap
    obtain ⟨q', hq', hone', hrun⟩ :=
      ih (shows_withQuantity vc q₁) hone (hq₁ ▸ hrest)
    refine ⟨q', ?_, hone', ?_⟩
    · rw [hq', hq₁, List.foldl_cons]
    · rw [List.foldlM_cons, hok]
      exact hrun

end ProductDetailsVC

namespace ProductDetailsVC

open QuantityTap

end ProductDetailsVC

end GasNow
