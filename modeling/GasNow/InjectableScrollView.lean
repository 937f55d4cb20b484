import GasNow.Geometry.Strip
import GasNow.Trap
import Mathlib.Data.Rat.Floor

/-!
# `InjectableScrollView`

A scroll view whose pages lie side by side, each as wide as the view itself. Coordinates are
exact. The animation of an offset is state: where it leads, until it has settled there.
-/

namespace GasNow

structure CGPoint where
  x : ℚ
  y : ℚ
  deriving DecidableEq

structure CGSize where
  width : ℚ
  height : ℚ
  deriving DecidableEq

structure CGRect where
  origin : CGPoint
  size : CGSize
  deriving DecidableEq

def CGRect.offsetBy (r : CGRect) (dx dy : ℚ) : CGRect :=
  { r with origin := ⟨r.origin.x + dx, r.origin.y + dy⟩ }

/-- A page's controller with the frame of its view. -/
structure Page (α : Type) where
  viewController : α
  frame : CGRect
  deriving DecidableEq

structure InjectableScrollView (α : Type) where
  frame : CGRect
  pages : List (Page α)
  contentOffset : CGPoint
  contentSize : CGSize
  /-- Where an animated `setContentOffset` leads. -/
  animation : Option CGPoint
  deriving DecidableEq

/-- The closure of `updateContentOffsetToAccountForRotation`. -/
structure RotationClosure where
  currentPg : Int
  newSize : CGSize

namespace InjectableScrollView

variable {α : Type}

/-- The view has no transform, so its bounds are as large as its frame. -/
def bounds (s : InjectableScrollView α) : CGSize := s.frame.size

/-- `offset(forPageAtIndex:inSize:)` -/
def offsetInSize (index : Int) (size : CGSize) : ℚ := index * size.width

/-- `offset(forPageAtIndex:)` -/
def offset (s : InjectableScrollView α) (index : Int) : ℚ := offsetInSize index s.bounds

/-- `addPages`, to be called only once. The new pages are laid out later. -/
def addPages (s : InjectableScrollView α) (pages : List α) :
    Except Trap (InjectableScrollView α) :=
  if s.pages.length = 0 then
    .ok { s with pages := pages.map fun page => ⟨page, ⟨⟨0, 0⟩, ⟨0, 0⟩⟩⟩ }
  else .error .hardAssert

/-- `adjustFrame(forPageAtIndex:)` -/
def adjustFrame (s : InjectableScrollView α) (index : Nat) (page : Page α) : Page α :=
  { page with frame := s.frame.offsetBy (s.offset index) 0 }

def layoutSubviews (s : InjectableScrollView α) : InjectableScrollView α :=
  { s with
    pages := s.pages.mapIdx s.adjustFrame
    contentSize := ⟨s.offset s.pages.length, s.bounds.height⟩ }

/-- `currentPage(for:)`. With no width the quotient is not finite and the conversion traps. -/
def currentPageFor (s : InjectableScrollView α) (target : CGPoint) : Except Trap Int :=
  if s.bounds.width = 0 then .error .overflow
  else .ok (Strip.truncate ((target.x + s.bounds.width / 2) / s.bounds.width))

def currentPage (s : InjectableScrollView α) : Except Trap Int := s.currentPageFor s.contentOffset

def goToPage (s : InjectableScrollView α) (pageIndex : Int) : InjectableScrollView α :=
  if pageIndex < 0 ∨ pageIndex > (s.pages.length : Int) - 1 then s
  else { s with animation := some ⟨pageIndex * s.bounds.width, 0⟩ }

/-- The animation, if there is one, ends. -/
def settle (s : InjectableScrollView α) : InjectableScrollView α :=
  match s.animation with
  | some target => { s with contentOffset := target, animation := none }
  | none => s

def updateContentOffsetToAccountForRotation (s : InjectableScrollView α) (newSize : CGSize) :
    Except Trap RotationClosure := do
  let currentPg ← s.currentPageFor s.contentOffset
  return { currentPg, newSize }

/-- What the main queue runs after the layout. An offset that is set ends an animation. -/
def rotated (s : InjectableScrollView α) (c : RotationClosure) :
    InjectableScrollView α :=
  { s with contentOffset := ⟨offsetInSize c.currentPg c.newSize, 0⟩, animation := none }

/-- The stretch of the content that a page's view covers. -/
def span (p : Page α) : Set ℚ :=
  Set.Ico p.frame.origin.x (p.frame.origin.x + p.frame.size.width)

/-- A view that starts at `0` has been laid out with at least one page, and the offset is one
that scrolling without bounces leads to. -/
structure LaidOut (s : InjectableScrollView α) : Prop where
  origin : s.frame.origin.x = 0
  width_pos : 0 < s.bounds.width
  pages_pos : 0 < s.pages.length
  frames : s.pages.mapIdx s.adjustFrame = s.pages
  contentSize : s.contentSize = ⟨s.offset s.pages.length, s.bounds.height⟩
  offset_nonneg : 0 ≤ s.contentOffset.x
  offset_le : s.contentOffset.x ≤ ((s.pages.length : ℤ) - 1 : ℤ) * s.bounds.width

theorem currentPageFor_eq {s : InjectableScrollView α} (hw : 0 < s.bounds.width) {p : CGPoint}
    (hp : 0 ≤ p.x) : s.currentPageFor p = .ok (Strip.nearest s.bounds.width p.x) := by
  rw [currentPageFor, if_neg hw.ne', Strip.truncate_eq_nearest hw hp]

/-- At the offset of a page that page is the current one. -/
theorem currentPageFor_page {s : InjectableScrollView α} (hw : 0 < s.bounds.width) {i : ℤ}
    (hi : 0 ≤ i) (y : ℚ) : s.currentPageFor ⟨i * s.bounds.width, y⟩ = .ok i := by
  have hnonneg : 0 ≤ (i : ℚ) * s.bounds.width := mul_nonneg (by exact_mod_cast hi) hw.le
  rw [currentPageFor_eq hw hnonneg, Strip.nearest_start hw]

theorem LaidOut.currentPage_eq {s : InjectableScrollView α} (h : LaidOut s) :
    s.currentPage = .ok (Strip.nearest s.bounds.width s.contentOffset.x) :=
  currentPageFor_eq h.width_pos h.offset_nonneg

theorem LaidOut.nearest_mem {s : InjectableScrollView α} (h : LaidOut s) :
    Strip.nearest s.bounds.width s.contentOffset.x ∈
      Set.Icc (0 : ℤ) ((s.pages.length : ℤ) - 1) := by
  apply Strip.nearest_mem_Icc h.width_pos
  · simpa using h.offset_nonneg
  · exact h.offset_le

theorem goToPage_of_outside {s : InjectableScrollView α} {i : ℤ}
    (hi : i < 0 ∨ (s.pages.length : ℤ) ≤ i) : s.goToPage i = s := by
  refine if_pos (hi.imp id fun h => ?_)
  omega

theorem goToPage_settle {s : InjectableScrollView α} {i : ℤ} (hi : 0 ≤ i)
    (hn : i < s.pages.length) :
    (s.goToPage i).settle =
      { s with contentOffset := ⟨i * s.bounds.width, 0⟩, animation := none } := by
  have hrange : ¬(i < 0 ∨ i > (s.pages.length : ℤ) - 1) := by omega
  rw [goToPage, if_neg hrange]
  rfl

/-- A laid-out view stays so at every offset that scrolling leads to. -/
theorem LaidOut.scrolled {s : InjectableScrollView α} (h : LaidOut s) (contentOffset : CGPoint)
    (hlo : 0 ≤ contentOffset.x)
    (hhi : contentOffset.x ≤ ((s.pages.length : ℤ) - 1 : ℤ) * s.bounds.width)
    (animation : Option CGPoint) : LaidOut { s with contentOffset, animation } where
  origin := h.origin
  width_pos := h.width_pos
  pages_pos := h.pages_pos
  frames := h.frames
  contentSize := h.contentSize
  offset_nonneg := hlo
  offset_le := hhi

/-- The offset of a page is one that scrolling leads to. -/
theorem page_offset_bounds {s : InjectableScrollView α} (hw : 0 ≤ s.bounds.width) {i : ℤ}
    (hi : 0 ≤ i) (hn : i < s.pages.length) :
    0 ≤ (i : ℚ) * s.bounds.width ∧
      (i : ℚ) * s.bounds.width ≤ ((s.pages.length : ℤ) - 1 : ℤ) * s.bounds.width := by
  have hle : i ≤ (s.pages.length : ℤ) - 1 := by omega
  constructor
  · exact mul_nonneg (by exact_mod_cast hi) hw
  · exact mul_le_mul_of_nonneg_right (by exact_mod_cast hle) hw

theorem LaidOut.goToPage_settle {s : InjectableScrollView α} (h : LaidOut s) {i : ℤ} (hi : 0 ≤ i)
    (hn : i < s.pages.length) :
    LaidOut (s.goToPage i).settle ∧ (s.goToPage i).settle.currentPage = .ok i := by
  obtain ⟨hlo, hhi⟩ := page_offset_bounds h.width_pos.le hi hn
  rw [InjectableScrollView.goToPage_settle hi hn]
  exact ⟨h.scrolled ⟨_, 0⟩ hlo hhi none, currentPageFor_page h.width_pos hi 0⟩

/-- The layout moves the pages and keeps them. -/
theorem layoutSubviews_viewControllers (s : InjectableScrollView α) :
    s.layoutSubviews.pages.map (·.viewController) = s.pages.map (·.viewController) := by
  apply List.ext_getElem?
  intro i
  simp only [layoutSubviews, List.getElem?_map, List.getElem?_mapIdx, Option.map_map]
  rfl

/-- The layout in a new frame that starts at `0`, followed by the closure of the rotation to
that width, shows the captured page. -/
theorem rotated_layoutSubviews {s : InjectableScrollView α} {frame : CGRect} {c : RotationClosure}
    (horigin : frame.origin.x = 0) (hw : 0 < c.newSize.width)
    (hwidth : frame.size.width = c.newSize.width) (hlo : 0 ≤ c.currentPg)
    (hhi : c.currentPg < s.pages.length) :
    let t := (layoutSubviews { s with frame }).rotated c
    LaidOut t ∧ t.currentPage = .ok c.currentPg := by
  intro t
  have hlen : t.pages.length = s.pages.length := List.length_mapIdx
  have htw : t.bounds.width = c.newSize.width := hwidth
  have hpos : 0 < t.bounds.width := htw ▸ hw
  have hoffset : t.contentOffset = ⟨c.currentPg * t.bounds.width, 0⟩ := by
    rw [htw]
    rfl
  obtain ⟨hnonneg, hle⟩ := page_offset_bounds (s := t) (i := c.currentPg) hpos.le hlo (by omega)
  refine ⟨⟨horigin, hpos, by omega, ?_, ?_, hoffset ▸ hnonneg, hoffset ▸ hle⟩, ?_⟩
  · show (s.pages.mapIdx _).mapIdx _ = s.pages.mapIdx _
    rw [List.mapIdx_mapIdx]
    rfl
  · show CGSize.mk _ _ = CGSize.mk _ _
    rw [hlen]
    rfl
  · rw [currentPage, hoffset]
    exact currentPageFor_page hpos hlo 0

/-- The `i`-th page covers the `i`-th stretch of the view's width. -/
theorem LaidOut.span_eq {s : InjectableScrollView α} (h : LaidOut s) {i : ℕ} {p : Page α}
    (hp : s.pages[i]? = some p) : span p = Strip.cell s.bounds.width i := by
  rw [← h.frames, List.getElem?_mapIdx] at hp
  obtain ⟨q, -, rfl⟩ := Option.map_eq_some_iff.mp hp
  have hx : (s.adjustFrame i q).frame.origin.x = (i : ℤ) * s.bounds.width := by
    show s.frame.origin.x + s.offset i = (i : ℤ) * s.bounds.width
    rw [h.origin, zero_add]
    rfl
  have hwidth : (s.adjustFrame i q).frame.size.width = s.bounds.width := rfl
  rw [span, Strip.cell, hx, hwidth, add_one_mul]

theorem LaidOut.contentSize_width {s : InjectableScrollView α} (h : LaidOut s) :
    s.contentSize.width = (s.pages.length : ℤ) * s.bounds.width := by
  rw [h.contentSize]
  rfl

end InjectableScrollView

end GasNow
