import GasNow.Geometry.Columns
import GasNow.InjectableScrollView

/-!
# `PinterestLayout`

The layout of the products on the home screen: cells of the delegate's heights in two columns.
It is computed once, as long as there are no cells yet. Coordinates are exact here: the rounding of
`CGFloat` is not modelled.
-/

namespace GasNow

/-- What the layout reads of the collection view. -/
structure CollectionView where
  width : ℚ
  leftInset : ℚ
  rightInset : ℚ
  numberOfItems : Nat
  deriving DecidableEq

/-- A cell's attributes. No frame stands for `CGRect.null`. -/
structure LayoutAttributes where
  item : Nat
  frame : Option CGRect
  deriving DecidableEq

/-- The same rectangle, with a size that is not negative. -/
def CGRect.standardized (r : CGRect) : CGRect :=
  ⟨⟨min r.origin.x (r.origin.x + r.size.width), min r.origin.y (r.origin.y + r.size.height)⟩,
    ⟨|r.size.width|, |r.size.height|⟩⟩

theorem CGRect.standardized_of_nonneg {r : CGRect} (hw : 0 ≤ r.size.width)
    (hh : 0 ≤ r.size.height) : r.standardized = r := by
  rw [CGRect.standardized, abs_of_nonneg hw, abs_of_nonneg hh,
    min_eq_left (le_add_of_nonneg_right hw), min_eq_left (le_add_of_nonneg_right hh)]

/-- The standardized rectangle with its edges moved inside, `CGRect.null` if nothing is left
of it. -/
def CGRect.insetBy (r : CGRect) (dx dy : ℚ) : Option CGRect :=
  let r := r.standardized
  if 0 ≤ r.size.width - 2 * dx ∧ 0 ≤ r.size.height - 2 * dy then
    some ⟨⟨r.origin.x + dx, r.origin.y + dy⟩, ⟨r.size.width - 2 * dx, r.size.height - 2 * dy⟩⟩
  else none

/-- The points of a rectangle. -/
def CGRect.points (r : CGRect) : Set (ℚ × ℚ) :=
  Set.Ico r.origin.x (r.origin.x + r.size.width) ×ˢ
    Set.Ico r.origin.y (r.origin.y + r.size.height)

/-- The rectangle with its edges moved outside. -/
def CGRect.padded (r : CGRect) (d : ℚ) : CGRect :=
  ⟨⟨r.origin.x - d, r.origin.y - d⟩, ⟨r.size.width + 2 * d, r.size.height + 2 * d⟩⟩

def CGRect.maxY (r : CGRect) : ℚ := max r.origin.y (r.origin.y + r.size.height)

structure PinterestLayout where
  /-- `heightForPhotoAtIndexPath` of the delegate. -/
  delegate : Option (Nat → ℚ)
  cache : List LayoutAttributes
  contentHeight : ℚ

namespace PinterestLayout

def numberOfColumns : Nat := 2

def cellPadding : ℚ := 6

/-- A layout as it is created, before it has a delegate. -/
def initial : PinterestLayout := ⟨none, [], 0⟩

def contentWidth : Option CollectionView → ℚ
  | none => 0
  | some collectionView =>
    collectionView.width - (collectionView.leftInset + collectionView.rightInset)

def collectionViewContentSize (layout : PinterestLayout) (collectionView : Option CollectionView) :
    CGSize := ⟨contentWidth collectionView, layout.contentHeight⟩

def photoHeight (layout : PinterestLayout) (item : Nat) : ℚ :=
  match layout.delegate with
  | some delegate => delegate item
  | none => 180

/-- The variables of the loop in `prepare`. -/
structure Placing where
  column : Nat
  yOffset : List ℚ
  cache : List LayoutAttributes
  contentHeight : ℚ

/-- One turn of the loop. -/
def place (layout : PinterestLayout) (columnWidth : ℚ) (xOffset : List ℚ) (s : Placing)
    (item : Nat) : Except Trap Placing := do
  let height := cellPadding * 2 + layout.photoHeight item
  let x ← subscript xOffset s.column
  let y ← subscript s.yOffset s.column
  let frame : CGRect := ⟨⟨x, y⟩, ⟨columnWidth, height⟩⟩
  let attributes : LayoutAttributes := ⟨item, frame.insetBy cellPadding cellPadding⟩
  return {
    column := if s.column < numberOfColumns - 1 then s.column + 1 else 0
    yOffset := s.yOffset.set s.column (y + height)
    cache := s.cache ++ [attributes]
    contentHeight := max s.contentHeight frame.maxY }

def xOffsets (columnWidth : ℚ) : List ℚ :=
  (List.range numberOfColumns).map fun column : Nat => column * columnWidth

def prepare (layout : PinterestLayout) (collectionView : Option CollectionView) :
    Except Trap PinterestLayout :=
  match layout.cache, collectionView with
  | [], some view => do
    let columnWidth := contentWidth collectionView / numberOfColumns
    let xOffset := xOffsets columnWidth
    let s ← (List.range view.numberOfItems).foldlM (layout.place columnWidth xOffset)
      ⟨0, List.replicate numberOfColumns 0, layout.cache, layout.contentHeight⟩
    return { layout with cache := s.cache, contentHeight := s.contentHeight }
  | _, _ => return layout

def layoutAttributesForItem (layout : PinterestLayout) (item : Nat) :
    Except Trap LayoutAttributes := subscript layout.cache item

section Cells

/-- The height of an item's cell with the padding around it. -/
def rowHeight (layout : PinterestLayout) (item : Nat) : ℚ :=
  cellPadding * 2 + layout.photoHeight item

/-- The frame of an item before it is inset. -/
def paddedFrame (layout : PinterestLayout) (w : ℚ) (item : Nat) : CGRect :=
  ⟨⟨(item % numberOfColumns : Nat) * w,
      Columns.fill numberOfColumns layout.rowHeight item (item % numberOfColumns)⟩,
    ⟨w, layout.rowHeight item⟩⟩

def cell (layout : PinterestLayout) (w : ℚ) (item : Nat) : LayoutAttributes :=
  ⟨item, (layout.paddedFrame w item).insetBy cellPadding cellPadding⟩

/-- No photo has a negative height. -/
def Upright (layout : PinterestLayout) : Prop := ∀ item, 0 ≤ layout.photoHeight item

variable {layout : PinterestLayout} {w : ℚ}

theorem Upright.rowHeight_nonneg (h : layout.Upright) (item : Nat) : 0 ≤ layout.rowHeight item := by
  have hphoto := h item
  unfold rowHeight cellPadding
  linarith

/-- The heights of the columns after `n` items. -/
def columnHeights (layout : PinterestLayout) (n : Nat) : List ℚ :=
  (List.range numberOfColumns).map (Columns.fill numberOfColumns layout.rowHeight n)

/-- What the loop has computed after `n` items. -/
structure Placed (layout : PinterestLayout) (w : ℚ) (n : Nat) (s : Placing) : Prop where
  column : s.column = n % numberOfColumns
  yOffset : s.yOffset = layout.columnHeights n
  cache : s.cache = (List.range n).map (layout.cell w)
  contentHeight : IsGreatest
    (Columns.fill numberOfColumns layout.rowHeight n '' Set.Iio numberOfColumns) s.contentHeight

theorem placed_start :
    layout.Placed w 0 ⟨0, List.replicate numberOfColumns 0, [], 0⟩ where
  column := rfl
  yOffset := by simp [columnHeights, numberOfColumns, List.range_succ, List.replicate]
  cache := rfl
  contentHeight := by
    constructor
    · exact ⟨0, by decide, Columns.fill_zero 0⟩
    · rintro _ ⟨k, -, rfl⟩
      rw [Columns.fill_zero]

/-- The next column takes the item, and the others keep their heights. -/
theorem columnHeights_succ (n : Nat) :
    layout.columnHeights (n + 1) =
      (layout.columnHeights n).set (n % numberOfColumns)
        (Columns.fill numberOfColumns layout.rowHeight n (n % numberOfColumns) +
          layout.rowHeight n) := by
  apply List.ext_getElem
  · simp [columnHeights]
  · intro k hk _
    rw [List.getElem_set]
    by_cases h : n % numberOfColumns = k
    · subst h
      simp [columnHeights, Columns.fill_succ_self]
    · simp [columnHeights, h, Columns.fill_succ_of_ne h]

/-- One turn of the loop places the next item. -/
theorem Placed.place {n : Nat} {s : Placing} (h : layout.Placed w n s) (hupright : layout.Upright) :
    ∃ s', layout.place w (xOffsets w) s n = .ok s' ∧
      layout.Placed w (n + 1) s' := by
  have hlt : n % numberOfColumns < numberOfColumns := Nat.mod_lt n (by decide)
  have hx : (xOffsets w)[s.column]? = some ((n % numberOfColumns : Nat) * w) := by
    rw [h.column]
    simp [xOffsets, hlt]
  have hy : s.yOffset[s.column]? =
      some (Columns.fill numberOfColumns layout.rowHeight n (n % numberOfColumns)) := by
    rw [h.column, h.yOffset]
    simp [columnHeights, hlt]
  have hrow : 0 ≤ layout.rowHeight n := hupright.rowHeight_nonneg n
  refine ⟨_, bind_eq_ok.mpr ⟨_, subscript_eq_ok.mpr hx,
    bind_eq_ok.mpr ⟨_, subscript_eq_ok.mpr hy, rfl⟩⟩, ?_, ?_, ?_, ?_⟩
  · show (if s.column < numberOfColumns - 1 then s.column + 1 else 0) = _
    rw [h.column]
    unfold numberOfColumns
    split <;> omega
  · show s.yOffset.set s.column _ = _
    rw [h.yOffset, h.column, columnHeights_succ]
    rfl
  · show s.cache ++ _ = _
    rw [h.cache, List.range_succ, List.map_append]
    rfl
  · have hmax : (layout.paddedFrame w n).maxY =
        Columns.fill numberOfColumns layout.rowHeight n (n % numberOfColumns) +
          layout.rowHeight n := max_eq_right (le_add_of_nonneg_right hrow)
    show IsGreatest _ (max s.contentHeight (layout.paddedFrame w n).maxY)
    rw [hmax]
    exact Columns.isGreatest_fill_succ (by decide) hrow h.contentHeight

theorem exists_placed (hupright : layout.Upright) (n : Nat) :
    ∃ s, (List.range n).foldlM
        (layout.place w (xOffsets w))
        ⟨0, List.replicate numberOfColumns 0, [], 0⟩ = .ok s ∧ layout.Placed w n s := by
  induction n with
  | zero => exact ⟨_, rfl, placed_start⟩
  | succ n ih =>
    obtain ⟨s, hs, hplaced⟩ := ih
    obtain ⟨s', hs', hplaced'⟩ := hplaced.place hupright
    refine ⟨s', ?_, hplaced'⟩
    rw [List.range_succ, List.foldlM_append, hs]
    show [n].foldlM (layout.place w (xOffsets w)) s = _
    rw [List.foldlM_cons, hs']
    rfl

/-- A layout without cells gets a cell for every item, and its content is as high as the
tallest column. -/
theorem exists_prepare_eq (hupright : layout.Upright) (hcache : layout.cache = [])
    (hheight : layout.contentHeight = 0) (view : CollectionView) :
    ∃ H, layout.prepare (some view) =
        .ok { layout with
          cache := (List.range view.numberOfItems).map
            (layout.cell (contentWidth (some view) / numberOfColumns))
          contentHeight := H } ∧
      IsGreatest (Columns.fill numberOfColumns layout.rowHeight view.numberOfItems ''
        Set.Iio numberOfColumns) H := by
  obtain ⟨s, hs, hplaced⟩ := exists_placed hupright view.numberOfItems
    (w := contentWidth (some view) / numberOfColumns)
  refine ⟨s.contentHeight, ?_, hplaced.contentHeight⟩
  unfold prepare
  simp only [hcache, hheight]
  rw [hs, ← hplaced.cache]
  rfl

/-- A layout that has cells stays as it is. -/
theorem prepare_of_cache_ne_nil (hcache : layout.cache ≠ []) (view : Option CollectionView) :
    layout.prepare view = .ok layout := by
  unfold prepare
  split
  · next h => exact absurd h hcache
  · rfl

end Cells

section Masonry

/-- The cells of a layout that was prepared for `view`. -/
structure Masonry (view : CollectionView) (prepared : PinterestLayout) : Prop where
  items : prepared.cache.map (·.item) = List.range view.numberOfItems
  /-- Every cell is in the next column and has room for its photo. -/
  frames : ∀ a ∈ prepared.cache, ∃ r, a.frame = some r ∧
    r.origin.x - cellPadding =
      (a.item % numberOfColumns : Nat) * (contentWidth (some view) / numberOfColumns) ∧
    r.size.width + 2 * cellPadding = contentWidth (some view) / numberOfColumns ∧
    r.size.height = prepared.photoHeight a.item
  /-- The cells do not overlap, not even with the padding around them. -/
  apart : prepared.cache.Pairwise fun a b => ∀ r ∈ a.frame, ∀ q ∈ b.frame,
    Disjoint (r.padded cellPadding).points (q.padded cellPadding).points
  inside : ∀ a ∈ prepared.cache, ∀ r ∈ a.frame, (r.padded cellPadding).points ⊆
    Set.Ico 0 (contentWidth (some view)) ×ˢ Set.Ico 0 prepared.contentHeight
  /-- The content ends with a cell. -/
  tight : (prepared.cache = [] ∧ prepared.contentHeight = 0) ∨
    ∃ a ∈ prepared.cache, ∃ r ∈ a.frame,
      r.origin.y + r.size.height + cellPadding = prepared.contentHeight

variable {layout : PinterestLayout} {w : ℚ}

/-- Columns that are wide enough for the padding leave a frame of every cell. -/
theorem exists_frame_cell (hupright : layout.Upright) (hw : cellPadding * 2 ≤ w) (item : Nat) :
    ∃ r, (layout.cell w item).frame = some r ∧
      r.padded cellPadding = layout.paddedFrame w item ∧
      r.size.height = layout.photoHeight item := by
  have hphoto := hupright item
  have hinset : 0 ≤ w - 2 * cellPadding ∧ 0 ≤ layout.rowHeight item - 2 * cellPadding := by
    unfold rowHeight
    constructor <;> linarith
  have hw0 : 0 ≤ w := by
    unfold cellPadding at hw
    linarith
  have hstandard : (layout.paddedFrame w item).standardized = layout.paddedFrame w item :=
    CGRect.standardized_of_nonneg hw0 (hupright.rowHeight_nonneg item)
  unfold cell CGRect.insetBy
  rw [hstandard]
  refine ⟨_, if_pos hinset, ?_, ?_⟩
  · simp [CGRect.padded, paddedFrame]
  · show layout.rowHeight item - 2 * cellPadding = layout.photoHeight item
    unfold rowHeight
    ring

theorem points_paddedFrame (item : Nat) :
    (layout.paddedFrame w item).points = Columns.box numberOfColumns w layout.rowHeight item := by
  have hend : ∀ k : Nat, (k : ℚ) * w + w = ((k : ℤ) + 1 : ℚ) * w := by
    intro k
    push_cast
    ring
  unfold CGRect.points paddedFrame Columns.box Strip.cell
  rw [hend, Int.cast_natCast]

/-- The frame of a cell with its padding is the box of its item. -/
theorem points_padded {item : Nat} {r : CGRect}
    (hupright : layout.Upright) (hw : cellPadding * 2 ≤ w) (hr : r ∈ (layout.cell w item).frame) :
    (r.padded cellPadding).points = Columns.box numberOfColumns w layout.rowHeight item := by
  obtain ⟨r', hr', hpadded, -⟩ := exists_frame_cell hupright hw item
  obtain rfl : r' = r := Option.some.inj (hr'.symm.trans hr)
  rw [hpadded, points_paddedFrame]

/-- A content with cells ends with one of them. -/
theorem exists_last_cell (hupright : layout.Upright) (hw : cellPadding * 2 ≤ w) {n : Nat} {H : ℚ}
    (hn : 0 < n) (hH : IsGreatest
      (Columns.fill numberOfColumns layout.rowHeight n '' Set.Iio numberOfColumns) H) :
    ∃ item < n, ∃ r ∈ (layout.cell w item).frame,
      r.origin.y + r.size.height + cellPadding = H := by
  obtain ⟨⟨k, -, rfl⟩, hmax⟩ := hH
  have hfirst : 0 < Columns.fill numberOfColumns layout.rowHeight n 0 := by
    have hle := Columns.fill_add_le (c := numberOfColumns) hupright.rowHeight_nonneg hn
    have hphoto := hupright 0
    rw [Columns.fill_zero, zero_add, rowHeight, cellPadding] at hle
    exact lt_of_lt_of_le (by linarith) hle
  have hne : Columns.fill numberOfColumns layout.rowHeight n k ≠ 0 :=
    (hfirst.trans_le (hmax ⟨0, by decide, rfl⟩)).ne'
  obtain ⟨item, hlt, hcolumn, hlast⟩ := Columns.exists_last hne
  obtain ⟨r, hr, hpadded, -⟩ := exists_frame_cell hupright hw item
  have hy : r.origin.y - cellPadding =
      Columns.fill numberOfColumns layout.rowHeight item (item % numberOfColumns) :=
    congrArg (·.origin.y) hpadded
  have hheight : r.size.height + 2 * cellPadding = layout.rowHeight item :=
    congrArg (·.size.height) hpadded
  rw [hcolumn] at hy
  refine ⟨item, hlt, r, hr, ?_⟩
  linarith

/-- The cells of the loop are what a prepared layout has to show. -/
theorem masonry_cells {view : CollectionView} {H : ℚ} (hupright : layout.Upright)
    (hw : cellPadding * 2 ≤ contentWidth (some view) / numberOfColumns)
    (hH : IsGreatest (Columns.fill numberOfColumns layout.rowHeight view.numberOfItems ''
      Set.Iio numberOfColumns) H) :
    Masonry view { layout with
      cache := (List.range view.numberOfItems).map
        (layout.cell (contentWidth (some view) / numberOfColumns))
      contentHeight := H } where
  items := by
    rw [List.map_map]
    exact List.map_id _
  frames := by
    intro a ha
    obtain ⟨item, -, rfl⟩ := List.mem_map.mp ha
    obtain ⟨r, hr, hpadded, hheight⟩ := exists_frame_cell hupright hw item
    exact ⟨r, hr, congrArg (·.origin.x) hpadded, congrArg (·.size.width) hpadded, hheight⟩
  apart := by
    apply List.pairwise_map.mpr
    apply List.pairwise_lt_range.imp
    intro i j hij r hr q hq
    rw [points_padded hupright hw hr, points_padded hupright hw hq]
    exact Columns.disjoint_box hupright.rowHeight_nonneg (by omega)
  inside := by
    intro a ha r hr
    obtain ⟨item, hitem, rfl⟩ := List.mem_map.mp ha
    have hlt : item < view.numberOfItems := List.mem_range.mp hitem
    have hw0 : 0 ≤ contentWidth (some view) / numberOfColumns := by
      unfold cellPadding at hw
      linarith
    have hwidth : (numberOfColumns : ℚ) * (contentWidth (some view) / numberOfColumns) =
        contentWidth (some view) := by
      unfold numberOfColumns
      push_cast
      ring
    have hbox := Columns.box_subset (c := numberOfColumns) (by decide) hw0
      hupright.rowHeight_nonneg hlt
    rw [points_padded hupright hw hr]
    rw [hwidth] at hbox
    apply hbox.trans
    apply Set.prod_mono_right
    exact Set.Ico_subset_Ico_right (hH.2 ⟨_, Nat.mod_lt item (by decide), rfl⟩)
  tight := by
    rcases Nat.eq_zero_or_pos view.numberOfItems with hn | hn
    · left
      rw [hn] at hH ⊢
      obtain ⟨k, -, hk⟩ := hH.1
      exact ⟨rfl, by rw [← hk, Columns.fill_zero]⟩
    · right
      obtain ⟨item, hlt, r, hr, hlast⟩ := exists_last_cell hupright hw hn hH
      exact ⟨_, List.mem_map_of_mem (List.mem_range.mpr hlt), r, hr, hlast⟩

/-- **The cells of the products**: with photos of any heights and columns wide enough for the
padding, the layout places every item, in order and by turns, without overlap and inside a
content that is no higher than it has to be, all in exact coordinates. -/
theorem prepare_masonry {delegate : Option (Nat → ℚ)} {view : CollectionView}
    (hphotos : ∀ d ∈ delegate, ∀ item, 0 ≤ d item)
    (hwidth : numberOfColumns * (cellPadding * 2) ≤ contentWidth (some view)) :
    ∃ prepared, prepare { initial with delegate } (some view) = .ok prepared ∧
      Masonry view prepared := by
  have hupright : Upright { initial with delegate } := by
    intro item
    cases delegate with
    | none =>
      show (0 : ℚ) ≤ 180
      norm_num
    | some d => exact hphotos d rfl item
  have hw : cellPadding * 2 ≤ contentWidth (some view) / numberOfColumns := by
    unfold numberOfColumns at hwidth ⊢
    rw [le_div_iff₀ (by norm_num), mul_comm]
    exact hwidth
  obtain ⟨H, hprepare, hH⟩ := exists_prepare_eq hupright rfl rfl view
  exact ⟨_, hprepare, masonry_cells hupright hw hH⟩

/-- Three photos of 100, 200 and 300 points on a screen of 375. -/
theorem prepare_masonry_three :
    ∃ prepared, prepare { initial with delegate := some fun item => (item + 1) * 100 }
        (some ⟨375, 0, 0, 3⟩) = .ok prepared ∧ Masonry ⟨375, 0, 0, 3⟩ prepared := by
  apply prepare_masonry
  · rintro d hd item
    obtain rfl := Option.some.inj hd
    positivity
  · norm_num [numberOfColumns, cellPadding, contentWidth]

end Masonry

end PinterestLayout

end GasNow
