import GasNow.HomeVC
import GasNow.Machine.Runs
import GasNow.PinterestLayout

/-!
# The home screen

`HomeVC` with the layout of its collection view. The products are loaded once; the collection
view is laid out at any time, also before they are there, and resized by rotations.
-/

namespace GasNow

open Machine

/-- `heightForPhotoAtIndexPath` -/
def HomeVC.heightForPhotoAtIndexPath (_ : Nat) : ℚ := 305

structure HomeScreen where
  vc : HomeVC
  layout : PinterestLayout
  width : ℚ
  leftInset : ℚ
  rightInset : ℚ
  /-- The `getDocuments` of `viewDidLoad` is outstanding. -/
  loading : Bool

namespace HomeScreen

open PinterestLayout (cellPadding numberOfColumns)

inductive Event where
  /-- The collection view has its layout prepared. -/
  | layoutPass
  | resized (width leftInset rightInset : ℚ)
  | loaded (result : QueryResult)

def collectionView (s : HomeScreen) : CollectionView :=
  ⟨s.width, s.leftInset, s.rightInset, s.vc.productList.length⟩

/-- The layout once `viewDidLoad` has set its delegate. -/
def freshLayout : PinterestLayout :=
  { PinterestLayout.initial with delegate := some HomeVC.heightForPhotoAtIndexPath }

/-- The screen after `viewDidLoad`. -/
def opened (width leftInset rightInset : ℚ) : HomeScreen :=
  ⟨⟨[]⟩, freshLayout, width, leftInset, rightInset, true⟩

def step (s : HomeScreen) : Event → Outcome Trap HomeScreen
  | .layoutPass => .ofExcept do
    let layout ← s.layout.prepare (some s.collectionView)
    return { s with layout }
  | .resized width leftInset rightInset => .next { s with width, leftInset, rightInset }
  | .loaded result =>
    if s.loading then .ofExcept do
      let (vc, _) ← s.vc.getDocumentsCompleted result
      return { s with vc, loading := false }
    else .blocked

/-- The layout has no cells yet, or was prepared for as many products as there are. -/
structure Prepared (s : HomeScreen) : Prop where
  loading : s.loading → s.vc.productList = []
  layout : s.layout = freshLayout ∨ ∃ view : CollectionView,
    freshLayout.prepare (some view) = .ok s.layout ∧
      view.numberOfItems = s.vc.productList.length ∧ s.vc.productList ≠ []

theorem upright_freshLayout : freshLayout.Upright := by
  intro item
  show 0 ≤ HomeVC.heightForPhotoAtIndexPath item
  norm_num [HomeVC.heightForPhotoAtIndexPath]

/-- The cells that a layout pass makes for `view`. -/
def cellsFor (view : CollectionView) : List LayoutAttributes :=
  (List.range view.numberOfItems).map
    (freshLayout.cell (PinterestLayout.contentWidth (some view) / PinterestLayout.numberOfColumns))

theorem length_cellsFor (view : CollectionView) : (cellsFor view).length = view.numberOfItems := by
  simp [cellsFor]

theorem cache_of_prepare {view : CollectionView} {layout : PinterestLayout}
    (h : freshLayout.prepare (some view) = .ok layout) : layout.cache = cellsFor view := by
  obtain ⟨H, hprepare, -⟩ := PinterestLayout.exists_prepare_eq upright_freshLayout rfl rfl view
  obtain rfl := Except.ok.inj (hprepare.symm.trans h)
  rfl

theorem prepare_of_no_items {view : CollectionView} (h : view.numberOfItems = 0) :
    freshLayout.prepare (some view) = .ok freshLayout := by
  unfold PinterestLayout.prepare
  simp only [freshLayout, PinterestLayout.initial, h]
  rfl

/-- A layout pass leaves as many cells as there are products. -/
theorem Prepared.layoutPass {s : HomeScreen} (h : s.Prepared) :
    ∃ layout, s.layout.prepare (some s.collectionView) = .ok layout ∧
      Prepared { s with layout } ∧ layout.cache.length = s.vc.productList.length := by
  rcases h.layout with hfresh | ⟨view, hprepare, hlength, hne⟩
  · rw [hfresh]
    obtain ⟨H, hnew, -⟩ :=
      PinterestLayout.exists_prepare_eq upright_freshLayout rfl rfl s.collectionView
    refine ⟨_, hnew, ⟨h.loading, ?_⟩, length_cellsFor s.collectionView⟩
    by_cases hempty : s.vc.productList = []
    · left
      have hzero : s.collectionView.numberOfItems = 0 := by simp [collectionView, hempty]
      have hsame := prepare_of_no_items hzero
      exact Except.ok.inj (hnew.symm.trans hsame)
    · right
      exact ⟨s.collectionView, hnew, rfl, hempty⟩
  · have hcells : s.layout.cache.length = s.vc.productList.length := by
      rw [cache_of_prepare hprepare, length_cellsFor, hlength]
    have hcache : s.layout.cache ≠ [] := by
      apply List.ne_nil_of_length_pos
      rw [hcells]
      exact List.length_pos_of_ne_nil hne
    exact ⟨s.layout, PinterestLayout.prepare_of_cache_ne_nil hcache _, h, hcells⟩

theorem prepared_opened (width leftInset rightInset : ℚ) :
    (opened width leftInset rightInset).Prepared where
  loading _ := rfl
  layout := .inl rfl

/-- While the products are loading there are no cells. -/
theorem Prepared.fresh_of_loading {s : HomeScreen} (h : s.Prepared) (hloading : s.loading) :
    s.layout = freshLayout := by
  rcases h.layout with hfresh | ⟨_, -, -, hne⟩
  · exact hfresh
  · exact absurd (h.loading hloading) hne

theorem Prepared.step {s t : HomeScreen} {e : Event} (h : s.Prepared)
    (hstep : s.step e = .next t) : t.Prepared := by
  cases e with
  | layoutPass =>
    obtain ⟨layout, hprepare, hprepared, -⟩ := h.layoutPass
    obtain ⟨_, hlayout, hpure⟩ := bind_eq_ok.mp (Outcome.ofExcept_eq_next.mp hstep)
    obtain rfl := Except.ok.inj (hprepare.symm.trans hlayout)
    obtain rfl := Except.ok.inj hpure
    exact hprepared
  | resized width leftInset rightInset =>
    cases hstep
    exact ⟨h.loading, h.layout⟩
  | loaded result =>
    rw [HomeScreen.step] at hstep
    by_cases hloading : s.loading
    · rw [if_pos hloading] at hstep
      obtain ⟨⟨vc, fx⟩, -, hpure⟩ := bind_eq_ok.mp (Outcome.ofExcept_eq_next.mp hstep)
      obtain rfl := Except.ok.inj hpure
      exact ⟨nofun, .inl (h.fresh_of_loading hloading)⟩
    · rw [if_neg hloading] at hstep
      cases hstep

theorem step_layoutPass {s : HomeScreen} {layout : PinterestLayout}
    (h : s.layout.prepare (some s.collectionView) = .ok layout) :
    s.step .layoutPass = .next { s with layout } := by
  rw [HomeScreen.step, h]
  rfl

/-- **Every product has its cell**: whenever the collection view is laid out, in every run of the
screen, the layout answers for exactly the items that the view then has. -/
theorem always_layoutPass_covers (width leftInset rightInset : ℚ) (es : List Event) :
    Always step (fun s => ∃ t, s.step .layoutPass = .next t ∧ ∀ item,
        (∃ a, t.layout.layoutAttributesForItem item = .ok a) ↔ item < t.vc.productList.length)
      (opened width leftInset rightInset) es := by
  have hinv : Always step Prepared (opened width leftInset rightInset) es :=
    always_of_step (fun s e t hs ht => hs.step ht) (prepared_opened _ _ _) es
  refine hinv.imp fun s hs => ?_
  obtain ⟨layout, hprepare, -, hlength⟩ := hs.layoutPass
  refine ⟨{ s with layout }, step_layoutPass hprepare, fun item => ?_⟩
  show (∃ a, subscript layout.cache item = .ok a) ↔ item < s.vc.productList.length
  rw [← hlength]
  simp [List.getElem?_eq_some_iff]

/-- Once there are cells they stay, whatever happens. -/
theorem layout_eq_of_exec {s t : HomeScreen} {es : List Event} (hcache : s.layout.cache ≠ [])
    (h : exec step s es = .next t) : t.layout = s.layout := by
  have hinv : Always step (fun u => u.layout = s.layout) s es := by
    refine always_of_step (I := fun u : HomeScreen => u.layout = s.layout)
      (fun u e v hu hv => ?_) rfl es
    cases e with
    | layoutPass =>
      have hkeep := PinterestLayout.prepare_of_cache_ne_nil (hu ▸ hcache) (some u.collectionView)
      obtain ⟨layout, hlayout, hpure⟩ := bind_eq_ok.mp (Outcome.ofExcept_eq_next.mp hv)
      obtain rfl := Except.ok.inj (hkeep.symm.trans hlayout)
      obtain rfl := Except.ok.inj hpure
      exact hu
    | resized width leftInset rightInset =>
      cases hv
      exact hu
    | loaded result =>
      rw [HomeScreen.step] at hv
      by_cases hloading : u.loading
      · rw [if_pos hloading] at hv
        obtain ⟨_, -, hpure⟩ := bind_eq_ok.mp (Outcome.ofExcept_eq_next.mp hv)
        obtain rfl := Except.ok.inj hpure
        exact hu
      · rw [if_neg hloading] at hv
        cases hv
  exact hinv.last h

/-- All cells are inside the content of the collection view as it is now. -/
def Fits (s : HomeScreen) : Prop :=
  ∀ a ∈ s.layout.cache, ∀ r ∈ a.frame, r.points ⊆
    Set.Ico 0 (s.layout.collectionViewContentSize (some s.collectionView)).width ×ˢ
      Set.Ico 0 (s.layout.collectionViewContentSize (some s.collectionView)).height

/-- Where the cell of an item is. -/
theorem points_frame {w : ℚ} {item : Nat} {r : CGRect} (hw : cellPadding * 2 ≤ w)
    (hr : r ∈ (freshLayout.cell w item).frame) :
    r.points =
      Set.Ico ((item % numberOfColumns : Nat) * w + cellPadding)
        (((item % numberOfColumns : Nat) + 1) * w - cellPadding) ×ˢ
      Set.Ico
        (Columns.fill numberOfColumns freshLayout.rowHeight item (item % numberOfColumns) +
          cellPadding)
        (Columns.fill numberOfColumns freshLayout.rowHeight item (item % numberOfColumns) +
          cellPadding + HomeVC.heightForPhotoAtIndexPath item) := by
  obtain ⟨r', hr', hpadded, hheight⟩ :=
    PinterestLayout.exists_frame_cell upright_freshLayout hw item
  obtain rfl : r' = r := Option.some.inj (hr'.symm.trans hr)
  have hx : r'.origin.x - cellPadding = (item % numberOfColumns : Nat) * w :=
    congrArg (·.origin.x) hpadded
  have hwidth : r'.size.width + 2 * cellPadding = w := congrArg (·.size.width) hpadded
  have hy : r'.origin.y - cellPadding =
      Columns.fill numberOfColumns freshLayout.rowHeight item (item % numberOfColumns) :=
    congrArg (·.origin.y) hpadded
  have hright : r'.origin.x + r'.size.width =
      ((item % numberOfColumns : Nat) + 1) * w - cellPadding := by linarith
  have hphoto : r'.size.height = HomeVC.heightForPhotoAtIndexPath item := hheight
  unfold CGRect.points
  rw [hright, hphoto, ← hy, ← hx, sub_add_cancel, sub_add_cancel]

/-- A layout pass with products but no cells makes the cells of the width that there is. -/
theorem Prepared.first_layoutPass {s t : HomeScreen} (h : s.Prepared)
    (hcache : s.layout.cache = []) (hstep : s.step .layoutPass = .next t) :
    t.layout.cache = cellsFor s.collectionView ∧
      IsGreatest (Columns.fill numberOfColumns freshLayout.rowHeight s.vc.productList.length ''
        Set.Iio numberOfColumns) t.layout.contentHeight := by
  have hfresh : s.layout = freshLayout := by
    rcases h.layout with hfresh | ⟨view, hprepare, hlength, hne⟩
    · exact hfresh
    · rw [cache_of_prepare hprepare] at hcache
      have hzero : view.numberOfItems = 0 := by
        rw [← length_cellsFor, hcache]
        rfl
      exact absurd (List.length_eq_zero_iff.mp (hlength ▸ hzero)) hne
  obtain ⟨layout, hlayout, hpure⟩ := bind_eq_ok.mp (Outcome.ofExcept_eq_next.mp hstep)
  obtain rfl := Except.ok.inj hpure
  obtain ⟨H, hprepare, hH⟩ :=
    PinterestLayout.exists_prepare_eq upright_freshLayout rfl rfl s.collectionView
  rw [hfresh] at hlayout
  obtain rfl := Except.ok.inj (hprepare.symm.trans hlayout)
  exact ⟨rfl, hH⟩

def columnWidth (s : HomeScreen) : ℚ :=
  PinterestLayout.contentWidth (some s.collectionView) / numberOfColumns

/-- The number of columns that have cells. -/
def usedColumns (s : HomeScreen) : Nat := min s.vc.productList.length numberOfColumns

/-- A cell stays inside a content that is high enough as long as its column does. -/
theorem points_subset_iff {w right bottom : ℚ} {item : Nat} {r : CGRect} (hw : cellPadding * 2 < w)
    (hr : r ∈ (freshLayout.cell w item).frame)
    (hbottom : Columns.fill numberOfColumns freshLayout.rowHeight item (item % numberOfColumns) +
      freshLayout.rowHeight item ≤ bottom) :
    r.points ⊆ Set.Ico 0 right ×ˢ Set.Ico 0 bottom ↔
      ((item % numberOfColumns : Nat) + 1) * w - cellPadding ≤ right := by
  have hpadding : 0 < cellPadding := by norm_num [cellPadding]
  have hw0 : 0 < w := by linarith
  have hphoto : 0 < HomeVC.heightForPhotoAtIndexPath item := by
    norm_num [HomeVC.heightForPhotoAtIndexPath]
  have hrow : freshLayout.rowHeight item =
      cellPadding * 2 + HomeVC.heightForPhotoAtIndexPath item := rfl
  have htop := Columns.fill_nonneg (c := numberOfColumns) upright_freshLayout.rowHeight_nonneg
    item (item % numberOfColumns)
  rw [points_frame hw.le hr, Set.prod_subset_prod_iff]
  constructor
  · rintro (⟨hx, -⟩ | hempty | hempty)
    · exact ((Set.Ico_subset_Ico_iff (by linarith)).mp hx).2
    · rw [Set.Ico_eq_empty_iff] at hempty
      exact absurd (by linarith) hempty
    · rw [Set.Ico_eq_empty_iff] at hempty
      exact absurd (lt_add_of_pos_right _ hphoto) hempty
  · intro hright
    left
    constructor
    · exact Set.Ico_subset_Ico (by positivity) hright
    · exact Set.Ico_subset_Ico (by linarith) (by linarith)

/-- The cells of a layout pass stay inside a content as long as the columns that are used do. -/
theorem fits_iff_of_cache {s t : HomeScreen} (hproducts : s.vc.productList ≠ [])
    (hw : cellPadding * 2 < s.columnWidth) (hcache : t.layout.cache = cellsFor s.collectionView)
    (hheight : IsGreatest (Columns.fill numberOfColumns freshLayout.rowHeight
      s.vc.productList.length '' Set.Iio numberOfColumns) t.layout.contentHeight) :
    t.Fits ↔ s.usedColumns * s.columnWidth - cellPadding ≤
      PinterestLayout.contentWidth (some t.collectionView) := by
  have hn : 0 < s.vc.productList.length := List.length_pos_of_ne_nil hproducts
  have hbottom : ∀ item < s.vc.productList.length,
      Columns.fill numberOfColumns freshLayout.rowHeight item (item % numberOfColumns) +
        freshLayout.rowHeight item ≤ t.layout.contentHeight := by
    intro item hlt
    exact (Columns.fill_add_le upright_freshLayout.rowHeight_nonneg hlt).trans
      (hheight.2 ⟨item % numberOfColumns, Nat.mod_lt item (by decide), rfl⟩)
  unfold Fits
  rw [hcache]
  constructor
  · intro hfits
    -- the last cell of the first row reaches farthest to the right
    let item := s.usedColumns - 1
    have hcolumns : item % numberOfColumns + 1 = s.usedColumns ∧
        item < s.vc.productList.length := by
      unfold item usedColumns numberOfColumns
      omega
    obtain ⟨r, hr, -⟩ := PinterestLayout.exists_frame_cell upright_freshLayout hw.le item
    have hsubset := hfits _ (List.mem_map_of_mem (List.mem_range.mpr hcolumns.2)) r hr
    have hright := (points_subset_iff hw hr (hbottom item hcolumns.2)).mp hsubset
    have hcast : ((item % numberOfColumns : Nat) : ℚ) + 1 = s.usedColumns := by
      exact_mod_cast hcolumns.1
    rwa [hcast] at hright
  · rintro hright _ ha r hr
    obtain ⟨item, hitem, rfl⟩ := List.mem_map.mp ha
    have hlt : item < s.vc.productList.length := List.mem_range.mp hitem
    have hcolumn : ((item % numberOfColumns : Nat) : ℚ) + 1 ≤ s.usedColumns := by
      have hle : item % numberOfColumns + 1 ≤ s.usedColumns := by
        unfold usedColumns numberOfColumns
        omega
      exact_mod_cast hle
    have hw0 : 0 ≤ s.columnWidth := by
      have hpadding : 0 < cellPadding := by norm_num [cellPadding]
      linarith
    have hmul := mul_le_mul_of_nonneg_right hcolumn hw0
    exact (points_subset_iff hw hr (hbottom item hlt)).mpr
      ((sub_le_sub_right hmul cellPadding).trans hright)

/-- **A rotation does not lay the products out again**: the cells of the first layout pass with
products stay as they are. They are those of the width that the content had then, so that, if its
columns are wider than the padding, they later fit exactly into contents at least as wide as the
columns that have cells. -/
theorem fits_iff_after_rotations {width leftInset rightInset : ℚ} {pre post : List Event}
    {s s' t : HomeScreen} (hpre : exec step (opened width leftInset rightInset) pre = .next s)
    (hproducts : s.vc.productList ≠ []) (hcache : s.layout.cache = [])
    (hfirst : s.step .layoutPass = .next s') (hpost : exec step s' post = .next t) :
    t.layout = s'.layout ∧
      (cellPadding * 2 < s.columnWidth →
        (t.Fits ↔ s.usedColumns * s.columnWidth - cellPadding ≤
          PinterestLayout.contentWidth (some t.collectionView))) := by
  have hinv : Always step Prepared (opened width leftInset rightInset) pre :=
    always_of_step (fun s e t hs ht => hs.step ht) (prepared_opened _ _ _) pre
  obtain ⟨hcells, hheight⟩ := (hinv.last hpre).first_layoutPass hcache hfirst
  have hne : s'.layout.cache ≠ [] := by
    rw [hcells]
    apply List.ne_nil_of_length_pos
    rw [length_cellsFor]
    exact List.length_pos_of_ne_nil hproducts
  have hlayout : t.layout = s'.layout := layout_eq_of_exec hne hpost
  refine ⟨hlayout, fun hw => ?_⟩
  exact fits_iff_of_cache hproducts hw (hlayout ▸ hcells) (hlayout ▸ hheight)

def storedProduct : QueryDocumentSnapshot where
  documentID := "a"
  data := [("name", .string "19 KG"), ("price", .integer 399), ("description", .string ""),
    ("image", .string "products/1.png")]
  documentID_segment := isSegment_a

/-- The screen once it has loaded two products in a content of 400 points. -/
def twoProducts : HomeScreen :=
  let product : ProductInformation :=
    { ProductInformation.empty with name := "19 KG", price := 399, image := "products/1.png" }
  { opened 400 0 0 with vc := ⟨[product, product]⟩, loading := false }

/-- The screen is laid out at 400 points and turned to 300, where the second column ends outside
the content. -/
theorem fits_iff_after_rotations_two :
    ∃ t, exec step (opened 400 0 0)
        [.loaded (.ok [storedProduct, storedProduct]), .layoutPass, .resized 300 0 0] = .next t ∧
      t.layout.cache.length = 2 ∧ (t.Fits ↔ (2 : ℚ) * 200 - 6 ≤ 300) := by
  have hload : exec step (opened 400 0 0) [.loaded (.ok [storedProduct, storedProduct])] =
      .next twoProducts := rfl
  have hinv : Always step Prepared (opened 400 0 0)
      [.loaded (.ok [storedProduct, storedProduct])] :=
    always_of_step (fun s e t hs ht => hs.step ht) (prepared_opened 400 0 0) _
  obtain ⟨layout, hlayout, -, hlength⟩ := (hinv.last hload).layoutPass
  have hfirst := step_layoutPass hlayout
  have hwidth : twoProducts.columnWidth = 200 := by
    norm_num [columnWidth, PinterestLayout.contentWidth, numberOfColumns, collectionView,
      twoProducts, opened]
  have hturn : exec step { twoProducts with layout } [.resized 300 0 0] =
      .next { twoProducts with layout, width := 300 } := rfl
  obtain ⟨hkept, hfits⟩ :=
    fits_iff_after_rotations hload (by simp [twoProducts]) rfl hfirst hturn
  refine ⟨{ twoProducts with layout, width := 300 }, ?_, ?_, ?_⟩
  · apply exec_cons_eq_next.mpr
    refine ⟨twoProducts, rfl, ?_⟩
    apply exec_cons_eq_next.mpr
    exact ⟨_, hfirst, rfl⟩
  · rw [hkept]
    exact hlength
  · have hiff := hfits (by norm_num [hwidth, cellPadding])
    rw [hwidth] at hiff
    simpa [usedColumns, numberOfColumns, cellPadding, twoProducts, opened, collectionView,
      PinterestLayout.contentWidth] using hiff

end HomeScreen

end GasNow
