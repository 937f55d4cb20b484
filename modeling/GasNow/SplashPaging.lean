import GasNow.InjectableScrollView
import GasNow.Machine.Runs

/-!
# The tutorial

`SplashPagingViewController` over the pages that `SplashDataSource` makes. The pages move when
the user drags them, when the Next button animates to the page after the current one and when
the device is rotated. The button counts the data sources, the scroll view its pages.
-/

namespace GasNow

open Machine

structure SplashDataSource where
  title : String
  detail : String
  pageIndex : String
  imageName : String
  deriving DecidableEq

structure SplashViewController where
  lbl_description : String
  titleLabel : String
  img : String
  deriving DecidableEq

namespace SplashDataSource

def page1 : SplashDataSource :=
  ⟨"Sign Up", "Sign up now and access the most affordable and innovative LPG Solutions", "1",
    "signUpAnimation"⟩

def page2 : SplashDataSource :=
  ⟨"Buy Gas Online",
    "Order Online and PAy Securely With Your Credit Card or Pay ON DELIVERY.", "2",
    "orderanimation"⟩

def page3 : SplashDataSource :=
  ⟨"Get It Delivered",
    "We value our customers and pride ourselves on Delivering best prices,brilliant service " ++
      "and the highest quality LP gas to you.", "3",
    "deliveredAnimation"⟩

def page4 : SplashDataSource :=
  ⟨"Friendly Support", "Blazing fast order delivery within time!", "4", "laptopAnimation"⟩

def defaultDataSources : List SplashDataSource := [page1, page2, page3, page4]

def tutorialPage (dataSource : SplashDataSource) : SplashViewController where
  lbl_description := dataSource.detail
  titleLabel := dataSource.title
  img := dataSource.imageName

/-- `defaultTutorialPages`, of any list of data sources. -/
def tutorialPages (dataSources : List SplashDataSource) : List SplashViewController :=
  dataSources.map tutorialPage

end SplashDataSource

structure SplashPagingViewController where
  scrollView : InjectableScrollView SplashViewController
  /-- How many times `AccountVC` has been pushed. -/
  accounts : Nat
  deriving DecidableEq

namespace SplashPagingViewController

def viewWillAppear (dataSources : List SplashDataSource) (vc : SplashPagingViewController) :
    Except Trap SplashPagingViewController := do
  let scrollView ← vc.scrollView.addPages (SplashDataSource.tutorialPages dataSources)
  return { vc with scrollView }

def viewWillTransition (vc : SplashPagingViewController) (size : CGSize) :
    Except Trap RotationClosure :=
  vc.scrollView.updateContentOffsetToAccountForRotation size

def NextBtnTapped (dataSources : List SplashDataSource) (vc : SplashPagingViewController) :
    Except Trap SplashPagingViewController := do
  let currentPage ← vc.scrollView.currentPage
  if currentPage < (dataSources.length : Int) - 1 then
    let currentPage ← vc.scrollView.currentPage
    return { vc with scrollView := vc.scrollView.goToPage (currentPage + 1) }
  else if currentPage = (dataSources.length : Int) - 1 then
    return { vc with accounts := vc.accounts + 1 }
  else return vc

/-- A rotation: the controller is told the new `size` of its view, the scroll view gets its new
`frame` and is laid out, and then the main queue runs the closure. -/
def rotate (vc : SplashPagingViewController) (size : CGSize) (frame : CGRect) :
    Except Trap SplashPagingViewController := do
  let closure ← vc.viewWillTransition size
  let scrollView := InjectableScrollView.layoutSubviews { vc.scrollView with frame }
  return { vc with scrollView := scrollView.rotated closure }

def settle (vc : SplashPagingViewController) : SplashPagingViewController :=
  { vc with scrollView := vc.scrollView.settle }

/-- `k` taps of the Next button, each of which settles before the next one. -/
def taps (dataSources : List SplashDataSource) (vc : SplashPagingViewController) :
    Nat → Except Trap SplashPagingViewController
  | 0 => .ok vc
  | k + 1 => do
    let vc' ← vc.NextBtnTapped dataSources
    vc'.settle.taps dataSources k

/-- The laid-out pages are those of the data sources. -/
structure Presented (dataSources : List SplashDataSource) (vc : SplashPagingViewController) :
    Prop where
  laidOut : vc.scrollView.LaidOut
  pages_eq : vc.scrollView.pages.map (·.viewController) =
    SplashDataSource.tutorialPages dataSources

theorem Presented.length_eq {dataSources : List SplashDataSource}
    {vc : SplashPagingViewController} (h : Presented dataSources vc) :
    vc.scrollView.pages.length = dataSources.length := by
  simpa [SplashDataSource.tutorialPages] using congrArg List.length h.pages_eq

theorem NextBtnTapped_of_lt {dataSources : List SplashDataSource}
    {vc : SplashPagingViewController} {page : ℤ} (hpage : vc.scrollView.currentPage = .ok page)
    (hlt : page < (dataSources.length : ℤ) - 1) :
    vc.NextBtnTapped dataSources =
      .ok { vc with scrollView := vc.scrollView.goToPage (page + 1) } := by
  simp [NextBtnTapped, hpage, hlt, bind, Except.bind, pure, Except.pure]

theorem NextBtnTapped_of_eq {dataSources : List SplashDataSource}
    {vc : SplashPagingViewController} {page : ℤ} (hpage : vc.scrollView.currentPage = .ok page)
    (heq : page = (dataSources.length : ℤ) - 1) :
    vc.NextBtnTapped dataSources = .ok { vc with accounts := vc.accounts + 1 } := by
  simp [NextBtnTapped, hpage, heq, bind, Except.bind, pure, Except.pure]

/-- A scroll view that starts at `0` and is as wide as the controller's view. -/
def Pinned (size : CGSize) (frame : CGRect) : Prop :=
  frame.origin.x = 0 ∧ frame.size.width = size.width

theorem Presented.rotate {dataSources : List SplashDataSource} {vc : SplashPagingViewController}
    (h : Presented dataSources vc) {size : CGSize} {frame : CGRect} (hpinned : Pinned size frame)
    (hw : 0 < size.width) {page : ℤ} (hpage : vc.scrollView.currentPage = .ok page)
    (hlo : 0 ≤ page) (hhi : page < dataSources.length) :
    ∃ vc', vc.rotate size frame = .ok vc' ∧ Presented dataSources vc' ∧
      vc'.scrollView.currentPage = .ok page ∧ vc'.accounts = vc.accounts := by
  obtain ⟨horigin, hwidth⟩ := hpinned
  have hclosure : vc.viewWillTransition size = .ok ⟨page, size⟩ := by
    have hpage' : vc.scrollView.currentPageFor vc.scrollView.contentOffset = .ok page := hpage
    simp [viewWillTransition, InjectableScrollView.updateContentOffsetToAccountForRotation, hpage',
      bind, Except.bind, pure, Except.pure]
  have hhi' : page < vc.scrollView.pages.length := by
    rw [h.length_eq]
    exact hhi
  obtain ⟨hlaidOut, hcurrent⟩ := InjectableScrollView.rotated_layoutSubviews
    (s := vc.scrollView) (c := ⟨page, size⟩) horigin hw hwidth hlo hhi'
  refine ⟨⟨_, vc.accounts⟩, ?_, ⟨hlaidOut, ?_⟩, hcurrent, rfl⟩
  · rw [SplashPagingViewController.rotate, hclosure]
    rfl
  · rw [← h.pages_eq]
    exact InjectableScrollView.layoutSubviews_viewControllers _

/-- A tap before the last page settles on the next one. -/
theorem Presented.next {dataSources : List SplashDataSource} {vc : SplashPagingViewController}
    (h : Presented dataSources vc) {page : ℤ} (hpage : vc.scrollView.currentPage = .ok page)
    (hlo : 0 ≤ page) (hlt : page < (dataSources.length : ℤ) - 1) :
    ∃ vc', vc.NextBtnTapped dataSources = .ok vc' ∧ vc'.accounts = vc.accounts ∧
      Presented dataSources vc'.settle ∧ vc'.settle.scrollView.currentPage = .ok (page + 1) := by
  have hin : page + 1 < vc.scrollView.pages.length := by
    rw [h.length_eq]
    omega
  have hnonneg : 0 ≤ page + 1 := by omega
  obtain ⟨hlaidOut, hcurrent⟩ := h.laidOut.goToPage_settle hnonneg hin
  refine ⟨_, NextBtnTapped_of_lt hpage hlt, rfl, ⟨hlaidOut, ?_⟩, hcurrent⟩
  show ((vc.scrollView.goToPage (page + 1)).settle.pages.map _) = _
  rw [InjectableScrollView.goToPage_settle hnonneg hin]
  exact h.pages_eq

/-- As long as there is a next page, every tap leads to it. -/
theorem Presented.taps {dataSources : List SplashDataSource} {vc : SplashPagingViewController}
    (h : Presented dataSources vc) {page : ℤ} (hpage : vc.scrollView.currentPage = .ok page)
    (hlo : 0 ≤ page) {k : ℕ} (hk : page + k ≤ (dataSources.length : ℤ) - 1) :
    ∃ vc', vc.taps dataSources k = .ok vc' ∧ vc'.accounts = vc.accounts ∧
      Presented dataSources vc' ∧ vc'.scrollView.currentPage = .ok (page + k) := by
  induction k generalizing vc page with
  | zero => exact ⟨vc, rfl, rfl, h, by simpa using hpage⟩
  | succ k ih =>
    obtain ⟨vc', htap, haccounts, hsettled, hcurrent⟩ := h.next hpage hlo (by omega)
    obtain ⟨vc'', htaps, haccounts', hfinal, hcurrent'⟩ :=
      ih hsettled hcurrent (by omega) (by omega)
    refine ⟨vc'', ?_, haccounts'.trans haccounts, hfinal, ?_⟩
    · simp [SplashPagingViewController.taps, htap, htaps, bind, Except.bind]
    · rw [hcurrent']
      congr 1
      omega

/-- Page numbers and offsets agree, on `page`: it is a page, and the one nearest to the offset;
going to a page leads there, and going elsewhere nowhere; a rotation keeps the page; the pages
lie side by side in the content; and the Next button leads through the pages and then, from
the last one and only from there, to the account screen. -/
structure PagingConsistent (dataSources : List SplashDataSource)
    (vc : SplashPagingViewController) (page : ℤ) : Prop where
  current : vc.scrollView.currentPage = .ok page
  isPage : 0 ≤ page ∧ page ≤ (dataSources.length : ℤ) - 1
  near : |vc.scrollView.contentOffset.x - page * vc.scrollView.bounds.width| ≤
    vc.scrollView.bounds.width / 2
  goToPage : ∀ i : ℤ, 0 ≤ i → i < dataSources.length →
    (vc.scrollView.goToPage i).settle.currentPage = .ok i
  goToPage_outside : ∀ i : ℤ, i < 0 ∨ (dataSources.length : ℤ) ≤ i →
    vc.scrollView.goToPage i = vc.scrollView
  rotation : ∀ size frame, Pinned size frame → 0 < size.width →
    ∃ vc', vc.rotate size frame = .ok vc' ∧ vc'.scrollView.currentPage = .ok page
  frames : ∀ (i : ℕ) p, vc.scrollView.pages[i]? = some p →
    InjectableScrollView.span p =
        Set.Ico (i * vc.scrollView.bounds.width) ((i + 1) * vc.scrollView.bounds.width) ∧
      InjectableScrollView.span p ⊆ Set.Ico 0 vc.scrollView.contentSize.width
  disjoint : ∀ (i j : ℕ) p q, i ≠ j → vc.scrollView.pages[i]? = some p →
    vc.scrollView.pages[j]? = some q →
    Disjoint (InjectableScrollView.span p) (InjectableScrollView.span q)
  next : page < (dataSources.length : ℤ) - 1 →
    ∃ vc', vc.NextBtnTapped dataSources = .ok vc' ∧ vc'.accounts = vc.accounts ∧
      vc'.settle.scrollView.currentPage = .ok (page + 1)
  last : page = (dataSources.length : ℤ) - 1 →
    vc.NextBtnTapped dataSources = .ok { vc with accounts := vc.accounts + 1 }
  through : ∀ k : ℕ, page + k = (dataSources.length : ℤ) - 1 →
    ∃ vc', vc.taps dataSources k = .ok vc' ∧ vc'.accounts = vc.accounts ∧
      vc'.NextBtnTapped dataSources = .ok { vc' with accounts := vc.accounts + 1 }

/-- For any number of pages, any width and any offset that scrolling leads to. -/
theorem Presented.pagingConsistent {dataSources : List SplashDataSource}
    {vc : SplashPagingViewController} (h : Presented dataSources vc) :
    ∃ page, PagingConsistent dataSources vc page := by
  let page := Strip.nearest vc.scrollView.bounds.width vc.scrollView.contentOffset.x
  have hw : 0 < vc.scrollView.bounds.width := h.laidOut.width_pos
  have hcurrent : vc.scrollView.currentPage = .ok page := h.laidOut.currentPage_eq
  have hlength := h.length_eq
  obtain ⟨hlo, hhi⟩ : page ∈ Set.Icc (0 : ℤ) ((dataSources.length : ℤ) - 1) := by
    rw [← hlength]
    exact h.laidOut.nearest_mem
  refine ⟨page, hcurrent, ⟨hlo, hhi⟩, Strip.abs_sub_nearest_le hw _, ?_, ?_, ?_, ?_, ?_, ?_, ?_, ?_⟩
  · intro i hi hn
    exact (h.laidOut.goToPage_settle hi (by omega)).2
  · intro i hi
    exact InjectableScrollView.goToPage_of_outside (by omega)
  · intro size frame hpinned hwidth
    obtain ⟨vc', hrotate, -, hpage, -⟩ := h.rotate hpinned hwidth hcurrent hlo (by omega)
    exact ⟨vc', hrotate, hpage⟩
  · intro i p hp
    have hi : i < vc.scrollView.pages.length := (List.getElem?_eq_some_iff.mp hp).1
    rw [h.laidOut.span_eq hp, h.laidOut.contentSize_width]
    exact ⟨rfl, Strip.cell_subset hw.le (Int.natCast_nonneg i) (by exact_mod_cast hi)⟩
  · intro i j p q hij hp hq
    rw [h.laidOut.span_eq hp, h.laidOut.span_eq hq]
    exact Strip.disjoint_cells _ (by exact_mod_cast hij)
  · intro hlt
    obtain ⟨vc', htap, haccounts, -, hpage⟩ := h.next hcurrent hlo hlt
    exact ⟨vc', htap, haccounts, hpage⟩
  · intro heq
    exact NextBtnTapped_of_eq hcurrent heq
  · intro k hk
    obtain ⟨vc', htaps, haccounts, -, hpage⟩ := h.taps hcurrent hlo hk.le
    refine ⟨vc', htaps, haccounts, ?_⟩
    rw [← haccounts]
    exact NextBtnTapped_of_eq hpage hk

/-! ### Runs -/

inductive SplashEvent where
  /-- The user has dragged the content to this offset. -/
  | drag (x : ℚ)
  /-- An animation has got to this offset. -/
  | animate (x : ℚ)
  | settle
  | NextBtnTapped
  | rotate (size : CGSize) (frame : CGRect)

/-- Without bounces the offset stays between the first page and the last one. -/
def Reaches (vc : SplashPagingViewController) (x : ℚ) : Prop :=
  0 ≤ x ∧ x ≤ vc.scrollView.contentSize.width - vc.scrollView.bounds.width

instance (vc : SplashPagingViewController) (x : ℚ) : Decidable (Reaches vc x) :=
  inferInstanceAs (Decidable (_ ∧ _))

instance (size : CGSize) (frame : CGRect) : Decidable (Pinned size frame) :=
  inferInstanceAs (Decidable (_ ∧ _))

def scrollTo (vc : SplashPagingViewController) (x : ℚ) (animation : Option CGPoint) :
    SplashPagingViewController :=
  { vc with
    scrollView := { vc.scrollView with
      contentOffset := ⟨x, vc.scrollView.contentOffset.y⟩
      animation } }

def step (dataSources : List SplashDataSource) (vc : SplashPagingViewController) :
    SplashEvent → Outcome Trap SplashPagingViewController
  | .drag x => if Reaches vc x then .next (vc.scrollTo x none) else .blocked
  | .animate x =>
    if Reaches vc x ∧ vc.scrollView.animation.isSome then
      .next (vc.scrollTo x vc.scrollView.animation)
    else .blocked
  | .settle => .next vc.settle
  | .NextBtnTapped => .ofExcept (vc.NextBtnTapped dataSources)
  | .rotate size frame =>
    if Pinned size frame ∧ 0 < size.width then .ofExcept (vc.rotate size frame) else .blocked

/-- What runs keep: animations lead to pages. -/
structure PagingInv (dataSources : List SplashDataSource) (vc : SplashPagingViewController) :
    Prop where
  presented : Presented dataSources vc
  animation : ∀ target, vc.scrollView.animation = some target →
    ∃ i : ℤ, 0 ≤ i ∧ i < dataSources.length ∧ target = ⟨i * vc.scrollView.bounds.width, 0⟩

/-- The controller when it has appeared with its scroll view laid out in `frame`. -/
def appeared (dataSources : List SplashDataSource) (frame : CGRect) :
    Except Trap SplashPagingViewController := do
  let vc ← viewWillAppear dataSources ⟨⟨frame, [], ⟨0, 0⟩, ⟨0, 0⟩, none⟩, 0⟩
  return { vc with scrollView := vc.scrollView.layoutSubviews }

theorem pagingInv_appeared {dataSources : List SplashDataSource} (hn : dataSources ≠ [])
    {frame : CGRect} (horigin : frame.origin.x = 0) (hw : 0 < frame.size.width) :
    ∃ vc, appeared dataSources frame = .ok vc ∧ PagingInv dataSources vc := by
  let pages : List (Page SplashViewController) :=
    (SplashDataSource.tutorialPages dataSources).map fun page => ⟨page, ⟨⟨0, 0⟩, ⟨0, 0⟩⟩⟩
  let bare : InjectableScrollView SplashViewController := ⟨frame, pages, ⟨0, 0⟩, ⟨0, 0⟩, none⟩
  have hpos : 0 < pages.length := by
    simpa [pages, SplashDataSource.tutorialPages] using List.length_pos_iff.mpr hn
  have hviews : pages.map (·.viewController) = SplashDataSource.tutorialPages dataSources := by
    simp [pages, Function.comp_def]
  -- the first layout is the layout of a rotation on page `0`
  obtain ⟨hlaidOut, -⟩ := InjectableScrollView.rotated_layoutSubviews (s := bare)
    (c := ⟨0, frame.size⟩) horigin hw rfl le_rfl (Int.natCast_pos.mpr hpos)
  refine ⟨⟨bare.layoutSubviews, 0⟩, rfl, ⟨?_, ?_⟩, nofun⟩
  · have hle := hlaidOut.offset_nonneg.trans hlaidOut.offset_le
    exact hlaidOut.scrolled ⟨0, 0⟩ le_rfl hle none
  · exact (InjectableScrollView.layoutSubviews_viewControllers bare).trans hviews

theorem PagingInv.scrollTo {dataSources : List SplashDataSource} {vc : SplashPagingViewController}
    (hi : PagingInv dataSources vc) {x : ℚ} (hx : Reaches vc x) {animation : Option CGPoint}
    (ha : animation = none ∨ animation = vc.scrollView.animation) :
    PagingInv dataSources (vc.scrollTo x animation) := by
  obtain ⟨hlo, hhi⟩ := hx
  rw [hi.presented.laidOut.contentSize_width] at hhi
  refine ⟨⟨hi.presented.laidOut.scrolled ⟨x, _⟩ hlo ?_ animation, hi.presented.pages_eq⟩,
    fun target ht => ?_⟩
  · have hlast : ((vc.scrollView.pages.length : ℤ) - 1 : ℤ) * vc.scrollView.bounds.width =
        (vc.scrollView.pages.length : ℤ) * vc.scrollView.bounds.width -
          vc.scrollView.bounds.width := by
      push_cast
      ring
    rw [hlast]
    exact hhi
  · rcases ha with rfl | rfl
    · cases ht
    · exact hi.animation target ht

theorem PagingInv.settle {dataSources : List SplashDataSource} {vc : SplashPagingViewController}
    (hi : PagingInv dataSources vc) : PagingInv dataSources vc.settle := by
  cases ha : vc.scrollView.animation with
  | none =>
    have hsame : vc.settle = vc := by
      simp [SplashPagingViewController.settle, InjectableScrollView.settle, ha]
    rw [hsame]
    exact hi
  | some target =>
    obtain ⟨i, hlo, hlt, rfl⟩ := hi.animation target ha
    rw [← hi.presented.length_eq] at hlt
    obtain ⟨hnonneg, hle⟩ := InjectableScrollView.page_offset_bounds (s := vc.scrollView)
      hi.presented.laidOut.width_pos.le hlo hlt
    have hsettled : vc.settle = { vc with scrollView := { vc.scrollView with
        contentOffset := ⟨i * vc.scrollView.bounds.width, 0⟩, animation := none } } := by
      simp [SplashPagingViewController.settle, InjectableScrollView.settle, ha]
    rw [hsettled]
    exact ⟨⟨hi.presented.laidOut.scrolled ⟨_, 0⟩ hnonneg hle none, hi.presented.pages_eq⟩, nofun⟩

theorem PagingInv.goToPage {dataSources : List SplashDataSource} {vc : SplashPagingViewController}
    (hi : PagingInv dataSources vc) (page : ℤ) :
    PagingInv dataSources { vc with scrollView := vc.scrollView.goToPage page } := by
  unfold InjectableScrollView.goToPage
  split
  · exact hi
  · next hin =>
    refine ⟨⟨?_, hi.presented.pages_eq⟩, fun target ht => ?_⟩
    · exact hi.presented.laidOut.scrolled _ hi.presented.laidOut.offset_nonneg
        hi.presented.laidOut.offset_le _
    · have hlength := hi.presented.length_eq
      exact ⟨page, by omega, by omega, (Option.some.inj ht).symm⟩

theorem PagingInv.step {dataSources : List SplashDataSource} {vc vc' : SplashPagingViewController}
    {e : SplashEvent} (hi : PagingInv dataSources vc)
    (ht : SplashPagingViewController.step dataSources vc e = .next vc') :
    PagingInv dataSources vc' := by
  cases e with
  | drag x =>
    simp only [SplashPagingViewController.step] at ht
    split at ht
    · next hx =>
      cases ht
      exact hi.scrollTo hx (.inl rfl)
    · cases ht
  | animate x =>
    simp only [SplashPagingViewController.step] at ht
    split at ht
    · next hx =>
      cases ht
      exact hi.scrollTo hx.1 (.inr rfl)
    · cases ht
  | settle =>
    cases ht
    exact hi.settle
  | NextBtnTapped =>
    have htap := Outcome.ofExcept_eq_next.mp ht
    obtain ⟨page, hpage, htap⟩ := bind_eq_ok.mp htap
    split at htap
    · rw [hpage] at htap
      cases htap
      exact hi.goToPage (page + 1)
    · split at htap
      · cases htap
        exact ⟨⟨hi.presented.laidOut, hi.presented.pages_eq⟩, hi.animation⟩
      · cases htap
        exact hi
  | rotate size frame =>
    simp only [SplashPagingViewController.step] at ht
    split at ht
    · next hpinned =>
      obtain ⟨page, hconsistent⟩ := hi.presented.pagingConsistent
      obtain ⟨hlo, hhi⟩ := hconsistent.isPage
      obtain ⟨vc'', hrotate, hpresented, -, -⟩ :=
        hi.presented.rotate hpinned.1 hpinned.2 hconsistent.current hlo (by omega)
      have hanimation : vc''.scrollView.animation = none := by
        obtain ⟨closure, -, h⟩ := bind_eq_ok.mp hrotate
        cases h
        rfl
      rw [hrotate] at ht
      cases ht
      refine ⟨hpresented, fun target h => ?_⟩
      rw [hanimation] at h
      cases h
    · cases ht

/-- Under dragging, Next and rotation: for any number of pages and any width, at every offset
that is reached. -/
theorem always_pagingConsistent {dataSources : List SplashDataSource} (hn : dataSources ≠ [])
    {frame : CGRect} (horigin : frame.origin.x = 0) (hw : 0 < frame.size.width) :
    ∃ vc, appeared dataSources frame = .ok vc ∧ ∀ es : List SplashEvent,
      Always (step dataSources) (fun vc => ∃ page, PagingConsistent dataSources vc page) vc es := by
  obtain ⟨vc, happeared, hi⟩ := pagingInv_appeared hn horigin hw
  refine ⟨vc, happeared, fun es => ?_⟩
  have hinv : Always (step dataSources) (PagingInv dataSources) vc es :=
    always_of_step (fun _ _ _ hi ht => hi.step ht) hi es
  exact hinv.imp fun t ht => ht.presented.pagingConsistent

/-- The four pages of the tutorial on a screen that is 375 points wide. -/
theorem always_pagingConsistent_tutorial :
    ∃ vc, appeared SplashDataSource.defaultDataSources ⟨⟨0, 44⟩, ⟨375, 480⟩⟩ = .ok vc ∧
      ∀ es : List SplashEvent,
        Always (step SplashDataSource.defaultDataSources)
          (fun vc => ∃ page, PagingConsistent SplashDataSource.defaultDataSources vc page) vc es :=
  always_pagingConsistent (List.cons_ne_nil _ _) rfl (by norm_num)

end SplashPagingViewController

end GasNow
