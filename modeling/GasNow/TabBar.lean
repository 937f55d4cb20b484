import GasNow.CartVC
import GasNow.WishlistVC
import GasNow.ProductDetailsVC
import GasNow.OrdersViewController
import GasNow.Machine.Runs

/-!
# The tab bar

Navigation inside `MainTabBarController`: three tabs, each with a stack of screens, and one
flag that the hooks of the screens write. The hooks of a transition run in UIKit's order and
the last write stays.
-/

namespace GasNow

open Machine

/-- The screens inside the tab bar. -/
inductive Screen where
  | homeVC
  | ordersViewController
  | notificationVC
  | cartVC
  | productDetailsVC
  | profileVC
  | updateProfileVC
  | wishlistVC
  | settingsVC
  | notificationListVC
  | splashPagingViewController
  deriving DecidableEq, Repr

namespace Screen

/-! ### What the hooks write to `tabBar.isHidden` -/

def viewDidLoad : Screen → List Bool
  | splashPagingViewController => [true]
  | _ => []

def viewWillAppear : Screen → List Bool
  | homeVC | ordersViewController | notificationVC => [false]
  | cartVC | productDetailsVC | profileVC | updateProfileVC | wishlistVC | settingsVC
  | notificationListVC => [true]
  | splashPagingViewController => []

def viewWillDisappear : Screen → List Bool
  | cartVC | productDetailsVC | profileVC => [false]
  | _ => []

/-- `signOutAction`, before it pushes the splash screen. -/
def signOutAction : Screen → List Bool
  | notificationVC => [true, true]
  | _ => [true]

/-! ### Where the handlers lead -/

/-- The screens that the handlers of a screen push, `signOutAction` apart. -/
def pushes : Screen → List Screen
  | homeVC => [productDetailsVC, profileVC, notificationListVC, cartVC, settingsVC]
  | ordersViewController | notificationVC | cartVC =>
    [profileVC, notificationListVC, cartVC, settingsVC]
  | productDetailsVC => [cartVC, profileVC, notificationVC]
  | profileVC => [wishlistVC, updateProfileVC, cartVC]
  | notificationListVC => [notificationVC]
  | updateProfileVC | wishlistVC | settingsVC | splashPagingViewController => []

/-- The screens whose `openSettingScreen` shows the settings popup. -/
def offersSettings : Screen → Bool
  | homeVC | ordersViewController | notificationVC | cartVC | productDetailsVC => true
  | _ => false

/-- The screens on which the tab bar is meant to be visible. -/
def showsTabBar : Screen → Bool
  | homeVC | ordersViewController | notificationVC => true
  | _ => false

end Screen

/-! ### The hooks of the modelled controllers write as in the table -/

section Handlers

variable {κ : Type} {fx : List (Effect FirestoreRequest κ)}

theorem getUserDocuments_tabBarWrites {user : Option User} {root name : String} {completion : κ}
    (h : getUserDocuments user root name completion = .ok fx) : Effect.tabBarWrites fx = [] := by
  rcases getUserDocuments_cases h with ⟨-, rfl⟩ | ⟨u, c, -, rfl⟩ <;> rfl

theorem appear_tabBarWrites {σ : Type} {user : Option User} {root name : String} {completion : κ}
    {isHidden : Bool} {vc : σ} {r : σ × List (Effect FirestoreRequest κ)}
    (h : (do
        let fx ← getUserDocuments user root name completion
        return (vc, .setTabBarHidden isHidden :: fx)) = Except.ok r) :
    Effect.tabBarWrites r.2 = [isHidden] := by
  obtain ⟨fx, hfx, hr⟩ := appear_eq_ok h
  rw [hr, Effect.tabBarWrites, getUserDocuments_tabBarWrites hfx]

theorem CartVC.viewWillAppear_tabBarWrites {vc vc' : CartVC} {fx : List CartVC.Fx}
    (h : vc.viewWillAppear = .ok (vc', fx)) :
    Effect.tabBarWrites fx = Screen.viewWillAppear .cartVC :=
  appear_tabBarWrites h

theorem WishlistVC.viewWillAppear_tabBarWrites {vc vc' : WishlistVC} {fx : List WishlistVC.Fx}
    (h : vc.viewWillAppear = .ok (vc', fx)) :
    Effect.tabBarWrites fx = Screen.viewWillAppear .wishlistVC :=
  appear_tabBarWrites h

theorem OrdersViewController.viewWillAppear_tabBarWrites {vc vc' : OrdersViewController}
    {fx : List OrdersViewController.Fx} (h : vc.viewWillAppear = .ok (vc', fx)) :
    Effect.tabBarWrites fx = Screen.viewWillAppear .ordersViewController :=
  appear_tabBarWrites h

theorem CartVC.viewWillDisappear_tabBarWrites (vc : CartVC) :
    Effect.tabBarWrites vc.viewWillDisappear.2 = Screen.viewWillDisappear .cartVC := rfl

theorem ProductDetailsVC.viewWillAppear_tabBarWrites (vc : ProductDetailsVC) :
    Effect.tabBarWrites vc.viewWillAppear.2 = Screen.viewWillAppear .productDetailsVC := rfl

theorem ProductDetailsVC.viewWillDisappear_tabBarWrites (vc : ProductDetailsVC) :
    Effect.tabBarWrites vc.viewWillDisappear.2 = Screen.viewWillDisappear .productDetailsVC := rfl

end Handlers

/-- The tabs, by the controllers at their roots. -/
inductive Tab where
  | home
  | orders
  | notification
  deriving DecidableEq, Repr

def Tab.root : Tab → Screen
  | home => .homeVC
  | orders => .ordersViewController
  | notification => .notificationVC

/-- A navigation stack, which is never empty. -/
structure NavigationStack where
  top : Screen
  below : List Screen
  deriving DecidableEq

structure MainTabBarController where
  /-- `tabBar.isHidden` -/
  isHidden : Bool
  selected : Tab
  navigation : Tab → NavigationStack

inductive Transition where
  /-- Another tab is selected; `appearsFirst` tells which of the two hooks runs first. -/
  | select (tab : Tab) (appearsFirst : Bool)
  | push (screen : Screen)
  | pop
  /-- `signOutAction`; whether `Auth.signOut` throws makes no difference here. -/
  | signOut
  deriving DecidableEq

namespace MainTabBarController

def start : MainTabBarController where
  isHidden := false
  selected := .home
  navigation tab := ⟨tab.root, []⟩

def stack (s : MainTabBarController) : NavigationStack := s.navigation s.selected

def top (s : MainTabBarController) : Screen := s.stack.top

/-- `tabBar.isHidden` after some writes. -/
def write (isHidden : Bool) (writes : List Bool) : Bool := writes.getLastD isHidden

/-- The stack of the selected tab becomes `stack`, and hooks write to the flag. -/
def settle (s : MainTabBarController) (stack : NavigationStack) (writes : List Bool) :
    MainTabBarController :=
  { s with
    isHidden := write s.isHidden writes
    navigation := Function.update s.navigation s.selected stack }

def pushWrites (old new : Screen) : List Bool :=
  new.viewDidLoad ++ old.viewWillDisappear ++ new.viewWillAppear

def step (s : MainTabBarController) : Transition → Outcome Trap MainTabBarController
  | .select tab appearsFirst =>
    if s.isHidden = false ∧ tab ≠ s.selected then
      let appear := (s.navigation tab).top.viewWillAppear
      let disappear := s.top.viewWillDisappear
      .next { s with
        selected := tab
        isHidden := write s.isHidden
          (if appearsFirst then appear ++ disappear else disappear ++ appear) }
    else .blocked
  | .push screen =>
    if screen ∈ s.top.pushes then
      .next (s.settle ⟨screen, s.top :: s.stack.below⟩ (pushWrites s.top screen))
    else .blocked
  | .pop =>
    match s.stack.below with
    | [] => .blocked
    | revealed :: below =>
      .next (s.settle ⟨revealed, below⟩ (s.top.viewWillDisappear ++ revealed.viewWillAppear))
  | .signOut =>
    if s.top.offersSettings then
      -- the screen that is left writes last, since the splash screen writes when it is loaded only
      .next (s.settle ⟨.splashPagingViewController, s.top :: s.stack.below⟩
        (s.top.signOutAction ++ pushWrites s.top .splashPagingViewController))
    else .blocked

/-- The tab bar is visible exactly on the screens that it is meant to be visible on. -/
def BarFollowsTop (s : MainTabBarController) : Prop := s.isHidden = !s.top.showsTabBar

/-- Nobody signs out from the cart or from a product, whose `viewWillDisappear` shows the tab
bar again after `signOutAction` has hidden it. -/
def SignsOutElsewhere (s : MainTabBarController) : Transition → Prop
  | .signOut => s.top ≠ .cartVC ∧ s.top ≠ .productDetailsVC
  | _ => True

/-- What navigation keeps as long as the bar follows the top: a tab is left only while it
shows the tab bar, and nothing is ever pushed over the splash screen. -/
structure NavInv (s : MainTabBarController) : Prop where
  others : ∀ tab ≠ s.selected, (s.navigation tab).top.showsTabBar = true
  below : ∀ tab, .splashPagingViewController ∉ (s.navigation tab).below

section Settle

variable (s : MainTabBarController) (stack : NavigationStack) (writes : List Bool)

@[simp] theorem top_settle : (s.settle stack writes).top = stack.top := by
  simp [top, MainTabBarController.stack, settle]

@[simp] theorem isHidden_settle :
    (s.settle stack writes).isHidden = write s.isHidden writes := rfl

theorem NavInv.settle {s : MainTabBarController} (h : NavInv s) {stack : NavigationStack}
    (hbelow : .splashPagingViewController ∉ stack.below) : NavInv (s.settle stack writes) where
  others := by
    intro tab htab
    have htab : tab ≠ s.selected := htab
    simpa [MainTabBarController.settle, Function.update_of_ne htab] using h.others tab htab
  below := by
    intro tab
    by_cases htab : tab = s.selected
    · subst htab
      simpa [MainTabBarController.settle] using hbelow
    · simpa [MainTabBarController.settle, Function.update_of_ne htab] using h.below tab

end Settle

/-- The hooks that run last in a push or pop decide, unless the screen is the splash screen. -/
theorem write_viewWillAppear {screen : Screen} (h : screen ≠ .splashPagingViewController)
    (isHidden : Bool) (writes : List Bool) :
    write isHidden (writes ++ screen.viewWillAppear) = !screen.showsTabBar := by
  cases screen with
  | splashPagingViewController => exact absurd rfl h
  | _ => simp [write, Screen.viewWillAppear, Screen.showsTabBar]

theorem not_splash_of_mem_pushes {old new : Screen} (h : new ∈ old.pushes) :
    new ≠ .splashPagingViewController := by
  rintro rfl
  cases old <;> simp [Screen.pushes] at h

theorem not_splash_of_showsTabBar {screen : Screen} (h : screen.showsTabBar = true) :
    screen ≠ .splashPagingViewController := by
  rintro rfl
  simp [Screen.showsTabBar] at h

theorem not_splash_of_pushes {old new : Screen} (h : new ∈ old.pushes) :
    .splashPagingViewController ≠ old := by
  rintro rfl
  simp [Screen.pushes] at h

theorem viewWillDisappear_of_showsTabBar {screen : Screen} (h : screen.showsTabBar = true) :
    screen.viewWillDisappear = [] := by
  cases screen <;> simp_all [Screen.showsTabBar, Screen.viewWillDisappear]

/-- Signing out hides the bar for the splash screen from the screens that do not show the bar
again when they disappear. -/
theorem write_signOut {screen : Screen} (h : screen.offersSettings = true) (isHidden : Bool) :
    write isHidden (screen.signOutAction ++ pushWrites screen .splashPagingViewController) = true ↔
      screen ≠ .cartVC ∧ screen ≠ .productDetailsVC := by
  cases screen <;> simp_all [Screen.offersSettings, Screen.signOutAction, pushWrites,
    Screen.viewDidLoad, Screen.viewWillDisappear, Screen.viewWillAppear, write]

theorem navInv_start : NavInv start where
  others := by
    intro tab _
    cases tab <;> rfl
  below := by simp [start]

/-- A tab that is left shows the bar, so the hook of the tab that appears decides. -/
theorem step_select {s t : MainTabBarController} {tab : Tab} {appearsFirst : Bool}
    (hi : NavInv s) (hbar : BarFollowsTop s) (ht : step s (.select tab appearsFirst) = .next t) :
    s.top.showsTabBar = true ∧ (s.navigation tab).top.showsTabBar = true ∧
      t = { s with selected := tab, isHidden := false } := by
  simp only [step] at ht
  split at ht
  · next h =>
    obtain ⟨hvisible, hne⟩ := h
    have hold : s.top.showsTabBar = true := by simpa [BarFollowsTop, hvisible] using hbar
    have hnew := hi.others tab hne
    refine ⟨hold, hnew, ?_⟩
    have hwrite := write_viewWillAppear (not_splash_of_showsTabBar hnew) s.isHidden []
    rw [List.nil_append, hnew] at hwrite
    simp only [viewWillDisappear_of_showsTabBar hold, List.append_nil, List.nil_append, ite_self,
      hwrite] at ht
    exact (Outcome.next.inj ht).symm
  · cases ht

theorem NavInv.step {s t : MainTabBarController} {e : Transition} (hi : NavInv s)
    (hbar : BarFollowsTop s) (ht : MainTabBarController.step s e = .next t) : NavInv t := by
  cases e with
  | select tab appearsFirst =>
    obtain ⟨hold, -, rfl⟩ := step_select hi hbar ht
    refine ⟨fun tab' htab' => ?_, hi.below⟩
    by_cases h : tab' = s.selected
    · subst h
      exact hold
    · exact hi.others tab' h
  | push screen =>
    simp only [MainTabBarController.step] at ht
    split at ht
    · next hmem =>
      cases ht
      refine hi.settle _ ?_
      rw [List.mem_cons, not_or]
      exact ⟨not_splash_of_pushes hmem, hi.below s.selected⟩
    · cases ht
  | pop =>
    simp only [MainTabBarController.step] at ht
    split at ht
    · cases ht
    · next revealed below hbelow =>
      cases ht
      refine hi.settle _ fun hmem => hi.below s.selected ?_
      rw [← MainTabBarController.stack, hbelow]
      exact List.mem_cons_of_mem _ hmem
  | signOut =>
    simp only [MainTabBarController.step] at ht
    split at ht
    · next hoffers =>
      cases ht
      refine hi.settle _ ?_
      rw [List.mem_cons, not_or]
      refine ⟨fun h => ?_, hi.below s.selected⟩
      rw [← h] at hoffers
      cases hoffers
    · cases ht

theorem step_barFollowsTop_iff {s t : MainTabBarController} {e : Transition} (hi : NavInv s)
    (hbar : BarFollowsTop s) (ht : step s e = .next t) :
    BarFollowsTop t ↔ SignsOutElsewhere s e := by
  cases e with
  | select tab appearsFirst =>
    obtain ⟨-, hnew, rfl⟩ := step_select hi hbar ht
    refine iff_of_true ?_ trivial
    simpa [BarFollowsTop, top, stack] using hnew
  | push screen =>
    simp only [step] at ht
    split at ht
    · next hmem =>
      cases ht
      refine iff_of_true ?_ trivial
      rw [BarFollowsTop, top_settle, isHidden_settle, pushWrites,
        write_viewWillAppear (not_splash_of_mem_pushes hmem)]
    · cases ht
  | pop =>
    simp only [step] at ht
    split at ht
    · cases ht
    · next revealed below hbelow =>
      cases ht
      have hrevealed : revealed ≠ .splashPagingViewController := by
        rintro rfl
        exact hi.below s.selected (hbelow ▸ List.mem_cons_self)
      refine iff_of_true ?_ trivial
      rw [BarFollowsTop, top_settle, isHidden_settle, write_viewWillAppear hrevealed]
  | signOut =>
    simp only [step] at ht
    split at ht
    · next hoffers =>
      cases ht
      rw [BarFollowsTop, top_settle, isHidden_settle, SignsOutElsewhere,
        ← write_signOut hoffers s.isHidden]
      rfl
    · cases ht

/-- After every transition of a run the tab bar is visible exactly on the screens that it is
meant to be visible on, if and only if nobody signs out from the cart or from a product in it. -/
theorem barFollowsTop_iff_signsOutElsewhere (es : List Transition) :
    Always step BarFollowsTop start es ↔ Meets step SignsOutElsewhere start es := by
  apply always_iff_meets (I := NavInv) (E := fun _ => True)
  · intro s e t _ hi hbar _ ht
    exact hi.step hbar ht
  · intro s e t _ hi hbar ht
    exact step_barFollowsTop_iff hi hbar ht
  · exact navInv_start
  · rfl
  · intro e _
    trivial

/-- Signing out from the cart leaves the tab bar visible on the splash screen. -/
theorem signOut_from_cart_shows_bar :
    ¬∀ es : List Transition, Always step BarFollowsTop start es := by
  intro h
  have hlast := (h [.push .cartVC, .signOut]).last rfl
  revert hlast
  simp [BarFollowsTop]
  decide

end MainTabBarController

end GasNow
