import Mathlib.Data.List.Basic

/-!
# `SharedManager`

The one progress HUD of the app: showing hides the held HUD and holds a fresh one, hiding
hides the held one.
-/

namespace GasNow

/-- The HUDs on screen are at most the one that the manager holds. -/
structure SharedManager where
  /-- `progressHUDView` -/
  progressHUDView : Nat
  onScreen : List Nat
  next : Nat
  held : ∀ hud ∈ onScreen, hud = progressHUDView

namespace SharedManager

/-- The manager at launch, whose first HUD is not on screen. -/
def sharedInstance : SharedManager := ⟨0, [], 1, by simp⟩

def hideProgressHUD (m : SharedManager) : SharedManager where
  progressHUDView := m.progressHUDView
  onScreen := m.onScreen.filter (· ≠ m.progressHUDView)
  next := m.next
  held hud h := m.held hud (List.mem_of_mem_filter h)

theorem hideProgressHUD_onScreen (m : SharedManager) : m.hideProgressHUD.onScreen = [] := by
  rw [hideProgressHUD, List.filter_eq_nil_iff]
  intro hud hmem
  simp [m.held hud hmem]

def showProgressHUD (m : SharedManager) : SharedManager where
  progressHUDView := m.next
  onScreen := m.next :: m.hideProgressHUD.onScreen
  next := m.next + 1
  held := by simp [hideProgressHUD_onScreen]

def isShown (m : SharedManager) : Bool := !m.onScreen.isEmpty

/-- The calls of a handler, `true` for show and `false` for hide. -/
def run (m : SharedManager) (calls : List Bool) : SharedManager :=
  calls.foldl (fun m show' => if show' then m.showProgressHUD else m.hideProgressHUD) m

@[simp] theorem isShown_sharedInstance : sharedInstance.isShown = false := rfl

@[simp] theorem isShown_showProgressHUD (m : SharedManager) :
    m.showProgressHUD.isShown = true := rfl

@[simp] theorem isShown_hideProgressHUD (m : SharedManager) :
    m.hideProgressHUD.isShown = false := by
  simp [isShown, hideProgressHUD_onScreen]

theorem isShown_run (m : SharedManager) (calls : List Bool) :
    (m.run calls).isShown = calls.getLastD m.isShown := by
  induction calls generalizing m with
  | nil => rfl
  | cons call calls ih =>
    have hrun : m.run (call :: calls) =
        (if call then m.showProgressHUD else m.hideProgressHUD).run calls := rfl
    rw [hrun, ih, List.getLastD_cons]
    congr 1
    cases call <;> simp

end SharedManager

end GasNow
