import GasNow.ProductInformation

/-!
# What a handler does besides changing its controller

A handler is a function of the controller's stored properties and of its arguments. Besides
the new properties it returns its effects in the order in which it causes them. `ρ` is the
type of the calls it starts and `κ` the type of its closures: what a call's completion or an
alert's action captures.
-/

namespace GasNow

inductive Effect (ρ κ : Type*) where
  /-- `SharedManager.sharedInstance.showProgressHUD(on:)` -/
  | showProgressHUD
  /-- `SharedManager.sharedInstance.hideProgressHUD()` -/
  | hideProgressHUD
  /-- `tabBarController?.tabBar.isHidden = isHidden` -/
  | setTabBarHidden (isHidden : Bool)
  /-- An asynchronous call and its completion handler. -/
  | request (r : ρ) (completion : κ)
  /-- `UIAlertController.popupAlert`, whose destructive action is `action` and whose other
  action does nothing. -/
  | popupAlert (action : κ)
  /-- `UIAlertController.showErrorDailog(message:)` -/
  | showErrorDailog (message : String)
  /-- `reloadData()` of the screen's table. -/
  | reloadData
  /-- A push of `OrderDetails` with these `orderItems`. -/
  | pushOrderDetails (orderItems : List ProductInformation)
  deriving DecidableEq

namespace Effect

variable {ρ κ : Type*}

def requests : List (Effect ρ κ) → List (ρ × κ)
  | [] => []
  | .request r k :: fx => (r, k) :: requests fx
  | _ :: fx => requests fx

theorem requests_eq_nil {fx : List (Effect ρ κ)} (h : ∀ e ∈ fx, ∀ r k, e ≠ .request r k) :
    requests fx = [] := by
  induction fx with
  | nil => rfl
  | cons e fx ih =>
    obtain ⟨he, hfx⟩ := List.forall_mem_cons.mp h
    cases e with
    | request r k => exact absurd rfl (he r k)
    | _ => exact ih hfx

def alerts : List (Effect ρ κ) → List κ
  | [] => []
  | .popupAlert k :: fx => k :: alerts fx
  | _ :: fx => alerts fx

def orderDetails : List (Effect ρ κ) → List (List ProductInformation)
  | [] => []
  | .pushOrderDetails items :: fx => items :: orderDetails fx
  | _ :: fx => orderDetails fx

/-- The writes to the tab bar's `isHidden`. -/
def tabBarWrites : List (Effect ρ κ) → List Bool
  | [] => []
  | .setTabBarHidden isHidden :: fx => isHidden :: tabBarWrites fx
  | _ :: fx => tabBarWrites fx

/-- The calls on the progress HUD, `true` for show and `false` for hide. -/
def hudCalls : List (Effect ρ κ) → List Bool
  | [] => []
  | .showProgressHUD :: fx => true :: hudCalls fx
  | .hideProgressHUD :: fx => false :: hudCalls fx
  | _ :: fx => hudCalls fx

theorem hudCalls_eq_nil {fx : List (Effect ρ κ)}
    (h : ∀ e ∈ fx, e ≠ .showProgressHUD ∧ e ≠ .hideProgressHUD) : hudCalls fx = [] := by
  induction fx with
  | nil => rfl
  | cons e fx ih =>
    obtain ⟨he, hfx⟩ := List.forall_mem_cons.mp h
    cases e with
    | showProgressHUD => exact absurd rfl he.1
    | hideProgressHUD => exact absurd rfl he.2
    | _ => exact ih hfx

def reloads : List (Effect ρ κ) → Bool
  | [] => false
  | .reloadData :: _ => true
  | _ :: fx => reloads fx

end Effect

/-- The cells of a table as the last `reloadData` left them: the button of each displayed
row, what the row shows, and the tag of every button. -/
structure TableView (α : Type*) where
  displayed : List (Nat × α)
  tag : Nat → Nat

namespace TableView

variable {α : Type*}

/-- No row is displayed yet and every button has tag `0`. -/
def initial : TableView α := ⟨[], fun _ => 0⟩

/-- `reloadData()`: row `i` is dequeued the cell of button `buttons[i]`, shows `rows[i]`, and
`cellForRowAt` sets the button's tag to `i`. Buttons out of view keep their tag. -/
def reloadData (t : TableView α) (rows : List α) (buttons : List Nat) : TableView α where
  displayed := buttons.zip rows
  tag b := if b ∈ buttons then buttons.idxOf b else t.tag b

/-- A deal of cells to rows: one cell for each row, no cell twice. -/
def Deals (buttons : List Nat) (rows : List α) : Prop :=
  buttons.length = rows.length ∧ buttons.Nodup

instance (buttons : List Nat) (rows : List α) : Decidable (Deals buttons rows) :=
  inferInstanceAs (Decidable (_ ∧ _))

end TableView

end GasNow
