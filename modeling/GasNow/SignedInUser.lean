import GasNow.CartVC
import GasNow.WishlistVC
import GasNow.ProductDetailsVC
import GasNow.OrdersViewController
import GasNow.Machine.Runs

/-!
# Whose documents the screens ask for

Runs of any number of cart, wishlist, product and orders screens while users sign in and out.
A screen that has been closed stays in the state: its completions still run, and it simply does
not appear again.
-/

namespace GasNow

open Machine

/-- A controller with its table, its open alerts and its outstanding calls. -/
structure Live (σ κ : Type) where
  vc : σ
  table : TableView ProductInformation
  alerts : List κ
  calls : List κ

namespace Live

variable {σ κ : Type}

def create (vc : σ) : Live σ κ := ⟨vc, TableView.initial, [], []⟩

/-- A handler has run: its alerts are open and its calls outstanding. A reload deals `buttons`
to `rows`, the rows that have a button. -/
def run (live : Live σ κ) (rows : σ → List ProductInformation) (buttons : List Nat) :
    Except Trap (σ × List (Effect FirestoreRequest κ)) →
      Outcome Trap (Live σ κ × List FirestoreRequest)
  | .error t => .trap t
  | .ok (vc, fx) =>
    if Effect.reloads fx = true ∧ ¬TableView.Deals buttons (rows vc) then .blocked
    else
      .next ({
        vc
        table := if Effect.reloads fx then live.table.reloadData (rows vc) buttons else live.table
        alerts := live.alerts ++ Effect.alerts fx
        calls := live.calls ++ (Effect.requests fx).map (·.2) }, (Effect.requests fx).map (·.1))

end Live

/-- An instance of one of the screens. -/
inductive Instance where
  | cart (live : Live CartVC CartVC.Closure)
  | wishlist (live : Live WishlistVC WishlistVC.Closure)
  | product (live : Live ProductDetailsVC ProductDetailsVC.Closure)
  | orders (live : Live OrdersViewController OrdersViewController.Closure)

/-- What UIKit, the user and Firestore do to a screen. -/
inductive ScreenEvent where
  | viewWillAppear
  | viewWillDisappear
  /-- A tap on the button of the `row`-th displayed cell. -/
  | tapRow (row : Nat)
  /-- The delete action of the `i`-th open alert. -/
  | confirm (i : Nat)
  | cancel (i : Nat)
  | checkOutNow
  | removeProduct
  | addProduct
  | addToCart
  | buyNowAction
  | wishlistButtonAction
  /-- The `i`-th outstanding call, a `getDocuments`, completes; a reload deals `buttons`. -/
  | getDocumentsCompleted (i : Nat) (result : QueryResult) (buttons : List Nat)
  /-- The `i`-th outstanding call, a `setData`, completes. -/
  | setDataCompleted (i : Nat) (err : Option NSError)
  /-- The `i`-th outstanding call, a `delete`, completes; a reload deals `buttons`. -/
  | deleteCompleted (i : Nat) (err : Option NSError) (buttons : List Nat)

/-- What `e` does to a screen while `currentUser` is signed in, with the requests it issues. -/
abbrev Handles (σ κ : Type) :=
  Option User → Live σ κ → ScreenEvent → Outcome Trap (Live σ κ × List FirestoreRequest)

def CartVC.handle : Handles CartVC CartVC.Closure := fun _ live e =>
  let run (live : Live CartVC CartVC.Closure) := live.run (·.productList)
  match e with
  | .viewWillAppear => run live [] live.vc.viewWillAppear
  | .viewWillDisappear => run live [] (.ok live.vc.viewWillDisappear)
  | .tapRow row =>
    match live.table.displayed[row]? with
    | some (sender, _) => run live [] (.ok (live.vc, deleteItem sender))
    | none => .blocked
  | .confirm i =>
    match live.alerts[i]? with
    | some (.deleteAction sender) =>
      run { live with alerts := live.alerts.eraseIdx i } []
        ((live.vc, ·) <$> live.vc.deleteAction sender (live.table.tag sender))
    | _ => .blocked
  | .cancel i =>
    if i < live.alerts.length then
      run { live with alerts := live.alerts.eraseIdx i } [] (.ok (live.vc, []))
    else .blocked
  | .checkOutNow => run live [] (.ok (live.vc, live.vc.checkOutNow))
  | .getDocumentsCompleted i result buttons =>
    if live.calls[i]? = some .getDocuments then
      run { live with calls := live.calls.eraseIdx i } buttons
        (live.vc.getDocumentsCompleted result)
    else .blocked
  | .deleteCompleted i err buttons =>
    match live.calls[i]? with
    | some (.delete sender) =>
      run { live with calls := live.calls.eraseIdx i } buttons
        (live.vc.deleteCompleted (live.table.tag sender) err)
    | _ => .blocked
  | _ => .blocked

def WishlistVC.handle : Handles WishlistVC WishlistVC.Closure := fun currentUser live e =>
  let run (live : Live WishlistVC WishlistVC.Closure) := live.run (·.productList)
  match e with
  | .viewWillAppear => run live [] live.vc.viewWillAppear
  | .viewWillDisappear => run live [] (.ok (live.vc, []))
  | .tapRow row =>
    match live.table.displayed[row]? with
    | some (sender, _) =>
      run live []
        ((live.vc, ·) <$> live.vc.itemAddtoCart currentUser sender (live.table.tag sender))
    | none => .blocked
  | .confirm i =>
    match live.alerts[i]? with
    | some (.deleteAction sender) =>
      run { live with alerts := live.alerts.eraseIdx i } []
        ((live.vc, ·) <$> live.vc.removeItemAPI (live.table.tag sender))
    | _ => .blocked
  | .cancel i =>
    if i < live.alerts.length then
      run { live with alerts := live.alerts.eraseIdx i } [] (.ok (live.vc, []))
    else .blocked
  | .getDocumentsCompleted i result buttons =>
    if live.calls[i]? = some .getDocuments then
      run { live with calls := live.calls.eraseIdx i } buttons
        (live.vc.getDocumentsCompleted result)
    else .blocked
  | .setDataCompleted i err =>
    match live.calls[i]? with
    | some (.setData sender) =>
      run { live with calls := live.calls.eraseIdx i } []
        ((live.vc, ·) <$> live.vc.setDataCompleted live.table sender err)
    | _ => .blocked
  | .deleteCompleted i err buttons =>
    match live.calls[i]? with
    | some (.delete index) =>
      run { live with calls := live.calls.eraseIdx i } buttons (live.vc.deleteCompleted index err)
    | _ => .blocked
  | _ => .blocked

def ProductDetailsVC.handle : Handles ProductDetailsVC ProductDetailsVC.Closure :=
  fun currentUser live e =>
  let run (live : Live ProductDetailsVC ProductDetailsVC.Closure) := live.run (fun _ => []) []
  match e with
  | .viewWillAppear => run live (.ok live.vc.viewWillAppear)
  | .viewWillDisappear => run live (.ok live.vc.viewWillDisappear)
  | .removeProduct => run live ((·, []) <$> live.vc.removeProduct)
  | .addProduct => run live ((·, []) <$> live.vc.addProduct)
  | .addToCart => run live ((live.vc, ·) <$> live.vc.addToCart currentUser)
  | .wishlistButtonAction => run live ((live.vc, ·) <$> live.vc.wishlistButtonAction currentUser)
  | .buyNowAction => run live live.vc.buyNowAction
  | .setDataCompleted i err =>
    match live.calls[i]? with
    | some completion =>
      run { live with calls := live.calls.eraseIdx i }
        (.ok (live.vc, setDataCompleted completion err))
    | none => .blocked
  | _ => .blocked

/-- No row of the orders screen has a button. -/
def OrdersViewController.handle : Handles OrdersViewController OrdersViewController.Closure :=
  fun _ live e =>
  let run (live : Live OrdersViewController OrdersViewController.Closure) := live.run (fun _ => [])
  match e with
  | .viewWillAppear => run live [] live.vc.viewWillAppear
  | .viewWillDisappear => run live [] (.ok (live.vc, []))
  | .getDocumentsCompleted i result buttons =>
    if live.calls[i]? = some .getDocuments then
      run { live with calls := live.calls.eraseIdx i } buttons
        (live.vc.getDocumentsCompleted result)
    else .blocked
  | _ => .blocked

namespace Instance

def handle (currentUser : Option User) :
    Instance → ScreenEvent → Outcome Trap (Instance × List FirestoreRequest)
  | .cart live, e => (CartVC.handle currentUser live e).bind fun r => .next (.cart r.1, r.2)
  | .wishlist live, e =>
    (WishlistVC.handle currentUser live e).bind fun r => .next (.wishlist r.1, r.2)
  | .product live, e =>
    (ProductDetailsVC.handle currentUser live e).bind fun r => .next (.product r.1, r.2)
  | .orders live, e =>
    (OrdersViewController.handle currentUser live e).bind fun r => .next (.orders r.1, r.2)

/-- The user that a handler takes from the stored property to address a request. -/
def captured : Instance → ScreenEvent → Option User
  | .cart live, .viewWillAppear | .cart live, .confirm _ => live.vc.user
  | .wishlist live, .viewWillAppear | .wishlist live, .confirm _ => live.vc.user
  | .wishlist live, .setDataCompleted i none =>
    match live.calls[i]? with
    | some (.setData sender) =>
      -- only the button of the row goes on to delete without asking
      if live.table.cellForRow (live.table.tag sender) = some sender then live.vc.user else none
    | _ => none
  | .orders live, .viewWillAppear => live.vc.user
  | _, _ => none

end Instance

structure App where
  /-- `Auth.auth().currentUser` -/
  currentUser : Option User
  instances : List Instance
  /-- Every request issued so far, with the user signed in at that moment. -/
  issued : List (FirestoreRequest × Option User)

inductive AppEvent where
  | signIn (user : User)
  /-- A screen's `signOutAction`; `Auth` may throw and keep the user. -/
  | signOutAction (throws : Bool)
  | createCartVC
  | createWishlistVC
  /-- A product screen, with the labels of its storyboard. -/
  | createProductDetailsVC (vc : ProductDetailsVC)
  | createOrdersViewController
  /-- An event of the `i`-th instance. -/
  | screen (i : Nat) (e : ScreenEvent)

/-- The user id that a path of the screens contains. -/
def FirestoreRequest.userId (r : FirestoreRequest) : Option String := r.path[1]?

/-! ### Which handlers ask for whose documents -/

/-- One request for the documents of `user`, and none if there is no user. -/
def AddressedTo (requests : List FirestoreRequest) (user : Option User) : Prop :=
  requests.map (·.userId) = user.toList.map fun u => some u.uid

section Handlers

variable {κ : Type} {user : Option User} {name : String} {fx : List (Effect FirestoreRequest κ)}

theorem getUserDocuments_addressedTo {root : String} {k : κ} (hr : IsSegment root)
    (hn : IsSegment name) (h : getUserDocuments user root name k = .ok fx) :
    AddressedTo ((Effect.requests fx).map (·.1)) user := by
  cases user with
  | none =>
    obtain rfl := Except.ok.inj h
    rfl
  | some u =>
    rw [getUserDocuments_some u hr hn] at h
    obtain rfl := Except.ok.inj h
    rfl

theorem setUserDocument_addressedTo {docData : DocData} {k : κ} (hn : IsSegment name)
    (h : setUserDocument user name docData k = .ok fx) :
    AddressedTo ((Effect.requests fx).map (·.1)) user := by
  cases user with
  | none =>
    rw [setUserDocument_none] at h
    cases h
  | some u =>
    rw [setUserDocument_some u hn] at h
    obtain rfl := Except.ok.inj h
    rfl

theorem deleteUserDocument_addressedTo {documentId : String} {k : κ} (hn : IsSegment name)
    (h : deleteUserDocument user name documentId k = .ok fx) :
    AddressedTo ((Effect.requests fx).map (·.1)) user := by
  cases user with
  | none =>
    rw [deleteUserDocument_none] at h
    cases h
  | some u =>
    obtain ⟨c, d, hc, hd, rfl⟩ := deleteUserDocument_cases h
    rw [uidOrEmpty, Option.map_some, Option.getD_some,
      userCollection_segment (by decide) u.uid_segment hn] at hc
    obtain rfl := Except.ok.inj hc
    obtain ⟨segments, hpath⟩ := CollectionReference.document_path hd
    show [d.path[1]?] = [some u.uid]
    rw [hpath]
    rfl

end Handlers

theorem Live.run_eq_next {σ κ : Type} {live live' : Live σ κ} {rows : σ → List ProductInformation}
    {buttons : List Nat} {handled : Except Trap (σ × List (Effect FirestoreRequest κ))}
    {requests : List FirestoreRequest}
    (h : live.run rows buttons handled = .next (live', requests)) :
    ∃ vc fx, handled = .ok (vc, fx) ∧ requests = (Effect.requests fx).map (·.1) := by
  cases handled with
  | error t => cases h
  | ok r =>
    obtain ⟨vc, fx⟩ := r
    refine ⟨vc, fx, rfl, ?_⟩
    simp only [Live.run] at h
    split at h
    · cases h
    · exact (Prod.mk.inj (Outcome.next.inj h)).2.symm

theorem Live.run_ok_eq_next {σ κ : Type} {live live' : Live σ κ}
    {rows : σ → List ProductInformation} {buttons : List Nat} {vc : σ}
    {fx : List (Effect FirestoreRequest κ)} {requests : List FirestoreRequest}
    (h : live.run rows buttons (.ok (vc, fx)) = .next (live', requests)) :
    requests = (Effect.requests fx).map (·.1) := by
  obtain ⟨vc', fx', hpair, hrequests⟩ := Live.run_eq_next h
  obtain ⟨-, rfl⟩ := Prod.mk.inj (Except.ok.inj hpair)
  exact hrequests

/-- A handler that leaves its controller and may trap. -/
theorem Live.run_map_eq_next {σ κ : Type} {live live' : Live σ κ}
    {rows : σ → List ProductInformation} {buttons : List Nat} {vc : σ}
    {handled : Except Trap (List (Effect FirestoreRequest κ))} {requests : List FirestoreRequest}
    (h : live.run rows buttons ((vc, ·) <$> handled) = .next (live', requests)) :
    ∃ fx, handled = .ok fx ∧ requests = (Effect.requests fx).map (·.1) := by
  obtain ⟨vc', fx, hmap, hrequests⟩ := Live.run_eq_next h
  obtain ⟨gx, hgx, hpair⟩ := map_eq_ok.mp hmap
  obtain ⟨-, rfl⟩ := Prod.mk.inj hpair
  exact ⟨gx, hgx, hrequests⟩

theorem addressedTo_appear {σ κ : Type} {user : Option User} {root name : String} {k : κ}
    {isHidden : Bool} {live live' : Live σ κ} {rows : σ → List ProductInformation}
    {requests : List FirestoreRequest} (hr : IsSegment root) (hn : IsSegment name)
    (h : live.run rows [] (do
        let fx ← getUserDocuments user root name k
        return (live.vc, .setTabBarHidden isHidden :: fx)) = .next (live', requests)) :
    AddressedTo requests user := by
  obtain ⟨vc, fx, hvc, rfl⟩ := Live.run_eq_next h
  obtain ⟨gx, hgx, hfx⟩ := appear_eq_ok hvc
  obtain rfl : fx = .setTabBarHidden isHidden :: gx := hfx
  show AddressedTo ((Effect.requests gx).map (·.1)) user
  exact getUserDocuments_addressedTo hr hn hgx

theorem WishlistVC.removeItemAPI_addressedTo {vc : WishlistVC} {index : Nat}
    {fx : List WishlistVC.Fx} (h : vc.removeItemAPI index = .ok fx) :
    AddressedTo ((Effect.requests fx).map (·.1)) vc.user := by
  obtain ⟨obj, -, hdelete⟩ := bind_eq_ok.mp h
  exact deleteUserDocument_addressedTo (by decide) hdelete

/-- The cart screen asks through its stored property only. -/
theorem CartVC.handle_addressedTo {currentUser : Option User}
    {live live' : Live CartVC CartVC.Closure} {e : ScreenEvent} {requests : List FirestoreRequest}
    (h : CartVC.handle currentUser live e = .next (live', requests)) :
    AddressedTo requests ((Instance.cart live).captured e) := by
  cases e with
  | viewWillAppear => exact addressedTo_appear (by decide) (by decide) h
  | viewWillDisappear =>
    simp only [CartVC.handle] at h
    obtain rfl := Live.run_ok_eq_next h
    rfl
  | tapRow row =>
    simp only [CartVC.handle] at h
    split at h
    · obtain rfl := Live.run_ok_eq_next h
      rfl
    · cases h
  | confirm i =>
    simp only [CartVC.handle] at h
    split at h
    · obtain ⟨fx, hfx, rfl⟩ := Live.run_map_eq_next h
      obtain ⟨obj, -, hdelete⟩ := bind_eq_ok.mp hfx
      exact deleteUserDocument_addressedTo (by decide) hdelete
    · cases h
  | cancel i =>
    simp only [CartVC.handle] at h
    split at h
    · obtain rfl := Live.run_ok_eq_next h
      rfl
    · cases h
  | checkOutNow =>
    simp only [CartVC.handle] at h
    obtain rfl := Live.run_ok_eq_next h
    rfl
  | getDocumentsCompleted i result buttons =>
    simp only [CartVC.handle] at h
    split at h
    · obtain ⟨vc, fx, hvc, rfl⟩ := Live.run_eq_next h
      obtain ⟨objs, -, -, rfl⟩ := CartVC.getDocumentsCompleted_eq_ok.mp hvc
      rfl
    · cases h
  | deleteCompleted i err buttons =>
    simp only [CartVC.handle] at h
    split at h
    · obtain ⟨vc, fx, hvc, rfl⟩ := Live.run_eq_next h
      rcases CartVC.deleteCompleted_cases hvc with rfl | rfl <;> rfl
    · cases h
  | _ => cases h

/-- The wishlist screen asks through its stored property, or asks `Auth` to write to the cart. -/
theorem WishlistVC.handle_addressedTo {currentUser : Option User}
    {live live' : Live WishlistVC WishlistVC.Closure} {e : ScreenEvent}
    {requests : List FirestoreRequest}
    (h : WishlistVC.handle currentUser live e = .next (live', requests)) :
    AddressedTo requests ((Instance.wishlist live).captured e) ∨
      (Instance.wishlist live).captured e = none ∧ AddressedTo requests currentUser := by
  cases e with
  | viewWillAppear => exact .inl (addressedTo_appear (by decide) (by decide) h)
  | viewWillDisappear =>
    simp only [WishlistVC.handle] at h
    obtain rfl := Live.run_ok_eq_next h
    exact .inl rfl
  | tapRow row =>
    simp only [WishlistVC.handle] at h
    split at h
    · obtain ⟨fx, hfx, rfl⟩ := Live.run_map_eq_next h
      obtain ⟨item, -, hwrite⟩ := bind_eq_ok.mp hfx
      exact .inr ⟨rfl, setUserDocument_addressedTo (by decide) hwrite⟩
    · cases h
  | confirm i =>
    simp only [WishlistVC.handle] at h
    split at h
    · obtain ⟨fx, hfx, rfl⟩ := Live.run_map_eq_next h
      exact .inl (WishlistVC.removeItemAPI_addressedTo hfx)
    · cases h
  | cancel i =>
    simp only [WishlistVC.handle] at h
    split at h
    · obtain rfl := Live.run_ok_eq_next h
      exact .inl rfl
    · cases h
  | getDocumentsCompleted i result buttons =>
    simp only [WishlistVC.handle] at h
    split at h
    · obtain ⟨vc, fx, hvc, rfl⟩ := Live.run_eq_next h
      obtain ⟨objs, -, -, rfl⟩ := WishlistVC.getDocumentsCompleted_eq_ok.mp hvc
      exact .inl rfl
    · cases h
  | setDataCompleted i err =>
    simp only [WishlistVC.handle] at h
    split at h
    · next sender hcall =>
      obtain ⟨fx, hfx, rfl⟩ := Live.run_map_eq_next h
      left
      cases err with
      | some e =>
        obtain rfl := Except.ok.inj hfx
        rfl
      | none =>
        simp only [Instance.captured, hcall]
        -- the completion goes on to delete only behind the button of the row
        rcases WishlistVC.setDataCompleted_none_cases hfx with ⟨hown, gx, hgx, rfl⟩ | ⟨hother, rfl⟩
        · rw [if_pos hown]
          obtain ⟨obj, -, hdelete⟩ := bind_eq_ok.mp hgx
          have haddressed := deleteUserDocument_addressedTo (by decide) hdelete
          obtain ⟨c, d, -, -, rfl⟩ := deleteUserDocument_cases hdelete
          exact haddressed
        · rw [if_neg hother]
          rfl
    · cases h
  | deleteCompleted i err buttons =>
    simp only [WishlistVC.handle] at h
    split at h
    · obtain ⟨vc, fx, hvc, rfl⟩ := Live.run_eq_next h
      rcases WishlistVC.deleteCompleted_cases hvc with rfl | rfl <;> exact .inl rfl
    · cases h
  | _ => cases h

/-- The product screen asks `Auth` whenever it writes. -/
theorem ProductDetailsVC.handle_addressedTo {currentUser : Option User}
    {live live' : Live ProductDetailsVC ProductDetailsVC.Closure} {e : ScreenEvent}
    {requests : List FirestoreRequest}
    (h : ProductDetailsVC.handle currentUser live e = .next (live', requests)) :
    AddressedTo requests none ∨ AddressedTo requests currentUser := by
  cases e with
  | viewWillAppear =>
    simp only [ProductDetailsVC.handle] at h
    obtain rfl := Live.run_ok_eq_next h
    exact .inl rfl
  | viewWillDisappear =>
    simp only [ProductDetailsVC.handle] at h
    obtain rfl := Live.run_ok_eq_next h
    exact .inl rfl
  | removeProduct =>
    obtain ⟨vc, fx, hvc, rfl⟩ := Live.run_eq_next h
    obtain ⟨vc', -, hpair⟩ := map_eq_ok.mp hvc
    obtain ⟨-, rfl⟩ := Prod.mk.inj hpair
    exact .inl rfl
  | addProduct =>
    obtain ⟨vc, fx, hvc, rfl⟩ := Live.run_eq_next h
    obtain ⟨vc', -, hpair⟩ := map_eq_ok.mp hvc
    obtain ⟨-, rfl⟩ := Prod.mk.inj hpair
    exact .inl rfl
  | addToCart =>
    obtain ⟨fx, hfx, rfl⟩ := Live.run_map_eq_next h
    obtain ⟨docData, -, hwrite⟩ := bind_eq_ok.mp hfx
    exact .inr (setUserDocument_addressedTo (by decide) hwrite)
  | wishlistButtonAction =>
    obtain ⟨fx, hfx, rfl⟩ := Live.run_map_eq_next h
    obtain ⟨docData, -, hwrite⟩ := bind_eq_ok.mp hfx
    exact .inr (setUserDocument_addressedTo (by decide) hwrite)
  | buyNowAction =>
    obtain ⟨vc, fx, hvc, rfl⟩ := Live.run_eq_next h
    obtain ⟨qty, -, hpair⟩ := bind_eq_ok.mp hvc
    obtain ⟨-, rfl⟩ := Prod.mk.inj (Except.ok.inj hpair)
    exact .inl rfl
  | setDataCompleted i err =>
    simp only [ProductDetailsVC.handle] at h
    split at h
    · next completion hcall =>
      obtain rfl := Live.run_ok_eq_next h
      cases err <;> cases completion <;> exact .inl rfl
    · cases h
  | _ => cases h

/-- The orders screen asks through its stored property only. -/
theorem OrdersViewController.handle_addressedTo {currentUser : Option User}
    {live live' : Live OrdersViewController OrdersViewController.Closure} {e : ScreenEvent}
    {requests : List FirestoreRequest}
    (h : OrdersViewController.handle currentUser live e = .next (live', requests)) :
    AddressedTo requests ((Instance.orders live).captured e) := by
  cases e with
  | viewWillAppear => exact addressedTo_appear (by decide) (by decide) h
  | viewWillDisappear =>
    simp only [OrdersViewController.handle] at h
    obtain rfl := Live.run_ok_eq_next h
    rfl
  | getDocumentsCompleted i result buttons =>
    simp only [OrdersViewController.handle] at h
    split at h
    · obtain ⟨vc, fx, hvc, rfl⟩ := Live.run_eq_next h
      obtain ⟨items, -, -, rfl⟩ := OrdersViewController.getDocumentsCompleted_eq_ok.mp hvc
      rfl
    · cases h
  | _ => cases h

theorem Instance.handle_addressedTo {currentUser : Option User} {screen screen' : Instance}
    {e : ScreenEvent} {requests : List FirestoreRequest}
    (h : screen.handle currentUser e = .next (screen', requests)) :
    AddressedTo requests (screen.captured e) ∨
      screen.captured e = none ∧ AddressedTo requests currentUser := by
  cases screen with
  | cart live =>
    obtain ⟨r, hr, hpair⟩ := Outcome.bind_eq_next.mp h
    obtain ⟨-, rfl⟩ := Prod.mk.inj (Outcome.next.inj hpair)
    exact .inl (CartVC.handle_addressedTo hr)
  | wishlist live =>
    obtain ⟨r, hr, hpair⟩ := Outcome.bind_eq_next.mp h
    obtain ⟨-, rfl⟩ := Prod.mk.inj (Outcome.next.inj hpair)
    exact WishlistVC.handle_addressedTo hr
  | product live =>
    obtain ⟨r, hr, hpair⟩ := Outcome.bind_eq_next.mp h
    obtain ⟨-, rfl⟩ := Prod.mk.inj (Outcome.next.inj hpair)
    exact (ProductDetailsVC.handle_addressedTo hr).imp_right fun hauth => ⟨rfl, hauth⟩
  | orders live =>
    obtain ⟨r, hr, hpair⟩ := Outcome.bind_eq_next.mp h
    obtain ⟨-, rfl⟩ := Prod.mk.inj (Outcome.next.inj hpair)
    exact .inl (OrdersViewController.handle_addressedTo hr)

namespace App

/-- Nobody is signed in yet and no screen exists. -/
def start : App := ⟨none, [], []⟩

def step (s : App) : AppEvent → Outcome Trap App
  | .signIn user => .next { s with currentUser := some user }
  | .signOutAction throws => .next (if throws then s else { s with currentUser := none })
  | .createCartVC =>
    .next { s with instances := s.instances ++ [.cart (.create (.create s.currentUser))] }
  | .createWishlistVC =>
    .next { s with instances := s.instances ++ [.wishlist (.create (.create s.currentUser))] }
  | .createProductDetailsVC vc =>
    .next { s with instances := s.instances ++ [.product (.create vc)] }
  | .createOrdersViewController =>
    .next { s with instances := s.instances ++ [.orders (.create (.create s.currentUser))] }
  | .screen i e =>
    match s.instances[i]? with
    | none => .blocked
    | some screen =>
      (screen.handle s.currentUser e).bind fun (screen', requests) =>
        .next { s with
          instances := s.instances.set i screen'
          issued := s.issued ++ requests.map (·, s.currentUser) }

/-- Every request was addressed, by an id that is not empty, to the user who was signed in when
it was issued. -/
def AsksForSignedIn (s : App) : Prop :=
  ∀ r ∈ s.issued, ∃ user, r.2 = some user ∧ user.uid ≠ "" ∧ r.1.userId = some user.uid

/-- A handler that takes the user from a stored property takes the user who is signed in. -/
def CapturedIsSignedIn (s : App) : AppEvent → Prop
  | .screen i e =>
    ∀ screen user, s.instances[i]? = some screen → screen.captured e = some user →
      s.currentUser.map (·.uid) = some user.uid
  | _ => True

theorem asksForSignedIn_append {s : App} (hs : AsksForSignedIn s) {requests : List FirestoreRequest}
    {user : Option User} (h : AddressedTo requests user) (screens : List Instance) :
    AsksForSignedIn { s with
        instances := screens
        issued := s.issued ++ requests.map (·, s.currentUser) } ↔
      ∀ u, user = some u → s.currentUser.map (·.uid) = some u.uid := by
  cases user with
  | none =>
    obtain rfl : requests = [] := List.map_eq_nil_iff.mp h
    simpa [AsksForSignedIn] using hs
  | some u =>
    obtain ⟨r, rfl⟩ : ∃ r, requests = [r] :=
      List.length_eq_one_iff.mp (by simpa using congrArg List.length h)
    have hr : r.userId = some u.uid := List.head_eq_of_cons_eq h
    constructor
    · intro hall v hv
      obtain rfl := Option.some.inj hv
      obtain ⟨w, hw, -, hid⟩ := hall (r, s.currentUser) (by simp)
      rw [hr] at hid
      rw [show s.currentUser = some w from hw, Option.map_some, hid]
    · intro huid q hq
      rcases List.mem_append.mp hq with hq | hq
      · exact hs q hq
      · obtain rfl : q = (r, s.currentUser) := by simpa using hq
        obtain ⟨w, hw, hid⟩ := Option.map_eq_some_iff.mp (huid u rfl)
        exact ⟨w, hw, w.uid_segment.1, by rw [hr, hid]⟩

theorem step_asksForSignedIn_iff {s t : App} {e : AppEvent} (hs : AsksForSignedIn s)
    (ht : step s e = .next t) : AsksForSignedIn t ↔ CapturedIsSignedIn s e := by
  cases e with
  | signIn user =>
    obtain rfl := Outcome.next.inj ht
    exact iff_of_true hs trivial
  | signOutAction throws =>
    obtain rfl := Outcome.next.inj ht
    cases throws <;> exact iff_of_true hs trivial
  | createCartVC =>
    obtain rfl := Outcome.next.inj ht
    exact iff_of_true hs trivial
  | createWishlistVC =>
    obtain rfl := Outcome.next.inj ht
    exact iff_of_true hs trivial
  | createProductDetailsVC vc =>
    obtain rfl := Outcome.next.inj ht
    exact iff_of_true hs trivial
  | createOrdersViewController =>
    obtain rfl := Outcome.next.inj ht
    exact iff_of_true hs trivial
  | screen i e =>
    cases hi : s.instances[i]? with
    | none =>
      simp only [step, hi] at ht
      cases ht
    | some screen =>
      simp only [step, hi] at ht
      obtain ⟨⟨screen', requests⟩, hhandle, hnext⟩ := Outcome.bind_eq_next.mp ht
      obtain rfl := Outcome.next.inj hnext
      have hcaptured : CapturedIsSignedIn s (.screen i e) ↔
          ∀ u, screen.captured e = some u → s.currentUser.map (·.uid) = some u.uid := by
        constructor
        · intro hok u hu
          exact hok screen u hi hu
        · intro hok screen' u hi' hu
          obtain rfl := Option.some.inj (hi.symm.trans hi')
          exact hok u hu
      rw [hcaptured]
      rcases Instance.handle_addressedTo hhandle with hstored | ⟨hnone, hauth⟩
      · exact asksForSignedIn_append hs hstored _
      · rw [asksForSignedIn_append hs hauth]
        -- `Auth` was asked when the handler ran
        refine iff_of_true (fun u hu => by rw [hu, Option.map_some]) fun u hu => ?_
        rw [hnone] at hu
        cases hu

/-- In a run every request is addressed to the user signed in when it is issued if and only if
every handler that takes the user from a stored property runs while that user is signed in. -/
theorem asksForSignedIn_iff_capturedIsSignedIn (es : List AppEvent) :
    Always step AsksForSignedIn start es ↔ Meets step CapturedIsSignedIn start es := by
  apply always_iff_meets (I := fun _ => True) (E := fun _ => True)
  · intro s e t _ _ _ _ _
    trivial
  · intro s e t _ _ hs ht
    exact step_asksForSignedIn_iff hs ht
  · trivial
  · intro r hr
    cases hr
  · intro e _
    trivial

/-- The orders tab is opened again after its user has signed out. -/
def ordersRevisited : List AppEvent :=
  [.signIn customer, .createOrdersViewController, .signOutAction false, .screen 0 .viewWillAppear]

theorem ordersRevisited_asks_for_nobody :
    ¬∀ es : List AppEvent, Always step AsksForSignedIn start es := by
  intro h
  have hlast := (h ordersRevisited).last rfl
  obtain ⟨user, huser, -⟩ := hlast _ (List.mem_singleton_self _)
  cases huser

end App

end GasNow
