import GasNow.SharedManager
import GasNow.HomeVC
import GasNow.CartVC
import GasNow.WishlistVC
import GasNow.ProductDetailsVC
import GasNow.OrdersViewController
import GasNow.LocationVC
import GasNow.AccountScreens
import GasNow.UpdateProfileVC
import GasNow.Machine.Runs

/-!
# The progress HUD

All screens share one HUD that counts nothing: whoever calls last decides whether it is up.
The runs below interleave the handlers of all screens that use it, on controllers in any
state, with the requests that are outstanding between them.
-/

namespace GasNow

open Machine

/-- The completion of an outstanding request, by its screen. -/
inductive Completion where
  | home (k : HomeVC.Closure)
  | cart (k : CartVC.Closure)
  | wishlist (k : WishlistVC.Closure)
  | product (k : ProductDetailsVC.Closure)
  | orders (k : OrdersViewController.Closure)
  | location (k : LocationVC.Closure)
  | account (k : AuthClosure)
  | photo (k : UpdateProfileVC.Closure)
  deriving DecidableEq

/-- The handlers that no request has led to, with the controllers they run on. -/
inductive Handler (Image : Type) where
  | homeLoads
  | cartAppears (vc : CartVC)
  | cartDeletes (vc : CartVC) (sender tag : Nat)
  | wishlistAppears (vc : WishlistVC)
  | wishlistAdds (vc : WishlistVC) (currentUser : Option User) (sender tag : Nat)
  | wishlistRemoves (vc : WishlistVC) (index : Nat)
  | ordersAppear (vc : OrdersViewController)
  | depotsAppear (vc : LocationVC)
  | productAdds (vc : ProductDetailsVC) (currentUser : Option User)
  | productWishes (vc : ProductDetailsVC) (currentUser : Option User)
  | logsIn (vc : LoginViewController)
  | registers (vc : RegisterVC)
  | resetsPassword (vc : ForgotPasswordVC)
  /-- `ProfileVC` is pushed: its `viewDidLoad` and `viewWillAppear`. -/
  | profileOpens (currentUser : Option User)
  /-- `ProfileVC` is revealed by a pop. -/
  | profileReappears (currentUser : Option User)
  | photoPicked (currentUser : Option User) (image : Option Image)

/-- The completion handlers, with the controllers they run on. -/
inductive Answer where
  | homeLoaded (vc : HomeVC) (result : QueryResult)
  | cartLoaded (vc : CartVC) (result : QueryResult)
  | cartDeleted (vc : CartVC) (sender tag : Nat) (err : Option NSError)
  | wishlistLoaded (vc : WishlistVC) (result : QueryResult)
  | wishlistAdded (vc : WishlistVC) (table : TableView ProductInformation) (sender : Nat)
      (err : Option NSError)
  | wishlistDeleted (vc : WishlistVC) (index : Nat) (err : Option NSError)
  | ordersLoaded (vc : OrdersViewController) (result : QueryResult)
  | depotsLoaded (vc : LocationVC) (result : QueryResult)
  | productWritten (k : ProductDetailsVC.Closure) (err : Option NSError)
  | loggedIn (alive : Bool) (result : Except NSError Unit)
  | registered (result : Except NSError Unit)
  | passwordReset (vc : ForgotPasswordVC) (error : Option NSError)
  | photoUploaded (path : String) (err : Option NSError)
  | photoLocated (currentUser : Option User) (url : Except NSError URL)
  | photoCommitted (err : Option NSError)

inductive HudEvent (Image : Type) where
  | handler (h : Handler Image)
  /-- The `i`-th outstanding request is answered. -/
  | answer (i : Nat) (a : Answer)

/-- What a handler does to the HUD, and the completions of the requests it starts. -/
structure Handled where
  calls : List Bool
  started : List Completion

/-- The part of a handler's effects that concerns the HUD. -/
def Handled.ofEffects {ρ κ : Type} (screen : κ → Completion) (fx : List (Effect ρ κ)) : Handled :=
  ⟨Effect.hudCalls fx, (Effect.requests fx).map fun rk => screen rk.2⟩

section Handle

variable {Image Data : Type} (count : String → Nat) (jpegData : Image → Option Data)

def Handler.handle : Handler Image → Except Trap Handled
  | homeLoads => (Handled.ofEffects .home) <$> HomeVC.viewDidLoad
  | cartAppears vc => (fun r => .ofEffects .cart r.2) <$> vc.viewWillAppear
  | cartDeletes vc sender tag => (.ofEffects .cart) <$> vc.deleteAction sender tag
  | wishlistAppears vc => (fun r => .ofEffects .wishlist r.2) <$> vc.viewWillAppear
  | wishlistAdds vc currentUser sender tag =>
    (.ofEffects .wishlist) <$> vc.itemAddtoCart currentUser sender tag
  | wishlistRemoves vc index => (.ofEffects .wishlist) <$> vc.removeItemAPI index
  | ordersAppear vc => (fun r => .ofEffects .orders r.2) <$> vc.viewWillAppear
  | depotsAppear vc => (fun r => .ofEffects .location r.2) <$> vc.viewWillAppear
  | productAdds vc currentUser => (.ofEffects .product) <$> vc.addToCart currentUser
  | productWishes vc currentUser => (.ofEffects .product) <$> vc.wishlistButtonAction currentUser
  | logsIn vc => (.ofEffects .account) <$> vc.loginBtnTapped
  | registers vc => (.ofEffects .account) <$> vc.registerButtonTapped count
  | resetsPassword vc => (.ofEffects .account) <$> vc.submitButtonPressed
  | profileOpens currentUser =>
    .ok (.ofEffects nofun (ProfileVC.viewDidLoad ++ ProfileVC.viewWillAppear currentUser))
  | profileReappears currentUser => .ok (.ofEffects nofun (ProfileVC.viewWillAppear currentUser))
  | photoPicked currentUser image =>
    (fun r => .ofEffects .photo r.2) <$> UpdateProfileVC.didSelect jpegData currentUser image

def Answer.completion : Answer → Completion
  | homeLoaded _ _ => .home .getDocuments
  | cartLoaded _ _ => .cart .getDocuments
  | cartDeleted _ sender _ _ => .cart (.delete sender)
  | wishlistLoaded _ _ => .wishlist .getDocuments
  | wishlistAdded _ _ sender _ => .wishlist (.setData sender)
  | wishlistDeleted _ index _ => .wishlist (.delete index)
  | ordersLoaded _ _ => .orders .getDocuments
  | depotsLoaded _ _ => .location .getDocuments
  | productWritten k _ => .product k
  | loggedIn _ _ => .account .signIn
  | registered _ => .account .createUser
  | passwordReset _ _ => .account .sendPasswordReset
  | photoUploaded path _ => .photo (.putData path)
  | photoLocated _ _ => .photo .downloadURL
  | photoCommitted _ => .photo .commitChanges

def Answer.handle : Answer → Except Trap Handled
  | homeLoaded vc result => (fun r => .ofEffects .home r.2) <$> vc.getDocumentsCompleted result
  | cartLoaded vc result => (fun r => .ofEffects .cart r.2) <$> vc.getDocumentsCompleted result
  | cartDeleted vc _ tag err => (fun r => .ofEffects .cart r.2) <$> vc.deleteCompleted tag err
  | wishlistLoaded vc result =>
    (fun r => .ofEffects .wishlist r.2) <$> vc.getDocumentsCompleted result
  | wishlistAdded vc table sender err =>
    (.ofEffects .wishlist) <$> vc.setDataCompleted table sender err
  | wishlistDeleted vc index err =>
    (fun r => .ofEffects .wishlist r.2) <$> vc.deleteCompleted index err
  | ordersLoaded vc result => (fun r => .ofEffects .orders r.2) <$> vc.getDocumentsCompleted result
  | depotsLoaded vc result =>
    (fun r => .ofEffects .location r.2) <$> vc.getDocumentsCompleted result
  | productWritten k err => .ok (.ofEffects .product (ProductDetailsVC.setDataCompleted k err))
  | loggedIn alive result =>
    .ok (.ofEffects .account (LoginViewController.signInCompleted alive result))
  | registered result => .ok (.ofEffects .account (RegisterVC.createUserCompleted result))
  | passwordReset vc error => .ok (.ofEffects .account (vc.sendPasswordResetCompleted error))
  | photoUploaded path err =>
    .ok (.ofEffects .photo
      (UpdateProfileVC.putDataCompleted path err : List (UpdateProfileVC.Fx Unit)))
  | photoLocated currentUser url =>
    .ok (.ofEffects .photo
      (UpdateProfileVC.downloadURLCompleted currentUser url : List (UpdateProfileVC.Fx Unit)))
  | photoCommitted err =>
    .ok (.ofEffects .photo
      (UpdateProfileVC.commitChangesCompleted err : List (UpdateProfileVC.Fx Unit)))

end Handle

/-! ### How the handlers leave the HUD -/

inductive Ending where
  /-- Up, with a request that it has started. -/
  | request
  /-- Hidden, without a request. -/
  | hidden
  /-- Up, without a request. -/
  | up
  /-- As it was, without a request. -/
  | asItWas
  deriving DecidableEq

/-- When an ending leaves the HUD right, with the requests that are outstanding besides the one
it answers. -/
def Ending.Fits (others : List Completion) : Ending → Prop
  | request | asItWas => True
  | hidden => others = []
  | up => others ≠ []

/-- A load through the captured user. -/
def Ending.ofLoad (user : Option User) : Ending := if user.isSome then .request else .up

section Endings

variable {Image Data : Type} (count : String → Nat) (jpegData : Image → Option Data)

/-- The inputs that `registerButtonTapped` sends to `Auth`. -/
def RegisterVC.Accepts (vc : RegisterVC) : Prop :=
  vc.lbl_name.getD "" ≠ "" ∧ vc.lbl_emailId.getD "" ≠ "" ∧
    isValidEmail (vc.lbl_emailId.getD "") = true ∧ vc.lbl_password.getD "" ≠ "" ∧
    6 ≤ count (vc.lbl_password.getD "")

instance (vc : RegisterVC) : Decidable (vc.Accepts count) := inferInstanceAs (Decidable (_ ∧ _))

/-- The input that `submitButtonPressed` sends to `Auth`. -/
def ForgotPasswordVC.Accepts (vc : ForgotPasswordVC) : Prop :=
  vc.txt_emailId.getD "" ≠ "" ∧ isValidEmail (vc.txt_emailId.getD "") = true

instance (vc : ForgotPasswordVC) : Decidable vc.Accepts := inferInstanceAs (Decidable (_ ∧ _))

def Handler.ending : Handler Image → Ending
  | homeLoads | cartDeletes .. | wishlistAdds .. | wishlistRemoves .. | depotsAppear _
  | productAdds .. | productWishes .. => .request
  | cartAppears vc => .ofLoad vc.user
  | wishlistAppears vc => .ofLoad vc.user
  | ordersAppear vc => .ofLoad vc.user
  | logsIn vc => if vc.txt_emailId.map isValidEmail = some true then .request else .asItWas
  | registers vc => if vc.Accepts count then .request else .asItWas
  | resetsPassword vc => if vc.Accepts then .request else .asItWas
  | profileOpens currentUser => if currentUser.isSome then .hidden else .up
  | profileReappears currentUser => if currentUser.isSome then .hidden else .asItWas
  | photoPicked _ image => if (image.bind jpegData).isSome then .request else .up

def Answer.ending : Answer → Ending
  | wishlistAdded _ table sender none =>
    if table.cellForRow (table.tag sender) = some sender then .request else .hidden
  | photoUploaded .. => .request
  | photoLocated currentUser (.ok _) => .ofLoad currentUser
  | photoLocated _ (.error _) => .up
  | _ => .hidden

/-- What an ending says of the calls and requests of a handler; `answered` tells whether the
handler answers a request. -/
def Ending.Describes (answered : Bool) : Ending → Handled → Prop
  | request, h => h.started ≠ [] ∧ h.calls.getLastD answered = true
  | hidden, h => h.started = [] ∧ h.calls.getLastD true = false
  | up, h => h.started = [] ∧ h.calls.getLastD answered = true
  | asItWas, h => h.started = [] ∧ h.calls = []

theorem describes_load {κ : Type} {screen : κ → Completion} {user : Option User}
    {root name : String} {k : κ} {fx : List (Effect FirestoreRequest κ)}
    (h : getUserDocuments user root name k = .ok fx) :
    (Ending.ofLoad user).Describes false (.ofEffects screen fx) := by
  rcases getUserDocuments_cases h with ⟨rfl, rfl⟩ | ⟨u, c, rfl, rfl⟩
  · exact ⟨rfl, rfl⟩
  · exact ⟨by simp [Handled.ofEffects, Effect.requests], rfl⟩

theorem describes_write {κ : Type} {screen : κ → Completion} {user : Option User} {name : String}
    {docData : DocData} {k : κ} {fx : List (Effect FirestoreRequest κ)}
    (h : setUserDocument user name docData k = .ok fx) :
    Ending.request.Describes false (.ofEffects screen fx) := by
  obtain ⟨c, -, rfl⟩ := setUserDocument_cases h
  exact ⟨by simp [Handled.ofEffects, Effect.requests], rfl⟩

theorem describes_delete {κ : Type} {screen : κ → Completion} {user : Option User}
    {name documentId : String} {k : κ} {fx : List (Effect FirestoreRequest κ)}
    (h : deleteUserDocument user name documentId k = .ok fx) :
    Ending.request.Describes false (.ofEffects screen fx) := by
  obtain ⟨c, d, -, -, rfl⟩ := deleteUserDocument_cases h
  exact ⟨by simp [Handled.ofEffects, Effect.requests], rfl⟩

theorem describes_appear {σ κ : Type} {screen : κ → Completion} {user : Option User}
    {root name : String} {k : κ} {isHidden : Bool} {vc : σ}
    {r : σ × List (Effect FirestoreRequest κ)}
    (h : (do
        let fx ← getUserDocuments user root name k
        return (vc, .setTabBarHidden isHidden :: fx)) = Except.ok r) :
    (Ending.ofLoad user).Describes false (.ofEffects screen r.2) := by
  obtain ⟨fx, hfx, hr⟩ := appear_eq_ok h
  rw [hr]
  show (Ending.ofLoad user).Describes false (.ofEffects screen fx)
  exact describes_load hfx

theorem describes_removeItemAPI {vc : WishlistVC} {index : Nat} {fx : List WishlistVC.Fx}
    (h : vc.removeItemAPI index = .ok fx) :
    Ending.request.Describes false (.ofEffects .wishlist fx) := by
  obtain ⟨obj, -, hfx⟩ := bind_eq_ok.mp h
  exact describes_delete hfx

/-- The button asks `Auth` on the inputs that it accepts, and shows an alert on the others. -/
theorem registerButtonTapped_cases {vc : RegisterVC} {fx : List AuthFx}
    (h : vc.registerButtonTapped count = .ok fx) :
    vc.Accepts count ∧ (∃ r, fx = [.showProgressHUD, .request r .createUser]) ∨
      ¬vc.Accepts count ∧ ∃ message, fx = [.showErrorDailog message] := by
  obtain ⟨emailId, psw, fullName⟩ := vc
  -- One step for each check, in the order of the source.
  obtain ⟨name, hname, h⟩ := bind_eq_ok.mp h
  obtain rfl := unwrap_eq_ok.mp hname
  by_cases hempty : name = ""
  · rw [if_pos hempty] at h
    exact .inr ⟨fun ha => ha.1 hempty, _, (Except.ok.inj h).symm⟩
  rw [if_neg hempty] at h
  obtain ⟨email, hemail, h⟩ := bind_eq_ok.mp h
  obtain rfl := unwrap_eq_ok.mp hemail
  by_cases hno : email = ""
  · rw [if_pos hno] at h
    exact .inr ⟨fun ha => ha.2.1 hno, _, (Except.ok.inj h).symm⟩
  rw [if_neg hno] at h
  obtain ⟨email', hemail', h⟩ := bind_eq_ok.mp h
  obtain rfl := Option.some.inj (unwrap_eq_ok.mp hemail')
  by_cases hvalid : isValidEmail email = true
  case neg =>
    rw [if_pos (by simpa using hvalid)] at h
    exact .inr ⟨fun ha => hvalid ha.2.2.1, _, (Except.ok.inj h).symm⟩
  rw [if_neg (by simpa using hvalid)] at h
  obtain ⟨password, hpassword, h⟩ := bind_eq_ok.mp h
  obtain rfl := unwrap_eq_ok.mp hpassword
  by_cases hblank : password = ""
  · rw [if_pos hblank] at h
    exact .inr ⟨fun ha => ha.2.2.2.1 hblank, _, (Except.ok.inj h).symm⟩
  rw [if_neg hblank] at h
  obtain ⟨password', hpassword', h⟩ := bind_eq_ok.mp h
  obtain rfl := Option.some.inj (unwrap_eq_ok.mp hpassword')
  by_cases hshort : count password < 6
  · rw [if_pos hshort] at h
    exact .inr ⟨fun ha => absurd ha.2.2.2.2 (by simpa using hshort), _, (Except.ok.inj h).symm⟩
  rw [if_neg hshort] at h
  exact .inl ⟨⟨hempty, hno, hvalid, hblank, by simpa using hshort⟩, _, (Except.ok.inj h).symm⟩

/-- The button asks `Auth` on a valid address, and shows an alert on any other text. -/
theorem submitButtonPressed_cases {vc : ForgotPasswordVC} {fx : List AuthFx}
    (h : vc.submitButtonPressed = .ok fx) :
    vc.Accepts ∧ (∃ r, fx = [.showProgressHUD, .request r .sendPasswordReset]) ∨
      ¬vc.Accepts ∧ ∃ message, fx = [.showErrorDailog message] := by
  obtain ⟨emailId⟩ := vc
  obtain ⟨email, hemail, hchecks⟩ := bind_eq_ok.mp h
  obtain rfl := unwrap_eq_ok.mp hemail
  by_cases hempty : email = ""
  · rw [if_pos hempty] at hchecks
    exact .inr ⟨fun ha => ha.1 hempty, _, (Except.ok.inj hchecks).symm⟩
  rw [if_neg hempty] at hchecks
  by_cases hvalid : isValidEmail email = true
  case neg =>
    rw [if_pos (by simpa using hvalid)] at hchecks
    exact .inr ⟨fun ha => hvalid ha.2, _, (Except.ok.inj hchecks).symm⟩
  rw [if_neg (by simpa using hvalid)] at hchecks
  exact .inl ⟨⟨hempty, hvalid⟩, _, (Except.ok.inj hchecks).symm⟩

theorem Handler.ending_describes {h : Handler Image} {r : Handled}
    (hr : h.handle count jpegData = .ok r) :
    (h.ending count jpegData).Describes false r := by
  cases h with
  | homeLoads =>
    obtain rfl := Except.ok.inj hr
    exact ⟨by simp [Handled.ofEffects, Effect.requests], rfl⟩
  | cartAppears vc =>
    obtain ⟨fx, hfx, rfl⟩ := map_eq_ok.mp hr
    exact describes_appear hfx
  | cartDeletes vc sender tag =>
    obtain ⟨fx, hfx, rfl⟩ := map_eq_ok.mp hr
    obtain ⟨obj, -, hfx⟩ := bind_eq_ok.mp hfx
    exact describes_delete hfx
  | wishlistAppears vc =>
    obtain ⟨fx, hfx, rfl⟩ := map_eq_ok.mp hr
    exact describes_appear hfx
  | wishlistAdds vc currentUser sender tag =>
    obtain ⟨fx, hfx, rfl⟩ := map_eq_ok.mp hr
    obtain ⟨item, -, hfx⟩ := bind_eq_ok.mp hfx
    exact describes_write hfx
  | wishlistRemoves vc index =>
    obtain ⟨fx, hfx, rfl⟩ := map_eq_ok.mp hr
    exact describes_removeItemAPI hfx
  | ordersAppear vc =>
    obtain ⟨fx, hfx, rfl⟩ := map_eq_ok.mp hr
    exact describes_appear hfx
  | depotsAppear vc =>
    obtain rfl := Except.ok.inj hr
    exact ⟨by simp [Handled.ofEffects, Effect.requests], rfl⟩
  | productAdds vc currentUser =>
    obtain ⟨fx, hfx, rfl⟩ := map_eq_ok.mp hr
    obtain ⟨data, -, hfx⟩ := bind_eq_ok.mp hfx
    exact describes_write hfx
  | productWishes vc currentUser =>
    obtain ⟨fx, hfx, rfl⟩ := map_eq_ok.mp hr
    obtain ⟨data, -, hfx⟩ := bind_eq_ok.mp hfx
    exact describes_write hfx
  | logsIn vc =>
    obtain ⟨fx, hfx, rfl⟩ := map_eq_ok.mp hr
    by_cases hvalid : vc.txt_emailId.map isValidEmail = some true
    · rw [LoginViewController.loginBtnTapped, if_pos hvalid] at hfx
      obtain ⟨email, -, hfx⟩ := bind_eq_ok.mp hfx
      obtain ⟨password, -, hfx⟩ := bind_eq_ok.mp hfx
      obtain rfl := Except.ok.inj hfx
      rw [Handler.ending, if_pos hvalid]
      exact ⟨by simp [Handled.ofEffects, Effect.requests], rfl⟩
    · rw [LoginViewController.loginBtnTapped, if_neg hvalid] at hfx
      obtain rfl := Except.ok.inj hfx
      rw [Handler.ending, if_neg hvalid]
      exact ⟨rfl, rfl⟩
  | registers vc =>
    obtain ⟨fx, hfx, rfl⟩ := map_eq_ok.mp hr
    rcases registerButtonTapped_cases count hfx with ⟨haccepts, request, rfl⟩ | ⟨hno, message, rfl⟩
    · rw [Handler.ending, if_pos haccepts]
      exact ⟨by simp [Handled.ofEffects, Effect.requests], rfl⟩
    · rw [Handler.ending, if_neg hno]
      exact ⟨rfl, rfl⟩
  | resetsPassword vc =>
    obtain ⟨fx, hfx, rfl⟩ := map_eq_ok.mp hr
    rcases submitButtonPressed_cases hfx with ⟨haccepts, request, rfl⟩ | ⟨hno, message, rfl⟩
    · rw [Handler.ending, if_pos haccepts]
      exact ⟨by simp [Handled.ofEffects, Effect.requests], rfl⟩
    · rw [Handler.ending, if_neg hno]
      exact ⟨rfl, rfl⟩
  | profileOpens currentUser =>
    obtain rfl := Except.ok.inj hr
    cases currentUser <;> exact ⟨rfl, rfl⟩
  | profileReappears currentUser =>
    obtain rfl := Except.ok.inj hr
    cases currentUser <;> exact ⟨rfl, rfl⟩
  | photoPicked currentUser image =>
    obtain ⟨⟨vc, fx⟩, hfx, rfl⟩ := map_eq_ok.mp hr
    obtain ⟨gx, hgx, hvc⟩ := bind_eq_ok.mp hfx
    obtain ⟨-, rfl⟩ := Prod.mk.inj (Except.ok.inj hvc)
    obtain ⟨user, -, hgx⟩ := bind_eq_ok.mp hgx
    cases hdata : image.bind jpegData with
    | none =>
      simp only [hdata] at hgx
      obtain rfl := Except.ok.inj hgx
      rw [Handler.ending, hdata]
      exact ⟨rfl, rfl⟩
    | some data =>
      simp only [hdata] at hgx
      obtain rfl := Except.ok.inj hgx
      rw [Handler.ending, hdata]
      exact ⟨by simp [Handled.ofEffects, Effect.requests], rfl⟩

/-- A completion that hides the HUD first and touches it no more. -/
theorem describes_hide {ρ κ : Type} {screen : κ → Completion} {fx : List (Effect ρ κ)}
    (hcalls : Effect.hudCalls fx = []) (hrequests : Effect.requests fx = []) :
    Ending.hidden.Describes true (.ofEffects screen (.hideProgressHUD :: fx)) := by
  constructor
  · simp [Handled.ofEffects, Effect.requests, hrequests]
  · simp [Handled.ofEffects, Effect.hudCalls, hcalls]

theorem describes_setDataCompleted {vc : WishlistVC} {table : TableView ProductInformation}
    {sender : Nat} {fx : List WishlistVC.Fx}
    (h : vc.setDataCompleted table sender none = .ok fx) :
    (if table.cellForRow (table.tag sender) = some sender then Ending.request
      else .hidden).Describes true (.ofEffects .wishlist fx) := by
  rcases WishlistVC.setDataCompleted_none_cases h with ⟨hown, gx, hgx, rfl⟩ | ⟨hother, rfl⟩
  · obtain ⟨obj, -, hdelete⟩ := bind_eq_ok.mp hgx
    obtain ⟨c, d, -, -, rfl⟩ := deleteUserDocument_cases hdelete
    rw [if_pos hown]
    exact ⟨by simp [Handled.ofEffects, Effect.requests], rfl⟩
  · rw [if_neg hother]
    exact ⟨rfl, rfl⟩

theorem Answer.ending_describes {a : Answer} {r : Handled} (hr : a.handle = .ok r) :
    a.ending.Describes true r ∧ a.ending ≠ .asItWas := by
  cases a with
  | homeLoaded vc result =>
    obtain ⟨⟨vc', fx⟩, hfx, rfl⟩ := map_eq_ok.mp hr
    cases result with
    | error e =>
      obtain ⟨-, rfl⟩ := Prod.mk.inj (Except.ok.inj hfx)
      exact ⟨⟨rfl, rfl⟩, nofun⟩
    | ok documents =>
      obtain ⟨objs, -, hfx⟩ := bind_eq_ok.mp hfx
      obtain ⟨-, rfl⟩ := Prod.mk.inj (Except.ok.inj hfx)
      exact ⟨⟨rfl, rfl⟩, nofun⟩
  | cartLoaded vc result =>
    obtain ⟨⟨vc', fx⟩, hfx, rfl⟩ := map_eq_ok.mp hr
    obtain ⟨objs, -, -, rfl⟩ := CartVC.getDocumentsCompleted_eq_ok.mp hfx
    exact ⟨⟨rfl, rfl⟩, nofun⟩
  | cartDeleted vc sender tag err =>
    obtain ⟨⟨vc', fx⟩, hfx, rfl⟩ := map_eq_ok.mp hr
    rcases CartVC.deleteCompleted_cases hfx with rfl | rfl <;> exact ⟨⟨rfl, rfl⟩, nofun⟩
  | wishlistLoaded vc result =>
    obtain ⟨⟨vc', fx⟩, hfx, rfl⟩ := map_eq_ok.mp hr
    obtain ⟨objs, -, -, rfl⟩ := WishlistVC.getDocumentsCompleted_eq_ok.mp hfx
    exact ⟨⟨rfl, rfl⟩, nofun⟩
  | wishlistAdded vc table sender err =>
    obtain ⟨fx, hfx, rfl⟩ := map_eq_ok.mp hr
    cases err with
    | some e =>
      obtain rfl := Except.ok.inj hfx
      exact ⟨⟨rfl, rfl⟩, nofun⟩
    | none =>
      refine ⟨describes_setDataCompleted hfx, ?_⟩
      rw [Answer.ending]
      split <;> nofun
  | wishlistDeleted vc index err =>
    obtain ⟨⟨vc', fx⟩, hfx, rfl⟩ := map_eq_ok.mp hr
    rcases WishlistVC.deleteCompleted_cases hfx with rfl | rfl <;> exact ⟨⟨rfl, rfl⟩, nofun⟩
  | ordersLoaded vc result =>
    obtain ⟨⟨vc', fx⟩, hfx, rfl⟩ := map_eq_ok.mp hr
    obtain ⟨items, -, -, rfl⟩ := OrdersViewController.getDocumentsCompleted_eq_ok.mp hfx
    exact ⟨⟨rfl, rfl⟩, nofun⟩
  | depotsLoaded vc result =>
    obtain ⟨⟨vc', fx⟩, hfx, rfl⟩ := map_eq_ok.mp hr
    cases result with
    | error e =>
      obtain ⟨-, rfl⟩ := Prod.mk.inj (Except.ok.inj hfx)
      exact ⟨⟨rfl, rfl⟩, nofun⟩
    | ok documents =>
      obtain ⟨objs, -, hfx⟩ := bind_eq_ok.mp hfx
      obtain ⟨-, rfl⟩ := Prod.mk.inj (Except.ok.inj hfx)
      refine ⟨describes_hide (Effect.hudCalls_eq_nil ?_) (Effect.requests_eq_nil ?_), nofun⟩
      · simp
      · simp
  | productWritten k err =>
    obtain rfl := Except.ok.inj hr
    cases err with
    | none => cases k <;> exact ⟨⟨rfl, rfl⟩, nofun⟩
    | some e => exact ⟨⟨rfl, rfl⟩, nofun⟩
  | loggedIn alive result =>
    obtain rfl := Except.ok.inj hr
    cases alive <;> cases result <;> exact ⟨⟨rfl, rfl⟩, nofun⟩
  | registered result =>
    obtain rfl := Except.ok.inj hr
    cases result <;> exact ⟨⟨rfl, rfl⟩, nofun⟩
  | passwordReset vc error =>
    obtain rfl := Except.ok.inj hr
    cases error <;> exact ⟨⟨rfl, rfl⟩, nofun⟩
  | photoUploaded path err =>
    obtain rfl := Except.ok.inj hr
    exact ⟨⟨by simp [Handled.ofEffects, UpdateProfileVC.putDataCompleted, Effect.requests], rfl⟩,
      nofun⟩
  | photoLocated currentUser url =>
    obtain rfl := Except.ok.inj hr
    cases url with
    | error e => exact ⟨⟨rfl, rfl⟩, nofun⟩
    | ok url =>
      cases currentUser with
      | none => exact ⟨⟨rfl, rfl⟩, nofun⟩
      | some user =>
        exact ⟨⟨by simp [Handled.ofEffects, UpdateProfileVC.downloadURLCompleted,
          UpdateProfileVC.updateProfileImage, Effect.requests], rfl⟩, nofun⟩
  | photoCommitted err =>
    obtain rfl := Except.ok.inj hr
    exact ⟨⟨rfl, rfl⟩, nofun⟩

end Endings

/-! ### Runs -/

structure HudState where
  hud : SharedManager
  outstanding : List Completion

namespace HudState

variable {Image Data : Type} (count : String → Nat) (jpegData : Image → Option Data)

def start : HudState := ⟨.sharedInstance, []⟩

/-- A handler has run while `others` are outstanding. -/
def after (s : HudState) (others : List Completion) (r : Handled) : HudState :=
  ⟨s.hud.run r.calls, others ++ r.started⟩

def step (s : HudState) : HudEvent Image → Outcome Trap HudState
  | .handler h => .ofExcept ((s.after s.outstanding) <$> h.handle count jpegData)
  | .answer i a =>
    if s.outstanding[i]? = some a.completion then
      .ofExcept ((s.after (s.outstanding.eraseIdx i)) <$> a.handle)
    else .blocked

/-- The HUD is up exactly while some request is outstanding. -/
def HudFollowsWork (s : HudState) : Prop :=
  (s.outstanding ≠ [] → s.hud.isShown = true) ∧ (s.outstanding = [] → s.hud.isShown = false)

/-- The requests that are outstanding besides the one that an event answers. -/
def others (s : HudState) : HudEvent Image → List Completion
  | .handler _ => s.outstanding
  | .answer i _ => s.outstanding.eraseIdx i

def ending : HudEvent Image → Ending
  | .handler h => h.ending count jpegData
  | .answer _ a => a.ending

/-- A handler that leaves the HUD up without a request runs while another request is
outstanding, and one that hides it without a request while no other is. -/
def LastCallFits (s : HudState) (e : HudEvent Image) : Prop :=
  (ending count jpegData e).Fits (s.others e)

/-- A default matters only to an empty list. -/
theorem getLastD_of_imp {b c : Bool} (h : b = true → c = true) (l : List Bool)
    (hl : l.getLastD b = true) : l.getLastD c = true := by
  cases l with
  | nil => exact h hl
  | cons x xs =>
    rw [List.getLastD_cons] at hl ⊢
    exact hl

theorem after_hudFollowsWork_iff {s : HudState} (hs : HudFollowsWork s) {answered : Bool}
    (hup : answered = true → s.hud.isShown = true) {others : List Completion}
    {ending : Ending} {r : Handled} (hr : ending.Describes answered r)
    (hsame : ending = .asItWas → others = s.outstanding) :
    HudFollowsWork (s.after others r) ↔ ending.Fits others := by
  have hshown : (s.after others r).hud.isShown = r.calls.getLastD s.hud.isShown :=
    s.hud.isShown_run r.calls
  have hout : (s.after others r).outstanding = others ++ r.started := rfl
  rw [HudFollowsWork, hshown, hout]
  cases ending with
  | request =>
    obtain ⟨hstarted, hcalls⟩ := hr
    rw [getLastD_of_imp hup r.calls hcalls]
    simp [hstarted, Ending.Fits]
  | up =>
    obtain ⟨hstarted, hcalls⟩ := hr
    rw [getLastD_of_imp hup r.calls hcalls, hstarted, List.append_nil]
    simp [Ending.Fits]
  | hidden =>
    obtain ⟨hstarted, hcalls⟩ := hr
    -- the handler's last call hides the HUD, whatever it was before
    have hfalse : r.calls.getLastD s.hud.isShown = false := by
      by_contra hne
      have htrue := getLastD_of_imp (fun _ => rfl) r.calls (Bool.of_not_eq_false hne)
      rw [hcalls] at htrue
      cases htrue
    rw [hfalse, hstarted, List.append_nil]
    simp [Ending.Fits]
  | asItWas =>
    obtain ⟨hstarted, hcalls⟩ := hr
    rw [hsame rfl, hstarted, hcalls, List.append_nil]
    exact iff_of_true hs trivial

theorem step_hudFollowsWork_iff {s t : HudState} {e : HudEvent Image} (hs : HudFollowsWork s)
    (ht : step count jpegData s e = .next t) :
    HudFollowsWork t ↔ LastCallFits count jpegData s e := by
  cases e with
  | handler h =>
    rw [step, Outcome.ofExcept_eq_next] at ht
    obtain ⟨r, hr, rfl⟩ := map_eq_ok.mp ht
    exact after_hudFollowsWork_iff hs (by simp) (Handler.ending_describes count jpegData hr)
      fun _ => rfl
  | answer i a =>
    by_cases hi : s.outstanding[i]? = some a.completion
    · -- the request that is answered was outstanding, so the HUD was up
      rw [step, if_pos hi, Outcome.ofExcept_eq_next] at ht
      obtain ⟨r, hr, rfl⟩ := map_eq_ok.mp ht
      obtain ⟨hdescribes, hne⟩ := Answer.ending_describes hr
      have hup : s.hud.isShown = true := by
        apply hs.1
        intro hnil
        rw [hnil] at hi
        cases hi
      exact after_hudFollowsWork_iff hs (fun _ => hup) hdescribes fun h => absurd h hne
    · rw [step, if_neg hi] at ht
      cases ht

/-- In a run of any handlers of any screens the HUD is up exactly while some request is
outstanding, in every state, if and only if every handler that leaves the HUD up without a
request runs while another request is outstanding, and every handler that hides it without a
request while no other is. -/
theorem hudFollowsWork_iff_lastCallFits (es : List (HudEvent Image)) :
    Always (step count jpegData) HudFollowsWork start es ↔
      Meets (step count jpegData) (LastCallFits count jpegData) start es := by
  apply always_iff_meets (I := fun _ => True) (E := fun _ => True)
  · intro s e t _ _ _ _ _
    trivial
  · intro s e t _ _ hs ht
    exact step_hudFollowsWork_iff count jpegData hs ht
  · trivial
  · exact ⟨fun h => absurd rfl h, fun _ => rfl⟩
  · intro e _
    trivial

/-- The orders tab is opened while the products of the home tab are still being loaded, and
then the products arrive. -/
def twoLoads : List (HudEvent Unit) :=
  [.handler .homeLoads, .handler (.ordersAppear (.create (some customer))),
    .answer 0 (.homeLoaded ⟨[]⟩ (.ok []))]

theorem twoLoads_hide_hud :
    ¬∀ (count : String → Nat) (jpegData : Unit → Option Unit) (es : List (HudEvent Unit)),
      Always (step count jpegData) HudFollowsWork start es := by
  intro h
  have hlast := (h String.length some twoLoads).last rfl
  have hshown := hlast.1 nofun
  cases hshown

end HudState

end GasNow
