import GasNow.UserDocuments

/-!
# `CartVC`

The handlers of the cart screen. `user` is captured from `Auth` when the controller is
created; `productList` is what the table shows after a reload.
-/

namespace GasNow

structure CartVC where
  user : Option User
  productList : List ProductInformation
  /-- `cart_tableView.isHidden` -/
  tableIsHidden : Bool
  deriving DecidableEq

namespace CartVC

inductive Closure where
  /-- The completion of `getDocuments` in `getCartList`. -/
  | getDocuments
  /-- The delete action of the alert in `deleteItem`, which captures the tapped button. -/
  | deleteAction (sender : Nat)
  /-- The completion of `delete` in `deleteItem`, which captures the tapped button. -/
  | delete (sender : Nat)
  deriving DecidableEq

abbrev Fx := Effect FirestoreRequest Closure

def create (currentUser : Option User) : CartVC :=
  { user := currentUser, productList := [], tableIsHidden := true }

/-- One turn of the decode loop of `getCartList`. -/
def entry : QueryDocumentSnapshot → Except Trap ProductInformation :=
  ProductInformation.ofEntry "no_of_items" "prprice" "prname" "primage"

def getCartList (vc : CartVC) : Except Trap (List Fx) :=
  getUserDocuments vc.user "user-data" "cart" .getDocuments

/-- The completion of `getDocuments` in `getCartList`. -/
def getDocumentsCompleted (vc : CartVC) (result : QueryResult) :
    Except Trap (CartVC × List Fx) := do
  -- an error decodes to no entries: the HUD and the table are handled alike in both cases
  let objs ← decodeResult entry result
  return ({ vc with productList := vc.productList ++ objs, tableIsHidden := false },
    [.hideProgressHUD, .reloadData])

def viewWillAppear (vc : CartVC) : Except Trap (CartVC × List Fx) := do
  let fx ← getCartList vc
  return (vc, .setTabBarHidden true :: fx)

def viewWillDisappear (vc : CartVC) : CartVC × List Fx :=
  ({ vc with productList := [] }, [.setTabBarHidden false])

/-- A tap on a delete button. -/
def deleteItem (sender : Nat) : List Fx := [.popupAlert (.deleteAction sender)]

/-- The delete action of the alert: `tag` is the button's tag when the action runs. -/
def deleteAction (vc : CartVC) (sender tag : Nat) : Except Trap (List Fx) := do
  -- `_sender.tag` is read when the alert is answered, not when the button was tapped
  let obj ← subscript vc.productList tag
  deleteUserDocument vc.user "cart" obj.documentId (.delete sender)

/-- The completion of `delete`: `tag` is the button's tag when it runs. -/
def deleteCompleted (vc : CartVC) (tag : Nat) (err : Option NSError) :
    Except Trap (CartVC × List Fx) :=
  match err with
  | some _ => return (vc, [.hideProgressHUD])
  | none => do
    -- and once more when the server has answered
    let productList ← removeAt vc.productList tag
    return ({ vc with productList }, [.hideProgressHUD, .reloadData])

def checkOutNow (vc : CartVC) : List Fx := [.pushOrderDetails vc.productList]

/-! ### What the handlers do to the list -/

theorem entry_documentId {d : QueryDocumentSnapshot} {obj : ProductInformation}
    (h : entry d = .ok obj) : obj.documentId = d.documentID :=
  ProductInformation.ofEntry_documentId h

theorem viewWillAppear_some (vc : CartVC) {user : User} (hu : vc.user = some user) :
    viewWillAppear vc = .ok (vc, [.setTabBarHidden true, .showProgressHUD,
      .request (.getDocuments ⟨["user-data", user.uid, "cart"], odd_three ..⟩) .getDocuments]) := by
  simp [viewWillAppear, getCartList, hu, getUserDocuments_some user
    (by decide : IsSegment "user-data") (by decide : IsSegment "cart"), bind, Except.bind, pure,
    Except.pure]

theorem getDocumentsCompleted_eq_ok {vc vc' : CartVC} {fx : List Fx} {result : QueryResult} :
    getDocumentsCompleted vc result = .ok (vc', fx) ↔
      ∃ objs, decodeResult entry result = .ok objs ∧
        vc' = { vc with productList := vc.productList ++ objs, tableIsHidden := false } ∧
        fx = [.hideProgressHUD, .reloadData] := by
  refine bind_eq_ok.trans (exists_congr fun objs => and_congr_right fun _ => ?_)
  simp [pure, Except.pure, eq_comm]

/-- Whether the server has deleted the document or not, the HUD is hidden and nothing else is
asked for. -/
theorem deleteCompleted_cases {vc vc' : CartVC} {tag : Nat} {err : Option NSError}
    {fx : List Fx} (h : vc.deleteCompleted tag err = .ok (vc', fx)) :
    fx = [.hideProgressHUD] ∨ fx = [.hideProgressHUD, .reloadData] := by
  cases err with
  | some e => exact .inl (Prod.mk.inj (Except.ok.inj h)).2.symm
  | none =>
    obtain ⟨items, -, hpair⟩ := bind_eq_ok.mp h
    exact .inr (Prod.mk.inj (Except.ok.inj hpair)).2.symm

/-- The delete action of a signed-in user's screen addresses the document of the row that the
button's tag names. -/
theorem deleteAction_some (vc : CartVC) {user : User} (hu : vc.user = some user)
    {sender tag : Nat} {obj : ProductInformation} (hobj : vc.productList[tag]? = some obj)
    (hid : IsSegment obj.documentId) :
    deleteAction vc sender tag = .ok [.showProgressHUD,
      .request (.delete ⟨["user-data", user.uid, "cart", obj.documentId], even_four ..⟩)
        (.delete sender)] := by
  simp [deleteAction, subscript_eq_ok.mpr hobj, hu, deleteUserDocument_some user
    (by decide : IsSegment "cart") hid, bind, Except.bind]

theorem deleteAction_none (vc : CartVC) {sender tag : Nat} (h : vc.productList[tag]? = none) :
    deleteAction vc sender tag = .error .indexOutOfRange := by
  simp [deleteAction, subscript_eq_error h, bind, Except.bind]

end CartVC

end GasNow
