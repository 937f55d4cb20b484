import GasNow.UserDocuments

/-!
# `WishlistVC`

The handlers of the wishlist screen. `getWishList` and `removeItemAPI` use the user captured
when the controller is created, `itemAddtoCart` asks `Auth` when it runs.
-/

namespace GasNow

structure WishlistVC where
  user : Option User
  productList : List ProductInformation
  /-- `tbl_wishlist.isHidden` -/
  tableIsHidden : Bool
  deriving DecidableEq

/-- The button of the cell at a displayed row: `cellForRow(at:)` and `btn_add_to_cart`. -/
def TableView.cellForRow {α : Type*} (t : TableView α) (row : Nat) : Option Nat :=
  t.displayed[row]?.map (·.1)

namespace WishlistVC

inductive Closure where
  /-- The completion of `getDocuments` in `getWishList`. -/
  | getDocuments
  /-- The completion of `setData` in `itemAddtoCart`, which captures the tapped button. -/
  | setData (sender : Nat)
  /-- The delete action of the alert in `remove_item_from_wishlist`. -/
  | deleteAction (sender : Nat)
  /-- The completion of `delete` in `removeItemAPI`, which captures the index. -/
  | delete (index : Nat)
  deriving DecidableEq

abbrev Fx := Effect FirestoreRequest Closure

def create (currentUser : Option User) : WishlistVC :=
  { user := currentUser, productList := [], tableIsHidden := true }

/-- One turn of the decode loop of `getWishList`. -/
def entry : QueryDocumentSnapshot → Except Trap ProductInformation :=
  ProductInformation.ofEntry "no_of_items" "prprice" "prname" "primage"

def getWishList (vc : WishlistVC) : Except Trap (List Fx) :=
  getUserDocuments vc.user "user-data" "wishlist" .getDocuments

/-- The completion of `getDocuments` in `getWishList`. -/
def getDocumentsCompleted (vc : WishlistVC) (result : QueryResult) :
    Except Trap (WishlistVC × List Fx) := do
  let objs ← decodeResult entry result
  return ({ vc with productList := vc.productList ++ objs, tableIsHidden := false },
    [.hideProgressHUD, .reloadData])

def viewWillAppear (vc : WishlistVC) : Except Trap (WishlistVC × List Fx) := do
  let fx ← getWishList vc
  return (vc, .setTabBarHidden true :: fx)

def cartData (currentUser : Option User) (item : ProductInformation) : DocData :=
  entryData item.product_quantity item.image item.name (GasNow.description item.price)
    ((currentUser.bind (·.email)).getD "")

/-- A tap on an add-to-cart button whose tag is `tag`. -/
def itemAddtoCart (vc : WishlistVC) (currentUser : Option User) (sender tag : Nat) :
    Except Trap (List Fx) := do
  let item ← subscript vc.productList tag
  -- `Auth.auth().currentUser`, where the other handlers use `vc.user`
  setUserDocument currentUser "cart" (cartData currentUser item) (.setData sender)

def removeItemAPI (vc : WishlistVC) (index : Nat) : Except Trap (List Fx) := do
  let obj ← subscript vc.productList index
  deleteUserDocument vc.user "wishlist" obj.documentId (.delete index)

/-- The cell at the row that the sender's tag names must exist. If its button is the sender
the document of that row is removed, otherwise the user is asked first. -/
def removeItemFromWishlist (vc : WishlistVC) (table : TableView ProductInformation)
    (sender : Nat) : Except Trap (List Fx) :=
  match table.cellForRow (table.tag sender) with
  -- `as! CartCell` on no cell
  | none => throw .forcedCast
  | some button =>
    if button = sender then removeItemAPI vc (table.tag sender)
    else return [.popupAlert (.deleteAction sender)]

/-- The completion of `setData` in `itemAddtoCart`. -/
def setDataCompleted (vc : WishlistVC) (table : TableView ProductInformation) (sender : Nat)
    (err : Option NSError) : Except Trap (List Fx) :=
  match err with
  | some _ => return [.hideProgressHUD]
  | none => do
    let fx ← removeItemFromWishlist vc table sender
    return .hideProgressHUD :: fx ++ [.showErrorDailog "Your item added successfully to your cart"]

/-- The completion of `delete` in `removeItemAPI`. -/
def deleteCompleted (vc : WishlistVC) (index : Nat) (err : Option NSError) :
    Except Trap (WishlistVC × List Fx) :=
  match err with
  | some _ => return (vc, [.hideProgressHUD])
  | none => do
    let productList ← removeAt vc.productList index
    return ({ vc with productList }, [.hideProgressHUD, .reloadData])

/-! ### What the handlers do -/

theorem entry_documentId {d : QueryDocumentSnapshot} {obj : ProductInformation}
    (h : entry d = .ok obj) : obj.documentId = d.documentID :=
  ProductInformation.ofEntry_documentId h

theorem viewWillAppear_some (vc : WishlistVC) {user : User} (hu : vc.user = some user) :
    viewWillAppear vc = .ok (vc, [.setTabBarHidden true, .showProgressHUD,
      .request (.getDocuments ⟨["user-data", user.uid, "wishlist"], odd_three ..⟩)
        .getDocuments]) := by
  simp [viewWillAppear, getWishList, hu, getUserDocuments_some user
    (by decide : IsSegment "user-data") (by decide : IsSegment "wishlist"), bind, Except.bind, pure,
    Except.pure]

theorem getDocumentsCompleted_eq_ok {vc vc' : WishlistVC} {fx : List Fx} {result : QueryResult} :
    getDocumentsCompleted vc result = .ok (vc', fx) ↔
      ∃ objs, decodeResult entry result = .ok objs ∧
        vc' = { vc with productList := vc.productList ++ objs, tableIsHidden := false } ∧
        fx = [.hideProgressHUD, .reloadData] := by
  refine bind_eq_ok.trans (exists_congr fun objs => and_congr_right fun _ => ?_)
  simp [pure, Except.pure, eq_comm]

/-- Whether the server has deleted the document or not, the HUD is hidden and nothing else is
asked for. -/
theorem deleteCompleted_cases {vc vc' : WishlistVC} {index : Nat} {err : Option NSError}
    {fx : List Fx} (h : vc.deleteCompleted index err = .ok (vc', fx)) :
    fx = [.hideProgressHUD] ∨ fx = [.hideProgressHUD, .reloadData] := by
  cases err with
  | some e => exact .inl (Prod.mk.inj (Except.ok.inj h)).2.symm
  | none =>
    obtain ⟨items, -, hpair⟩ := bind_eq_ok.mp h
    exact .inr (Prod.mk.inj (Except.ok.inj hpair)).2.symm

theorem itemAddtoCart_some (vc : WishlistVC) (user : User) {sender tag : Nat}
    {item : ProductInformation} (hitem : vc.productList[tag]? = some item) :
    itemAddtoCart vc (some user) sender tag = .ok [.showProgressHUD,
      .request (.setData ⟨["user-data", user.uid, "cart"], odd_three ..⟩
        (cartData (some user) item)) (.setData sender)] := by
  simp [itemAddtoCart, subscript_eq_ok.mpr hitem, setUserDocument_some user
    (by decide : IsSegment "cart"), bind, Except.bind]

theorem removeItemAPI_some (vc : WishlistVC) {user : User} (hu : vc.user = some user)
    {index : Nat} {obj : ProductInformation} (hobj : vc.productList[index]? = some obj)
    (hid : IsSegment obj.documentId) :
    removeItemAPI vc index = .ok [.showProgressHUD,
      .request (.delete ⟨["user-data", user.uid, "wishlist", obj.documentId], even_four ..⟩)
        (.delete index)] := by
  simp [removeItemAPI, subscript_eq_ok.mpr hobj, hu, deleteUserDocument_some user
    (by decide : IsSegment "wishlist") hid, bind, Except.bind]

/-- A successful cart write goes on to delete the document of the row if the sender is the button
of that row, and asks first otherwise. -/
theorem setDataCompleted_none_cases {vc : WishlistVC} {table : TableView ProductInformation}
    {sender : Nat} {fx : List Fx} (h : vc.setDataCompleted table sender none = .ok fx) :
    (table.cellForRow (table.tag sender) = some sender ∧
        ∃ gx, vc.removeItemAPI (table.tag sender) = .ok gx ∧ fx = .hideProgressHUD :: gx ++
          [.showErrorDailog "Your item added successfully to your cart"]) ∨
      table.cellForRow (table.tag sender) ≠ some sender ∧
        fx = [.hideProgressHUD, .popupAlert (.deleteAction sender),
          .showErrorDailog "Your item added successfully to your cart"] := by
  obtain ⟨gx, hgx, hfx⟩ := bind_eq_ok.mp h
  obtain rfl := Except.ok.inj hfx
  unfold removeItemFromWishlist at hgx
  cases hcell : table.cellForRow (table.tag sender) with
  | none =>
    simp only [hcell] at hgx
    cases hgx
  | some button =>
    simp only [hcell] at hgx
    by_cases hbutton : button = sender
    · rw [if_pos hbutton] at hgx
      exact .inl ⟨by rw [hbutton], gx, hgx, rfl⟩
    · rw [if_neg hbutton] at hgx
      obtain rfl := Except.ok.inj hgx
      exact .inr ⟨by simpa using hbutton, rfl⟩

end WishlistVC

end GasNow
