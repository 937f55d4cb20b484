import GasNow.UserDocuments

/-!
# `ProductDetailsVC`

The handlers of the product screen. The quantity and the price exist only as the text of
their labels: each handler reads the label back with `integerValue`, or stores the text.
-/

namespace GasNow

/-- The controller, with the texts of its labels. -/
structure ProductDetailsVC where
  productItemInfo : ProductInformation
  lblProductQuantity : Option String
  productName : Option String
  productPrice : Option String
  product_description : Option String
  deriving DecidableEq

namespace ProductDetailsVC

/-- The closures of the screen: the completions of its two writers. -/
inductive Closure where
  | addToCart
  | wishlistButtonAction
  deriving DecidableEq

abbrev Fx := Effect FirestoreRequest Closure

def setUp (vc : ProductDetailsVC) : ProductDetailsVC :=
  { vc with
    lblProductQuantity := some "1"
    productName := some vc.productItemInfo.name
    productPrice := some (GasNow.description vc.productItemInfo.price)
    product_description := some vc.productItemInfo.description }

def viewWillAppear (vc : ProductDetailsVC) : ProductDetailsVC × List Fx :=
  (vc.setUp, [.setTabBarHidden true])

def viewWillDisappear (vc : ProductDetailsVC) : ProductDetailsVC × List Fx :=
  (vc, [.setTabBarHidden false])

/-- `(lblProductQuantity.text! as NSString).integerValue` -/
def qty (vc : ProductDetailsVC) : Except Trap Int64 := do
  return integerValue (← unwrap vc.lblProductQuantity)

def removeProduct (vc : ProductDetailsVC) : Except Trap ProductDetailsVC := do
  let qty ← vc.qty
  if qty > 1 then
    let qty ← checked (qty.toInt - 1)
    return { vc with lblProductQuantity := some (GasNow.description qty) }
  else return vc

def addProduct (vc : ProductDetailsVC) : Except Trap ProductDetailsVC := do
  let qty ← checked ((← vc.qty).toInt + 1)
  return { vc with lblProductQuantity := some (GasNow.description qty) }

/-- The document that both writers build. -/
def docData (vc : ProductDetailsVC) (currentUser : Option User) : Except Trap DocData := do
  return entryData (← vc.qty) vc.productItemInfo.image (← unwrap vc.productName)
    (← unwrap vc.productPrice) ((currentUser.bind (·.email)).getD "")

def addToCart (vc : ProductDetailsVC) (currentUser : Option User) : Except Trap (List Fx) := do
  setUserDocument currentUser "cart" (← vc.docData currentUser) .addToCart

def wishlistButtonAction (vc : ProductDetailsVC) (currentUser : Option User) :
    Except Trap (List Fx) := do
  setUserDocument currentUser "wishlist" (← vc.docData currentUser) .wishlistButtonAction

/-- The completion of either writer. -/
def setDataCompleted (completion : Closure) (err : Option NSError) : List Fx :=
  match err, completion with
  | some _, _ => [.hideProgressHUD]
  | none, .addToCart =>
    [.hideProgressHUD, .showErrorDailog "Your item added successfully to your cart"]
  | none, .wishlistButtonAction =>
    [.hideProgressHUD, .showErrorDailog "Your item added successfully to wishlist cart"]

def buyNowAction (vc : ProductDetailsVC) : Except Trap (ProductDetailsVC × List Fx) := do
  let productItemInfo := { vc.productItemInfo with product_quantity := ← vc.qty }
  return ({ vc with productItemInfo }, [.pushOrderDetails [productItemInfo]])

end ProductDetailsVC

end GasNow
