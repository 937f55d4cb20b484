import GasNow.ProductInformation
import GasNow.Effect

/-!
# `HomeVC`

The handlers of the home screen, which loads the products once.
-/

namespace GasNow

structure HomeVC where
  productList : List ProductInformation
  deriving DecidableEq

namespace HomeVC

/-- The completion of `getDocuments` in `getproductList`. -/
inductive Closure where
  | getDocuments
  deriving DecidableEq

abbrev Fx := Effect FirestoreRequest Closure

/-- One turn of the decode loop of `getproductList`. -/
def entry (document : QueryDocumentSnapshot) : Except Trap ProductInformation := do
  let name ← document.data.forcedString "name"
  let price ← document.data.forcedInt "price"
  let description ← document.data.forcedString "description"
  let image ← document.data.forcedString "image"
  return { ProductInformation.empty with name, price, description, image }

def getproductList : Except Trap (List Fx) := do
  let c ← Firestore.collection "products"
  return [.request (.getDocuments c) .getDocuments]

def viewDidLoad : Except Trap (List Fx) := do
  let fx ← getproductList
  return .showProgressHUD :: fx

def viewWillAppear : List Fx := [.setTabBarHidden false]

/-- The completion of `getDocuments` in `getproductList`. -/
def getDocumentsCompleted (vc : HomeVC) (result : QueryResult) : Except Trap (HomeVC × List Fx) :=
  match result with
  | .error _ => return (vc, [.hideProgressHUD])
  | .ok documents => do
    let objs ← decodeAll entry documents
    return ({ vc with productList := vc.productList ++ objs }, [.hideProgressHUD, .reloadData])

end HomeVC

end GasNow
