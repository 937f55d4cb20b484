import GasNow.UserDocuments
import GasNow.ProductInformation
import GasNow.Text.DateFormatter

/-!
# `OrdersViewController`

The handlers of the orders screen. The controller of a tab lives as long as the tab bar, and
so does the user that it captured when it was created.
-/

namespace GasNow

/-- `OrderItems`, with the fields that the screen sets. -/
structure OrderItems where
  product_quantity : Int64
  delivery_date : String
  product_orderid : String
  total_amount : String
  payment_mode : String
  deriving DecidableEq

structure OrdersViewController where
  user : Option User
  orderList : List OrderItems
  deriving DecidableEq

namespace OrdersViewController

/-- The completion of `getDocuments` in `getOrderList`, the screen's only closure. -/
inductive Closure where
  | getDocuments
  deriving DecidableEq

abbrev Fx := Effect FirestoreRequest Closure

def create (currentUser : Option User) : OrdersViewController :=
  { user := currentUser, orderList := [] }

/-- One turn of the decode loop of `getOrderList`. -/
def entry (document : QueryDocumentSnapshot) : Except Trap OrderItems := do
  let total_amount := (document.data.optionalString "total_amount").getD ""
  let delivery_date := (document.data.optionalString "delivery_date").getD ""
  let product_orderid ← document.data.forcedString "product_orderid"
  let payment_mode ← document.data.forcedString "payment_mode"
  let product_quantity := (document.data.optionalInt "no_of_items").getD 0
  return { product_quantity, delivery_date, product_orderid, total_amount, payment_mode }

def getOrderList (vc : OrdersViewController) : Except Trap (List Fx) :=
  getUserDocuments vc.user "orders" "orderlist" .getDocuments

/-- The completion of `getDocuments` in `getOrderList`. -/
def getDocumentsCompleted (vc : OrdersViewController) (result : QueryResult) :
    Except Trap (OrdersViewController × List Fx) := do
  let items ← decodeResult entry result
  return ({ vc with orderList := vc.orderList ++ items }, [.hideProgressHUD, .reloadData])

def viewWillAppear (vc : OrdersViewController) : Except Trap (OrdersViewController × List Fx) := do
  -- unlike `CartVC` the screen never empties its list
  let fx ← getOrderList vc
  return (vc, .setTabBarHidden false :: fx)

theorem viewWillAppear_some (vc : OrdersViewController) {user : User} (hu : vc.user = some user) :
    viewWillAppear vc = .ok (vc, [.setTabBarHidden false, .showProgressHUD,
      .request (.getDocuments ⟨["orders", user.uid, "orderlist"], odd_three ..⟩)
        .getDocuments]) := by
  simp [viewWillAppear, getOrderList, hu, getUserDocuments_some user
    (by decide : IsSegment "orders") (by decide : IsSegment "orderlist"), bind, Except.bind, pure,
    Except.pure]

theorem getDocumentsCompleted_eq_ok {vc vc' : OrdersViewController} {fx : List Fx}
    {result : QueryResult} :
    getDocumentsCompleted vc result = .ok (vc', fx) ↔
      ∃ items, decodeResult entry result = .ok items ∧
        vc' = { vc with orderList := vc.orderList ++ items } ∧
        fx = [.hideProgressHUD, .reloadData] := by
  refine bind_eq_ok.trans (exists_congr fun items => and_congr_right fun _ => ?_)
  simp [pure, Except.pure, eq_comm]

end OrdersViewController

end GasNow
