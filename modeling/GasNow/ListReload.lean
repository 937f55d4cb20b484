import GasNow.ListScreen
import GasNow.OrdersViewController
import GasNow.WishlistVC
import GasNow.LocationVC

/-!
# Reloading the orders, the wishlist and the depots

The three controllers whose loads append, with the documents that their decode loops get
through, and the runs after which each document is listed once.
-/

namespace GasNow

open Machine LoadEvent

/-! ### The controllers -/

def orders : ListController OrdersViewController OrdersViewController.Closure OrderItems where
  viewWillAppear := OrdersViewController.viewWillAppear
  getDocumentsCompleted := OrdersViewController.getDocumentsCompleted
  listed := OrdersViewController.orderList

def wishlist : ListController WishlistVC WishlistVC.Closure ProductInformation where
  viewWillAppear := WishlistVC.viewWillAppear
  getDocumentsCompleted := WishlistVC.getDocumentsCompleted
  listed := WishlistVC.productList

def depots : ListController LocationVC LocationVC.Closure Artwork where
  viewWillAppear := LocationVC.viewWillAppear
  getDocumentsCompleted := LocationVC.getDocumentsCompleted
  listed vc := vc.artworks.map (·.object)

def depotMap : ListController LocationVC LocationVC.Closure Artwork :=
  { depots with listed := fun vc => vc.annotations.map (·.object) }

/-! ### What the decode loops get through -/

def IsOrder (document : QueryDocumentSnapshot) : Prop :=
  (∃ s, document.data.lookup "product_orderid" = some (.string s)) ∧
    ∃ s, document.data.lookup "payment_mode" = some (.string s)

def IsEntry (document : QueryDocumentSnapshot) : Prop :=
  (∃ n, document.data.lookup "no_of_items" = some (.integer n)) ∧
    (∃ s, document.data.lookup "prname" = some (.string s)) ∧
    ∃ s, document.data.lookup "primage" = some (.string s)

def IsDepot (document : QueryDocumentSnapshot) : Prop :=
  ∃ g, document.data.lookup "geo_location" = some (.geoPoint g)

theorem DocData.forcedString_isOk_iff {data : DocData} {key : String} :
    (∃ s, data.forcedString key = .ok s) ↔ ∃ s, data.lookup key = some (.string s) := by
  unfold DocData.forcedString
  split <;> simp_all

theorem DocData.forcedInt_isOk_iff {data : DocData} {key : String} :
    (∃ n, data.forcedInt key = .ok n) ↔ ∃ n, data.lookup key = some (.integer n) := by
  unfold DocData.forcedInt
  split <;> simp_all

theorem entry_isOk_iff_isOrder (document : QueryDocumentSnapshot) :
    (∃ obj, OrdersViewController.entry document = .ok obj) ↔ IsOrder document := by
  rw [IsOrder, ← DocData.forcedString_isOk_iff, ← DocData.forcedString_isOk_iff]
  cases h : document.data.forcedString "product_orderid" <;>
    cases h' : document.data.forcedString "payment_mode" <;>
    simp [OrdersViewController.entry, h, h', bind, Except.bind, pure, Except.pure]

theorem entry_isOk_iff_isEntry (document : QueryDocumentSnapshot) :
    (∃ obj, WishlistVC.entry document = .ok obj) ↔ IsEntry document := by
  rw [IsEntry, ← DocData.forcedInt_isOk_iff, ← DocData.forcedString_isOk_iff,
    ← DocData.forcedString_isOk_iff]
  cases h : document.data.forcedInt "no_of_items" <;>
    cases h' : document.data.forcedString "prname" <;>
    cases h'' : document.data.forcedString "primage" <;>
    simp [WishlistVC.entry, ProductInformation.ofEntry, h, h', h'', bind, Except.bind, pure,
      Except.pure]

theorem entry_isOk_iff_isDepot (document : QueryDocumentSnapshot) :
    (∃ obj, LocationVC.entry document = .ok obj) ↔ IsDepot document := by
  have hunwrap : (∃ g, unwrap (document.data.optionalGeoPoint "geo_location") = .ok g) ↔
      IsDepot document := by
    unfold DocData.optionalGeoPoint IsDepot
    split <;> simp_all [unwrap]
  rw [← hunwrap]
  cases h : unwrap (document.data.optionalGeoPoint "geo_location") <;>
    simp [LocationVC.entry, h, bind, Except.bind, pure, Except.pure]

/-! ### The loads of each controller append -/

theorem appends_orders (user : User) :
    orders.Appends OrdersViewController.entry (fun vc => vc.user = some user) where
  appear vc hu := ⟨vc, _, OrdersViewController.viewWillAppear_some vc hu, hu, rfl, rfl⟩
  failed _ _ hu :=
    ⟨_, _, OrdersViewController.getDocumentsCompleted_eq_ok.mpr ⟨[], rfl, rfl, rfl⟩, hu,
      List.append_nil _, rfl⟩
  succeeded _ _ objs hu h :=
    ⟨_, _, OrdersViewController.getDocumentsCompleted_eq_ok.mpr ⟨objs, h, rfl, rfl⟩, hu, rfl, rfl⟩

theorem appends_wishlist (user : User) :
    wishlist.Appends WishlistVC.entry (fun vc => vc.user = some user) where
  appear vc hu := ⟨vc, _, WishlistVC.viewWillAppear_some vc hu, hu, rfl, rfl⟩
  failed _ _ hu :=
    ⟨_, _, WishlistVC.getDocumentsCompleted_eq_ok.mpr ⟨[], rfl, rfl, rfl⟩, hu,
      List.append_nil _, rfl⟩
  succeeded _ _ objs hu h :=
    ⟨_, _, WishlistVC.getDocumentsCompleted_eq_ok.mpr ⟨objs, h, rfl, rfl⟩, hu, rfl, rfl⟩

/-- The table and the map show the same objects, so one argument serves both. -/
theorem appends_depots (listed : LocationVC → List Artwork)
    (hlisted : ∀ vc, LocationVC.Mapped vc → listed vc = vc.artworks.map (·.object)) :
    ListController.Appends { depots with listed } LocationVC.entry LocationVC.Mapped where
  appear vc h := ⟨vc, _, LocationVC.viewWillAppear_eq vc, h, rfl, rfl⟩
  failed vc e h := ⟨vc, [.hideProgressHUD], rfl, h, rfl, rfl⟩
  succeeded vc documents objs h hobjs := by
    refine ⟨_, _, LocationVC.getDocumentsCompleted_ok vc hobjs, h.succeeded, ?_, ?_⟩
    · change listed _ = listed vc ++ objs
      rw [hlisted _ h, hlisted _ h.succeeded, List.map_append, allocate_map]
    · exact Effect.requests_eq_nil (by simp)

/-! ### Which runs list each document once -/

/-- For each of the three screens, and for the map of the depots: after a run in which every
load completes, each document of the collection is listed once and in the order of the snapshot
if and only if the documents have the fields that the decode loop forces, and exactly one load
has succeeded or the collection is empty. -/
theorem listsOnce_iff_single_success (user : User) (documents : List QueryDocumentSnapshot)
    (es : List LoadEvent) (hes : CompletesAll documents 0 es) :
    (orders.ListsOnce OrdersViewController.entry (.create (some user)) documents es ↔
      (∀ d ∈ documents, IsOrder d) ∧ (successes es = 1 ∨ documents = [])) ∧
    (wishlist.ListsOnce WishlistVC.entry (.create (some user)) documents es ↔
      (∀ d ∈ documents, IsEntry d) ∧ (successes es = 1 ∨ documents = [])) ∧
    (depots.ListsOnce LocationVC.entry .create documents es ↔
      (∀ d ∈ documents, IsDepot d) ∧ (successes es = 1 ∨ documents = [])) ∧
    (depotMap.ListsOnce LocationVC.entry .create documents es ↔
      (∀ d ∈ documents, IsDepot d) ∧ (successes es = 1 ∨ documents = [])) := by
  simp only [← entry_isOk_iff_isOrder, ← entry_isOk_iff_isEntry, ← entry_isOk_iff_isDepot]
  refine ⟨(appends_orders user).listsOnce_iff rfl rfl hes,
    (appends_wishlist user).listsOnce_iff rfl rfl hes,
    (appends_depots _ fun _ _ => rfl).listsOnce_iff LocationVC.mapped_create rfl hes,
    (appends_depots _ fun vc h => ?_).listsOnce_iff LocationVC.mapped_create rfl hes⟩
  rw [h.annotations]

/-- The orders tab is opened, another tab is opened, and the orders tab is opened again. -/
def twoVisits (documents : List QueryDocumentSnapshot) : List LoadEvent :=
  [.viewWillAppear, .getDocumentsCompleted 0 (.ok documents), .viewWillAppear,
    .getDocumentsCompleted 0 (.ok documents)]

def storedOrder : QueryDocumentSnapshot where
  documentID := "order"
  data := [("no_of_items", .integer 6), ("delivery_date", .string "2020-08-14-22-2020-06:22:21"),
    ("product_orderid", .string "order_1597409541292"), ("total_amount", .string "2394"),
    ("payment_mode", .string "payfast")]
  documentID_segment := by decide

def laterOrder : QueryDocumentSnapshot where
  documentID := "later order"
  data := [("no_of_items", .integer 1), ("product_orderid", .string "order_1597409541293"),
    ("total_amount", .string "399"), ("payment_mode", .string "payfast")]
  documentID_segment := by decide

/-- The tab is opened three times before a load completes, and of the three loads the second one
alone succeeds. -/
def overlappingVisits (documents : List QueryDocumentSnapshot) : List LoadEvent :=
  [.viewWillAppear, .viewWillAppear, .getDocumentsCompleted 0 (.error ⟨"offline"⟩), .viewWillAppear,
    .getDocumentsCompleted 0 (.ok documents), .getDocumentsCompleted 0 (.error ⟨"offline"⟩)]

theorem listsOnce_overlappingVisits :
    orders.ListsOnce OrdersViewController.entry (.create (some customer)) [storedOrder, laterOrder]
      (overlappingVisits [storedOrder, laterOrder]) := by
  have hcompletes : CompletesAll [storedOrder, laterOrder] 0
      (overlappingVisits [storedOrder, laterOrder]) :=
    ⟨by decide, by decide, rfl, by decide, rfl⟩
  refine (listsOnce_iff_single_success customer _ _ hcompletes).1.mpr ⟨?_, .inl rfl⟩
  intro d hd
  rcases List.mem_pair.mp hd with rfl | rfl
  · exact ⟨⟨_, rfl⟩, _, rfl⟩
  · exact ⟨⟨_, rfl⟩, _, rfl⟩

theorem twoVisits_list_twice :
    ¬∀ (user : User) (documents : List QueryDocumentSnapshot) (es : List LoadEvent),
      (documents.map (·.documentID)).Nodup → CompletesAll documents 0 es → 0 < successes es →
        orders.ListsOnce OrdersViewController.entry (.create (some user)) documents es := by
  intro h
  obtain ⟨s, hs, hlisted⟩ := h customer [storedOrder] (twoVisits [storedOrder]) (by decide)
    ⟨by decide, rfl, by decide, rfl, rfl⟩ (by decide)
  cases hs
  revert hlisted
  decide

end GasNow
