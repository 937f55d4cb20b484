import GasNow.WishlistVC
import GasNow.Machine.Runs

/-!
# Runs of one wishlist screen

One `WishlistVC` instance after a successful load, with its table, its outstanding Firestore
calls and the documents of its user at the server. The cell at a row stays the cell at that
row as long as the row exists; Firestore answers each call once, in any order.
-/

namespace GasNow

open Machine

/-- An outstanding call, with the entry that the tapped row showed. -/
structure WishlistCall where
  request : FirestoreRequest
  completion : WishlistVC.Closure
  shown : ProductInformation
  deriving DecidableEq

structure CartWrite where
  collection : CollectionReference
  docData : DocData
  shown : ProductInformation
  deriving DecidableEq

structure WishlistScreen where
  vc : WishlistVC
  /-- `Auth.auth().currentUser` -/
  currentUser : Option User
  table : TableView ProductInformation
  alerts : List WishlistVC.Closure
  calls : List WishlistCall
  written : List CartWrite
  wishlist : List DocumentReference
  deleted : List DocumentReference

inductive WishlistEvent where
  /-- A tap on the add-to-cart button of the `row`-th displayed cell. -/
  | tapAddToCart (row : Nat)
  /-- The `i`-th outstanding call, a `setData`, completes. -/
  | setDataCompleted (i : Nat) (err : Option NSError)
  /-- The `i`-th outstanding call, a `delete`, completes. -/
  | deleteCompleted (i : Nat) (err : Option NSError)

/-- `reloadData()` when every cell keeps its row. -/
def TableView.reloadInPlace {α : Type*} (t : TableView α) (rows : List α) : TableView α :=
  t.reloadData rows (List.range rows.length)

/-- `db.collection("user-data").document(user.uid).collection("wishlist").document(id)` -/
def wishlistDocument (user : User) (id : String) : DocumentReference :=
  ⟨["user-data", user.uid, "wishlist", id], even_four ..⟩

theorem wishlistDocument_inj {user : User} {id id' : String} :
    wishlistDocument user id = wishlistDocument user id' ↔ id = id' := by
  simp [wishlistDocument]

namespace WishlistScreen

/-- The screen of `user` after a load has returned `documents`, decoded as `items`. -/
def start (user : User) (documents : List QueryDocumentSnapshot)
    (items : List ProductInformation) : WishlistScreen where
  vc := { WishlistVC.create (some user) with productList := items, tableIsHidden := false }
  currentUser := some user
  table := TableView.initial.reloadInPlace items
  alerts := []
  calls := []
  written := []
  wishlist := documents.map fun d => wishlistDocument user d.documentID
  deleted := []

theorem start_vc (user : User) {documents : List QueryDocumentSnapshot}
    {items : List ProductInformation} (h : decodeAll WishlistVC.entry documents = .ok items) :
    (WishlistVC.create (some user)).getDocumentsCompleted (.ok documents) =
      .ok ((start user documents items).vc, [.hideProgressHUD, .reloadData]) :=
  WishlistVC.getDocumentsCompleted_eq_ok.mpr ⟨items, h, by simp [start, WishlistVC.create], rfl⟩

def started (shown : ProductInformation) (fx : List WishlistVC.Fx) : List WishlistCall :=
  (Effect.requests fx).map fun rk => ⟨rk.1, rk.2, shown⟩

/-- The server deletes a document; a document that is gone already is deleted without error. -/
def serverDelete (s : WishlistScreen) (d : DocumentReference) : WishlistScreen :=
  if d ∈ s.wishlist then
    { s with wishlist := s.wishlist.erase d, deleted := s.deleted ++ [d] }
  else s

def step (s : WishlistScreen) : WishlistEvent → Outcome Trap WishlistScreen
  | .tapAddToCart row =>
    match s.table.displayed[row]? with
    | none => .blocked
    | some (sender, shown) =>
      match s.vc.itemAddtoCart s.currentUser sender (s.table.tag sender) with
      | .error t => .trap t
      | .ok fx => .next { s with calls := s.calls ++ started shown fx }
  | .setDataCompleted i err =>
    match s.calls[i]? with
    | some ⟨.setData c docData, .setData sender, shown⟩ =>
      match s.vc.setDataCompleted s.table sender err with
      | .error t => .trap t
      | .ok fx =>
        .next { s with
          alerts := s.alerts ++ Effect.alerts fx
          calls := s.calls.eraseIdx i ++ started shown fx
          written := if err.isNone then s.written ++ [⟨c, docData, shown⟩] else s.written }
    | _ => .blocked
  | .deleteCompleted i err =>
    match s.calls[i]? with
    | some ⟨.delete d, .delete index, _⟩ =>
      match s.vc.deleteCompleted index err with
      | .error t => .trap t
      | .ok (vc, fx) =>
        -- an answer without an error means that the server has deleted the document
        let s := if err.isNone then s.serverDelete d else s
        .next { s with
          vc
          calls := s.calls.eraseIdx i
          table := if Effect.reloads fx then s.table.reloadInPlace vc.productList else s.table }
    | _ => .blocked

/-! ### What each event does -/

/-- The cells of a table that shows `rows`, each cell at its own row. -/
structure InPlace (s : WishlistScreen) (n : Nat) : Prop where
  displayed : s.table.displayed = (List.range s.vc.productList.length).zip s.vc.productList
  /-- A button keeps the tag of its row, also when its row is gone. -/
  tag : ∀ b < n, s.table.tag b = b
  length_le : s.vc.productList.length ≤ n

theorem tag_reloadInPlace {α : Type*} (t : TableView α) (rows : List α) (b : Nat) :
    (t.reloadInPlace rows).tag b = if b < rows.length then b else t.tag b := by
  split
  · next h =>
    have hidx := (List.nodup_range (n := rows.length)).idxOf_getElem b (by simpa using h)
    rw [List.getElem_range] at hidx
    simp [TableView.reloadInPlace, TableView.reloadData, h, hidx]
  · next h => simp [TableView.reloadInPlace, TableView.reloadData, h]

theorem InPlace.displayed_getElem? {s : WishlistScreen} {n row sender : Nat}
    {shown : ProductInformation} (h : InPlace s n)
    (hrow : s.table.displayed[row]? = some (sender, shown)) :
    sender = row ∧ s.vc.productList[row]? = some shown ∧ row < n := by
  rw [h.displayed, List.getElem?_zip_eq_some] at hrow
  obtain ⟨hr, hp⟩ := hrow
  have hlt : row < s.vc.productList.length := (List.getElem?_eq_some_iff.mp hp).1
  rw [List.getElem?_range hlt] at hr
  exact ⟨(Option.some.inj hr).symm, hp, hlt.trans_le h.length_le⟩

theorem InPlace.cellForRow {s : WishlistScreen} {n row : Nat} {obj : ProductInformation}
    (h : InPlace s n) (hobj : s.vc.productList[row]? = some obj) :
    s.table.cellForRow row = some row := by
  have hlt : row < s.vc.productList.length := (List.getElem?_eq_some_iff.mp hobj).1
  have hget : s.table.displayed[row]? = some (row, obj) := by
    rw [h.displayed, List.getElem?_zip_eq_some]
    exact ⟨List.getElem?_range hlt, hobj⟩
  simp [TableView.cellForRow, hget]

theorem step_tapAddToCart {s t : WishlistScreen} {user : User} {n row : Nat} (h : InPlace s n)
    (hu : s.currentUser = some user) (ht : step s (.tapAddToCart row) = .next t) :
    ∃ shown, s.vc.productList[row]? = some shown ∧ row < n ∧
      t = { s with calls := s.calls ++
        [⟨.setData ⟨["user-data", user.uid, "cart"], odd_three ..⟩
          (WishlistVC.cartData (some user) shown), .setData row, shown⟩] } := by
  simp only [step] at ht
  split at ht
  · cases ht
  · next sender shown hrow =>
    obtain ⟨rfl, hshown, hlt⟩ := h.displayed_getElem? hrow
    rw [h.tag sender hlt, hu, WishlistVC.itemAddtoCart_some _ user hshown] at ht
    cases ht
    exact ⟨shown, hshown, hlt, by simp [started, Effect.requests, hu]⟩

theorem step_setDataCompleted_call {s : WishlistScreen} {i : Nat} {err : Option NSError}
    (h : step s (.setDataCompleted i err) ≠ .blocked) :
    ∃ c docData sender shown, s.calls[i]? = some ⟨.setData c docData, .setData sender, shown⟩ := by
  simp only [step] at h
  split at h
  · next c docData sender shown hc => exact ⟨c, docData, sender, shown, hc⟩
  · exact absurd rfl h

theorem step_setDataCompleted_some {s : WishlistScreen} {i sender : Nat} {c : CollectionReference}
    {docData : DocData} {shown : ProductInformation}
    (hc : s.calls[i]? = some ⟨.setData c docData, .setData sender, shown⟩) (e : NSError) :
    step s (.setDataCompleted i (some e)) = .next { s with calls := s.calls.eraseIdx i } := by
  simp [step, hc, WishlistVC.setDataCompleted, started, Effect.requests, Effect.alerts, pure,
    Except.pure]

/-- A successful cart write asks the server to delete the document of the row that the
sender's tag names. -/
theorem step_setDataCompleted_none {s : WishlistScreen} {user : User} {n i sender : Nat}
    {c : CollectionReference} {docData : DocData} {shown obj : ProductInformation}
    (h : InPlace s n) (hu : s.vc.user = some user) (hsender : sender < n)
    (hc : s.calls[i]? = some ⟨.setData c docData, .setData sender, shown⟩)
    (hobj : s.vc.productList[s.table.tag sender]? = some obj) (hid : IsSegment obj.documentId) :
    step s (.setDataCompleted i none) = .next { s with
      calls := s.calls.eraseIdx i ++
        [⟨.delete (wishlistDocument user obj.documentId), .delete (s.table.tag sender), shown⟩]
      written := s.written ++ [⟨c, docData, shown⟩] } := by
  have hcell := h.cellForRow hobj
  have htag := h.tag sender hsender
  have hremove := WishlistVC.removeItemAPI_some s.vc hu hobj hid
  -- the tag of a button in view is its row, so the cell found is the sender's own
  rw [htag] at hcell hremove
  simp [step, hc, WishlistVC.setDataCompleted, WishlistVC.removeItemFromWishlist, htag, hcell,
    hremove, started, Effect.requests, Effect.alerts, wishlistDocument, bind, Except.bind, pure,
    Except.pure]

theorem step_deleteCompleted_call {s : WishlistScreen} {i : Nat} {err : Option NSError}
    (h : step s (.deleteCompleted i err) ≠ .blocked) :
    ∃ d index shown, s.calls[i]? = some ⟨.delete d, .delete index, shown⟩ := by
  simp only [step] at h
  split at h
  · next d index shown hc => exact ⟨d, index, shown, hc⟩
  · exact absurd rfl h

theorem step_deleteCompleted_none {s t : WishlistScreen} {i index : Nat} {d : DocumentReference}
    {shown : ProductInformation} (hc : s.calls[i]? = some ⟨.delete d, .delete index, shown⟩)
    (ht : step s (.deleteCompleted i none) = .next t) :
    t = { s.serverDelete d with
      vc := { s.vc with productList := s.vc.productList.eraseIdx index }
      calls := s.calls.eraseIdx i
      table := s.table.reloadInPlace (s.vc.productList.eraseIdx index) } := by
  have hserver : (s.serverDelete d).calls = s.calls ∧ (s.serverDelete d).table = s.table := by
    unfold serverDelete
    split <;> exact ⟨rfl, rfl⟩
  by_cases hlt : index < s.vc.productList.length
  · simp [step, hc, WishlistVC.deleteCompleted, removeAt, hlt, Effect.reloads, hserver, bind,
      Except.bind, pure, Except.pure] at ht
    exact ht.symm
  · simp [step, hc, WishlistVC.deleteCompleted, removeAt, hlt, bind, Except.bind] at ht

end WishlistScreen

end GasNow
