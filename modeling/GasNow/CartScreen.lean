import GasNow.CartVC
import GasNow.Machine.Runs

/-!
# Runs of one cart screen

One `CartVC` instance with its table, its open alerts and its outstanding Firestore calls,
as the user, UIKit and Firestore drive it. Firestore answers each call once, in any order;
an outstanding call is named by its position among the outstanding ones.
-/

namespace GasNow

open Machine

/-- What made the screen start a call. -/
inductive CartOrigin where
  /-- The `n`-th `viewWillAppear`. -/
  | appearance (n : Nat)
  /-- A confirmed tap on the delete button of the row that showed this entry. -/
  | row (shown : ProductInformation)
  deriving DecidableEq

structure CartCall where
  request : FirestoreRequest
  completion : CartVC.Closure
  origin : CartOrigin
  deriving DecidableEq

/-- An open alert, with what the tapped row showed. -/
structure CartAlert where
  action : CartVC.Closure
  shown : ProductInformation
  deriving DecidableEq

/-- How far the load of the last `viewWillAppear` has come. -/
inductive LoadStatus where
  | none
  | outstanding
  | succeeded
  | failed
  deriving DecidableEq, Repr

structure CartScreen where
  vc : CartVC
  table : TableView ProductInformation
  visible : Bool
  alerts : List CartAlert
  calls : List CartCall
  appearances : Nat
  lastLoad : LoadStatus
  /-- The `orderItems` of every `OrderDetails` screen pushed so far. -/
  orderDetails : List (List ProductInformation)

inductive CartEvent where
  | viewWillAppear
  | viewWillDisappear
  /-- A tap on the delete button of the `row`-th displayed cell. -/
  | tapDelete (row : Nat)
  /-- The delete action of the `i`-th open alert. -/
  | confirm (i : Nat)
  | cancel (i : Nat)
  /-- The `i`-th outstanding call, a `getDocuments`, completes; a reload deals `buttons`. -/
  | getDocumentsCompleted (i : Nat) (result : QueryResult) (buttons : List Nat)
  /-- The `i`-th outstanding call, a `delete`, completes; a reload deals `buttons`. -/
  | deleteCompleted (i : Nat) (err : Option NSError) (buttons : List Nat)
  | checkOutNow

namespace CartScreen

/-- A new screen, opened while `user` is signed in. -/
def start (user : User) : CartScreen where
  vc := CartVC.create (some user)
  table := TableView.initial
  visible := false
  alerts := []
  calls := []
  appearances := 0
  lastLoad := .none
  orderDetails := []

def started (origin : CartOrigin) (fx : List CartVC.Fx) : List CartCall :=
  (Effect.requests fx).map fun rk => ⟨rk.1, rk.2, origin⟩

/-- The outcome of a completion handler: a reload deals the cells of the table anew. -/
def completed (s : CartScreen) (buttons : List Nat) :
    Except Trap (CartVC × List CartVC.Fx) → Outcome Trap CartScreen
  | .error t => .trap t
  | .ok (vc, fx) =>
    if Effect.reloads fx then
      if TableView.Deals buttons vc.productList then
        .next { s with vc, table := s.table.reloadData vc.productList buttons }
      else .blocked
    else .next { s with vc }

/-- The status after the load of appearance `origin` has completed. -/
def loadStatus (s : CartScreen) (origin : CartOrigin) (result : QueryResult) : LoadStatus :=
  if origin = .appearance s.appearances then
    match result with
    | .error _ => .failed
    | .ok _ => .succeeded
  else s.lastLoad

/-- Firestore never returns one document twice. -/
def Distinct : QueryResult → Prop
  | .error _ => True
  | .ok documents => (documents.map (·.documentID)).Nodup

instance : (result : QueryResult) → Decidable (Distinct result)
  | .error _ => inferInstanceAs (Decidable True)
  | .ok _ => inferInstanceAs (Decidable (List.Nodup _))

def step (s : CartScreen) : CartEvent → Outcome Trap CartScreen
  | .viewWillAppear =>
    match s.vc.viewWillAppear with
    | .error t => .trap t
    | .ok (vc, fx) =>
      .next { s with
        vc
        visible := true
        calls := s.calls ++ started (.appearance (s.appearances + 1)) fx
        appearances := s.appearances + 1
        lastLoad := .outstanding }
  -- the outstanding loads are not cancelled
  | .viewWillDisappear => .next { s with vc := s.vc.viewWillDisappear.1, visible := false }
  | .tapDelete row =>
    match s.table.displayed[row]? with
    | none => .blocked
    | some (sender, shown) =>
      .next { s with
        alerts := s.alerts ++ (Effect.alerts (CartVC.deleteItem sender)).map fun k => ⟨k, shown⟩ }
  | .confirm i =>
    match s.alerts[i]? with
    | some ⟨.deleteAction sender, shown⟩ =>
      match s.vc.deleteAction sender (s.table.tag sender) with
      | .error t => .trap t
      | .ok fx =>
        .next { s with
          alerts := s.alerts.eraseIdx i
          calls := s.calls ++ started (.row shown) fx }
    | _ => .blocked
  | .cancel i =>
    if i < s.alerts.length then .next { s with alerts := s.alerts.eraseIdx i } else .blocked
  | .getDocumentsCompleted i result buttons =>
    match s.calls[i]? with
    | some ⟨_, .getDocuments, origin⟩ =>
      if Distinct result then
        completed
          { s with calls := s.calls.eraseIdx i, lastLoad := loadStatus s origin result } buttons
          (s.vc.getDocumentsCompleted result)
      else .blocked
    | _ => .blocked
  | .deleteCompleted i err buttons =>
    match s.calls[i]? with
    | some ⟨_, .delete sender, _⟩ =>
      completed { s with calls := s.calls.eraseIdx i } buttons
        (s.vc.deleteCompleted (s.table.tag sender) err)
    | _ => .blocked
  | .checkOutNow =>
    .next { s with orderDetails := s.orderDetails ++ Effect.orderDetails s.vc.checkOutNow }

/-! ### What each event does -/

theorem completed_eq_next {s t : CartScreen} {buttons : List Nat}
    {handled : Except Trap (CartVC × List CartVC.Fx)}
    (h : completed s buttons handled = .next t) :
    ∃ vc fx, handled = .ok (vc, fx) ∧
      (Effect.reloads fx = true ∧ TableView.Deals buttons vc.productList ∧
          t = { s with vc, table := s.table.reloadData vc.productList buttons } ∨
        Effect.reloads fx = false ∧ t = { s with vc }) := by
  unfold completed at h
  split at h
  · cases h
  · next vc fx =>
    refine ⟨vc, fx, rfl, ?_⟩
    split at h
    · next hr =>
      split at h
      · next hd => exact .inl ⟨hr, hd, (Outcome.next.inj h).symm⟩
      · cases h
    · next hr => exact .inr ⟨by simpa using hr, (Outcome.next.inj h).symm⟩

theorem step_viewWillAppear (s : CartScreen) {user : User} (hu : s.vc.user = some user) :
    step s .viewWillAppear = .next { s with
      visible := true
      calls := s.calls ++ [⟨.getDocuments ⟨["user-data", user.uid, "cart"], odd_three ..⟩,
        .getDocuments, .appearance (s.appearances + 1)⟩]
      appearances := s.appearances + 1
      lastLoad := .outstanding } := by
  simp [step, CartVC.viewWillAppear_some s.vc hu, started, Effect.requests]

theorem step_getDocumentsCompleted {s t : CartScreen} {i : Nat} {result : QueryResult}
    {buttons : List Nat} (h : step s (.getDocumentsCompleted i result buttons) = .next t) :
    ∃ r origin objs, s.calls[i]? = some ⟨r, .getDocuments, origin⟩ ∧ Distinct result ∧
      decodeResult CartVC.entry result = .ok objs ∧
      TableView.Deals buttons (s.vc.productList ++ objs) ∧
      t = { s with
        vc := { s.vc with productList := s.vc.productList ++ objs, tableIsHidden := false }
        calls := s.calls.eraseIdx i
        lastLoad := loadStatus s origin result
        table := s.table.reloadData (s.vc.productList ++ objs) buttons } := by
  simp only [step] at h
  split at h
  · next r origin hc =>
    split at h
    · next hd =>
      obtain ⟨vc, fx, hvc, hcase⟩ := completed_eq_next h
      obtain ⟨objs, hobjs, rfl, rfl⟩ := CartVC.getDocumentsCompleted_eq_ok.mp hvc
      rcases hcase with ⟨-, hdeal, ht⟩ | ⟨hr, -⟩
      · exact ⟨r, origin, objs, hc, hd, hobjs, hdeal, ht⟩
      · simp [Effect.reloads] at hr
    · cases h
  · cases h

theorem step_confirm_alert {s : CartScreen} {i : Nat} (h : step s (.confirm i) ≠ .blocked) :
    ∃ sender shown, s.alerts[i]? = some ⟨.deleteAction sender, shown⟩ := by
  simp only [step] at h
  split at h
  · next sender shown ha => exact ⟨sender, shown, ha⟩
  · exact absurd rfl h

/-- A confirmed delete asks for the document of the row that the button's tag names, or
traps. -/
theorem step_confirm {s : CartScreen} {user : User} (hu : s.vc.user = some user) {i sender : Nat}
    {shown obj : ProductInformation} (ha : s.alerts[i]? = some ⟨.deleteAction sender, shown⟩)
    (hobj : s.vc.productList[s.table.tag sender]? = some obj) (hid : IsSegment obj.documentId) :
    step s (.confirm i) = .next { s with
      alerts := s.alerts.eraseIdx i
      calls := s.calls ++
        [⟨.delete ⟨["user-data", user.uid, "cart", obj.documentId], even_four ..⟩, .delete sender,
          .row shown⟩] } := by
  simp [step, ha, CartVC.deleteAction_some _ hu hobj hid, started, Effect.requests]

theorem step_confirm_none {s : CartScreen} {i sender : Nat} {shown : ProductInformation}
    (ha : s.alerts[i]? = some ⟨.deleteAction sender, shown⟩)
    (hobj : s.vc.productList[s.table.tag sender]? = none) :
    step s (.confirm i) = .trap .indexOutOfRange := by
  simp [step, ha, CartVC.deleteAction_none _ hobj]

/-- A successful delete removes the row that the button's tag names, or traps. -/
theorem step_deleteCompleted_none {s : CartScreen} {i sender : Nat} {r : FirestoreRequest}
    {origin : CartOrigin} (hc : s.calls[i]? = some ⟨r, .delete sender, origin⟩)
    (buttons : List Nat) :
    step s (.deleteCompleted i none buttons) =
      let items := s.vc.productList.eraseIdx (s.table.tag sender)
      if s.table.tag sender < s.vc.productList.length then
        if TableView.Deals buttons items then
          .next { s with
            vc := { s.vc with productList := items }
            calls := s.calls.eraseIdx i
            table := s.table.reloadData items buttons }
        else .blocked
      else .trap .indexOutOfRange := by
  by_cases h : s.table.tag sender < s.vc.productList.length
  · simp [step, hc, CartVC.deleteCompleted, removeAt, h, completed, Effect.reloads, bind,
      Except.bind, pure, Except.pure]
  · simp [step, hc, CartVC.deleteCompleted, removeAt, h, completed, bind, Except.bind]

theorem step_deleteCompleted_some {s : CartScreen} {i sender : Nat} {r : FirestoreRequest}
    {origin : CartOrigin} (hc : s.calls[i]? = some ⟨r, .delete sender, origin⟩) (e : NSError)
    (buttons : List Nat) :
    step s (.deleteCompleted i (some e) buttons) =
      .next { s with calls := s.calls.eraseIdx i } := by
  simp [step, hc, CartVC.deleteCompleted, completed, Effect.reloads, pure, Except.pure]

theorem step_deleteCompleted_call {s : CartScreen} {i : Nat} {err : Option NSError}
    {buttons : List Nat} (h : step s (.deleteCompleted i err buttons) ≠ .blocked) :
    ∃ r sender origin, s.calls[i]? = some ⟨r, .delete sender, origin⟩ := by
  simp only [step] at h
  split at h
  · next r sender origin hc => exact ⟨r, sender, origin, hc⟩
  · exact absurd rfl h

/-- A completed delete keeps the user and adds no entry. -/
theorem step_deleteCompleted_vc {s t : CartScreen} {i : Nat} {err : Option NSError}
    {buttons : List Nat} (h : step s (.deleteCompleted i err buttons) = .next t) :
    t.vc.user = s.vc.user ∧ t.vc.productList ⊆ s.vc.productList := by
  have hb : step s (.deleteCompleted i err buttons) ≠ .blocked := by simp [h]
  obtain ⟨r, sender, origin, hc⟩ := step_deleteCompleted_call hb
  cases err with
  | none =>
    rw [step_deleteCompleted_none hc] at h
    dsimp only at h
    split at h
    · split at h
      · cases h
        exact ⟨rfl, List.eraseIdx_subset⟩
      · cases h
    · cases h
  | some e =>
    rw [step_deleteCompleted_some hc] at h
    cases h
    exact ⟨rfl, List.Subset.refl _⟩

end CartScreen

end GasNow
