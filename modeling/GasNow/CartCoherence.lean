import GasNow.CartScreen

/-!
# The cart list up to checkout

Loads append to `productList` and carry no mark of the appearance that started them;
`viewWillDisappear` empties it. In every run the list is therefore a whole number of copies
of the server's cart, and the screen is coherent exactly as long as no load lands on a list
that an earlier load has filled already.
-/

namespace GasNow

open Machine

namespace CartScreen

variable {server : List QueryDocumentSnapshot}

/-- The entries name every document of the server's cart exactly once. -/
def BillsOnce (server : List QueryDocumentSnapshot) (items : List ProductInformation) : Prop :=
  (items.map (·.documentId)).Perm (server.map (·.documentID))

/-- No entry is listed twice; and a visible screen whose last load has succeeded, with no
load outstanding, lists the server's cart and hands it to `OrderDetails`. -/
def Coherent (server : List QueryDocumentSnapshot) (s : CartScreen) : Prop :=
  (s.vc.productList.map (·.documentId)).Nodup ∧
    (s.visible = true → (∀ c ∈ s.calls, c.completion ≠ .getDocuments) → s.lastLoad = .succeeded →
      BillsOnce server s.vc.productList ∧
        ∀ items ∈ Effect.orderDetails s.vc.checkOutNow, BillsOnce server items)

/-- The events of a visit to the cart up to checkout, while the server's cart is `server`. -/
def Visit (server : List QueryDocumentSnapshot) : CartEvent → Prop
  | .viewWillAppear | .viewWillDisappear | .checkOutNow => True
  | .getDocumentsCompleted _ (.error _) _ => True
  | .getDocumentsCompleted _ (.ok documents) _ => documents = server
  | _ => False

/-- No load lands on a list that is filled already. -/
def LandsOnEmpty (s : CartScreen) : CartEvent → Prop
  | .getDocumentsCompleted _ (.ok documents) _ => s.vc.productList = [] ∨ documents = []
  | _ => True

/-- At least one copy of the server's cart, and nothing else. -/
def Copies (server : List QueryDocumentSnapshot) (items : List ProductInformation) : Prop :=
  ∃ objs k, decodeAll CartVC.entry server = .ok objs ∧
    items = (List.replicate (k + 1) objs).flatten

theorem Copies.single {objs : List ProductInformation}
    (h : decodeAll CartVC.entry server = .ok objs) : Copies server objs :=
  ⟨objs, 0, h, by simp⟩

theorem Copies.append {items objs : List ProductInformation} (hi : Copies server items)
    (h : decodeAll CartVC.entry server = .ok objs) : Copies server (items ++ objs) := by
  obtain ⟨objs', k, hobjs', rfl⟩ := hi
  obtain rfl : objs' = objs := by simpa [hobjs'] using h
  exact ⟨objs', k + 1, h, by rw [List.replicate_succ' (n := k + 1), List.flatten_append]; simp⟩

theorem Copies.subset {items objs : List ProductInformation} (hi : Copies server items)
    (h : decodeAll CartVC.entry server = .ok objs) : objs ⊆ items := by
  obtain ⟨objs', k, hobjs', rfl⟩ := hi
  obtain rfl : objs' = objs := by simpa [hobjs'] using h
  intro x hx
  simp [List.replicate_succ, hx]

theorem decodeAll_documentIds {objs : List ProductInformation}
    (h : decodeAll CartVC.entry server = .ok objs) :
    objs.map (·.documentId) = server.map (·.documentID) :=
  decodeAll_map (fun _ _ => CartVC.entry_documentId) h

/-- Copies without a repeated entry are one copy, or the cart is empty. -/
theorem Copies.billsOnce {items : List ProductInformation} (hi : Copies server items)
    (hn : (items.map (·.documentId)).Nodup) : BillsOnce server items := by
  obtain ⟨objs, k, h, rfl⟩ := hi
  have hids := decodeAll_documentIds h
  cases k with
  | zero => simp [BillsOnce, hids]
  | succ k =>
    -- The first two copies are disjoint only if they are empty.
    rw [List.replicate_succ, List.replicate_succ, List.flatten_cons, List.flatten_cons,
      List.map_append, List.map_append, List.nodup_append] at hn
    have hnil : objs = [] := by
      cases objs with
      | nil => rfl
      | cons obj rest => exact absurd rfl (hn.2.2 obj.documentId (by simp) obj.documentId (by simp))
    subst hnil
    simp [BillsOnce, ← hids]

/-- Appending the decoded cart keeps the entries distinct only on an empty list. -/
theorem nodup_append_iff {items objs : List ProductInformation}
    (hs : (server.map (·.documentID)).Nodup) (hi : items = [] ∨ Copies server items)
    (hn : (items.map (·.documentId)).Nodup) (h : decodeAll CartVC.entry server = .ok objs) :
    ((items ++ objs).map (·.documentId)).Nodup ↔ items = [] ∨ server = [] := by
  have hids := decodeAll_documentIds h
  constructor
  · intro happ
    rcases hi with hi | hi
    · exact .inl hi
    · right
      -- the list holds a copy of the cart already, so a further one repeats its entries
      rw [List.map_append, List.nodup_append] at happ
      cases objs with
      | nil => exact decodeAll_eq_nil h
      | cons obj rest =>
        have hmem : obj ∈ items := hi.subset h (by simp)
        exact absurd rfl (happ.2.2 obj.documentId (List.mem_map_of_mem hmem) obj.documentId
          (by simp))
  · rintro (rfl | rfl)
    · simpa [hids] using hs
    · obtain rfl : objs = [] := by simpa using h.symm
      simpa using hn

/-- What every run of visits keeps. -/
structure VisitInv (user : User) (server : List QueryDocumentSnapshot) (s : CartScreen) : Prop where
  user_eq : s.vc.user = some user
  items : s.vc.productList = [] ∨ Copies server s.vc.productList
  loaded : s.visible = true → s.lastLoad = .succeeded → Copies server s.vc.productList

theorem visitInv_start (user : User) : VisitInv user server (start user) where
  user_eq := rfl
  items := .inl rfl
  loaded := fun h => by simp [start] at h

theorem VisitInv.step {user : User} {s t : CartScreen} {e : CartEvent}
    (hi : VisitInv user server s) (he : Visit server e) (ht : step s e = .next t) :
    VisitInv user server t := by
  cases e with
  | viewWillAppear =>
    rw [step_viewWillAppear s hi.user_eq] at ht
    cases ht
    exact ⟨hi.user_eq, hi.items, fun _ h => by cases h⟩
  | viewWillDisappear =>
    cases ht
    exact ⟨hi.user_eq, .inl rfl, fun h => by cases h⟩
  | checkOutNow =>
    cases ht
    exact ⟨hi.user_eq, hi.items, hi.loaded⟩
  | getDocumentsCompleted i result buttons =>
    obtain ⟨r, origin, objs, hc, -, hobjs, -, rfl⟩ := step_getDocumentsCompleted ht
    cases result with
    | error e =>
      obtain rfl : objs = [] := by simpa [decodeResult] using hobjs.symm
      refine ⟨hi.user_eq, by simpa using hi.items, fun hv hl => ?_⟩
      -- an earlier load has failed, so the last one had succeeded before
      have hl : s.lastLoad = .succeeded := by
        simp only [loadStatus] at hl
        split at hl
        · cases hl
        · exact hl
      simpa using hi.loaded hv hl
    | ok documents =>
      obtain rfl : documents = server := he
      have hcopies : Copies documents (s.vc.productList ++ objs) := by
        rcases hi.items with h | h
        · rw [h]
          exact Copies.single hobjs
        · exact h.append hobjs
      exact ⟨hi.user_eq, .inr hcopies, fun _ _ => hcopies⟩
  | tapDelete row => cases he
  | confirm i => cases he
  | cancel i => cases he
  | deleteCompleted i err buttons => cases he

/-- Within the invariant only repeated entries can break coherence. -/
theorem VisitInv.coherent_iff {user : User} {s : CartScreen} (hi : VisitInv user server s) :
    Coherent server s ↔ (s.vc.productList.map (·.documentId)).Nodup := by
  refine ⟨And.left, fun hn => ⟨hn, fun hv _ hl => ?_⟩⟩
  -- a load has succeeded since the screen appeared, so the list is not the empty one
  have hb := (hi.loaded hv hl).billsOnce hn
  refine ⟨hb, fun items hitems => ?_⟩
  obtain rfl : items = s.vc.productList := by
    simpa [CartVC.checkOutNow, Effect.orderDetails] using hitems
  exact hb

theorem VisitInv.step_coherent_iff {user : User} (hs : (server.map (·.documentID)).Nodup)
    {s t : CartScreen} {e : CartEvent} (hi : VisitInv user server s) (hc : Coherent server s)
    (he : Visit server e) (ht : CartScreen.step s e = .next t) :
    Coherent server t ↔ LandsOnEmpty s e := by
  rw [(hi.step he ht).coherent_iff]
  have hn := hc.1
  cases e with
  | viewWillAppear =>
    rw [step_viewWillAppear s hi.user_eq] at ht
    cases ht
    exact iff_of_true hn trivial
  | viewWillDisappear =>
    cases ht
    exact iff_of_true List.nodup_nil trivial
  | checkOutNow =>
    cases ht
    exact iff_of_true hn trivial
  | getDocumentsCompleted i result buttons =>
    obtain ⟨r, origin, objs, -, -, hobjs, -, rfl⟩ := step_getDocumentsCompleted ht
    cases result with
    | error e =>
      obtain rfl : objs = [] := by simpa [decodeResult] using hobjs.symm
      exact iff_of_true (by simpa using hn) trivial
    | ok documents =>
      obtain rfl : documents = server := he
      exact nodup_append_iff hs hi.items hn hobjs
  | tapDelete row => cases he
  | confirm i => cases he
  | cancel i => cases he
  | deleteCompleted i err buttons => cases he

/-- The cart screen is coherent throughout a run if and only if every load that succeeds in
it lands on an empty list, or returns an empty cart. -/
theorem coherent_iff_landsOnEmpty (user : User) (server : List QueryDocumentSnapshot)
    (hs : (server.map (·.documentID)).Nodup) (es : List CartEvent)
    (hes : ∀ e ∈ es, Visit server e) :
    Always step (Coherent server) (start user) es ↔ Meets step LandsOnEmpty (start user) es := by
  have hstart : VisitInv user server (start user) := visitInv_start user
  apply always_iff_meets (I := VisitInv user server) (E := Visit server)
  · intro s e t he hi _ _ ht
    exact hi.step he ht
  · intro s e t he hi hc ht
    exact hi.step_coherent_iff hs hc he ht
  · exact hstart
  · rw [hstart.coherent_iff]
    exact List.nodup_nil
  · exact hes

def oneCylinder : List QueryDocumentSnapshot := [cylinder "a" isSegment_a]

/-- Open the cart, leave it, come back, and then both loads succeed. -/
def overlappingLoads : List CartEvent :=
  [.viewWillAppear, .viewWillDisappear, .viewWillAppear,
    .getDocumentsCompleted 0 (.ok oneCylinder) [0],
    .getDocumentsCompleted 0 (.ok oneCylinder) [0, 1]]

theorem visit_overlappingLoads : ∀ e ∈ overlappingLoads, Visit oneCylinder e := by
  simp [overlappingLoads, Visit]

def twoCylinders : List QueryDocumentSnapshot :=
  [cylinder "a" isSegment_a, cylinder "b" isSegment_b]

/-- Of two overlapping loads the later one fails and the earlier one succeeds; the items are
checked out, and so are those of the next visit. -/
def laterLoadFails : List CartEvent :=
  [.viewWillAppear, .viewWillDisappear, .viewWillAppear,
    .getDocumentsCompleted 1 (.error ⟨"offline"⟩) [],
    .getDocumentsCompleted 0 (.ok twoCylinders) [1, 0], .checkOutNow, .viewWillDisappear,
    .viewWillAppear, .getDocumentsCompleted 0 (.ok twoCylinders) [0, 1], .checkOutNow]

theorem coherent_laterLoadFails :
    Always step (Coherent twoCylinders) (start customer) laterLoadFails := by
  refine (coherent_iff_landsOnEmpty customer twoCylinders (by decide) _ ?_).mpr ?_
  · simp [laterLoadFails, Visit]
  · simp only [Meets, laterLoadFails, attempts_cons]
    refine ⟨fun _ _ _ => trivial, fun t ht => ?_⟩
    cases ht
    refine ⟨fun _ _ _ => trivial, fun t ht => ?_⟩
    cases ht
    refine ⟨fun _ _ _ => trivial, fun t ht => ?_⟩
    cases ht
    refine ⟨fun _ _ _ => trivial, fun t ht => ?_⟩
    cases ht
    -- the list is still empty
    refine ⟨fun _ _ _ => .inl rfl, fun t ht => ?_⟩
    cases ht
    refine ⟨fun _ _ _ => trivial, fun t ht => ?_⟩
    cases ht
    refine ⟨fun _ _ _ => trivial, fun t ht => ?_⟩
    cases ht
    refine ⟨fun _ _ _ => trivial, fun t ht => ?_⟩
    cases ht
    -- and again, since the screen has disappeared
    refine ⟨fun _ _ _ => .inl rfl, fun t ht => ?_⟩
    cases ht
    exact ⟨fun _ _ _ => trivial, fun _ _ => attempts_nil⟩

/-- The item of a one-item cart is billed twice after two overlapping loads. -/
theorem overlappingLoads_incoherent :
    ¬∀ (user : User) (server : List QueryDocumentSnapshot),
      (server.map (·.documentID)).Nodup → ∀ es : List CartEvent, (∀ e ∈ es, Visit server e) →
        Always step (Coherent server) (start user) es := by
  intro h
  have hrun := h customer oneCylinder (by decide) overlappingLoads visit_overlappingLoads
  have hlast := (hrun.last rfl).1
  revert hlast
  decide

end CartScreen

end GasNow
