import GasNow.CartScreen
import GasNow.Machine.Positions

/-!
# Deleting from the cart

The delete button is known to the closures of `deleteItem` by its tag, which is read when the
alert is confirmed and again when the server has deleted the document. Both readings hit the
chosen entry exactly when the row that the tag names at that moment holds it.
-/

namespace GasNow

open Machine

namespace CartScreen

/-- An entry of document `id` is gone, if there was one, and nothing else has changed. -/
def RemovesEntry (id : String) (before after : List ProductInformation) : Prop :=
  if id ∈ before.map (·.documentId) then
    ∃ n obj, before[n]? = some obj ∧ obj.documentId = id ∧ after = before.eraseIdx n
  else after = before

/-- A confirmed delete asks the server to delete the document of the tapped row; when the
server has done so the entry of that document goes; after an error the list is as before.
Neither reading of the list traps. -/
def DeletesChosen (user : User) (s : CartScreen) (e : CartEvent)
    (o : Outcome Trap CartScreen) : Prop :=
  match e with
  | .confirm i => ∀ action shown, s.alerts[i]? = some ⟨action, shown⟩ →
      ∃ t sender document, o = .next t ∧
        t.calls = s.calls ++ [⟨.delete document, .delete sender, .row shown⟩] ∧
        document.path = ["user-data", user.uid, "cart", shown.documentId]
  | .deleteCompleted i none _ => ∀ r k shown, s.calls[i]? = some ⟨r, k, .row shown⟩ →
      ∃ t, o = .next t ∧ RemovesEntry shown.documentId s.vc.productList t.vc.productList
  | .deleteCompleted _ (some _) _ => ∃ t, o = .next t ∧ t.vc.productList = s.vc.productList
  | _ => True

/-- The row that the button's tag names holds an entry of document `id`. -/
def RowHolds (s : CartScreen) (sender : Nat) (id : String) : Prop :=
  ∃ obj, s.vc.productList[s.table.tag sender]? = some obj ∧ obj.documentId = id

/-- When a delete is confirmed, and when the server has deleted a document, the row that the
button's tag names holds an entry of the document that was tapped. -/
def RowStillShows (s : CartScreen) : CartEvent → Prop
  | .confirm i => ∀ sender shown, s.alerts[i]? = some ⟨.deleteAction sender, shown⟩ →
      RowHolds s sender shown.documentId
  | .deleteCompleted i none _ => ∀ r sender shown,
      s.calls[i]? = some ⟨r, .delete sender, .row shown⟩ → RowHolds s sender shown.documentId
  | _ => True

/-- What every run keeps: the controller of the signed-in user lists documents by ids that
are path segments. -/
structure DeleteInv (user : User) (s : CartScreen) : Prop where
  user_eq : s.vc.user = some user
  segments : ∀ obj ∈ s.vc.productList, IsSegment obj.documentId

theorem deleteInv_start (user : User) : DeleteInv user (start user) where
  user_eq := rfl
  segments := by simp [start, CartVC.create]

theorem decodeResult_segments {result : QueryResult} {objs : List ProductInformation}
    (h : decodeResult CartVC.entry result = .ok objs) :
    ∀ obj ∈ objs, IsSegment obj.documentId := by
  intro obj hobj
  cases result with
  | error e =>
    obtain rfl : objs = [] := by simpa [decodeResult] using h.symm
    simp at hobj
  | ok documents =>
    exact isSegment_of_mem_decodeAll (fun _ _ => CartVC.entry_documentId) h hobj

theorem DeleteInv.step {user : User} {s t : CartScreen} {e : CartEvent}
    (hi : DeleteInv user s) (ht : CartScreen.step s e = .next t) : DeleteInv user t := by
  cases e with
  | viewWillAppear =>
    rw [step_viewWillAppear s hi.user_eq] at ht
    cases ht
    exact ⟨hi.user_eq, hi.segments⟩
  | viewWillDisappear =>
    cases ht
    exact ⟨hi.user_eq, by simp [CartVC.viewWillDisappear]⟩
  | tapDelete row =>
    simp only [CartScreen.step] at ht
    split at ht
    · cases ht
    · cases ht
      exact ⟨hi.user_eq, hi.segments⟩
  | confirm i =>
    simp only [CartScreen.step] at ht
    split at ht
    · split at ht
      · cases ht
      · cases ht
        exact ⟨hi.user_eq, hi.segments⟩
    · cases ht
  | cancel i =>
    simp only [CartScreen.step] at ht
    split at ht
    · cases ht
      exact ⟨hi.user_eq, hi.segments⟩
    · cases ht
  | getDocumentsCompleted i result buttons =>
    obtain ⟨r, origin, objs, -, -, hobjs, -, rfl⟩ := step_getDocumentsCompleted ht
    refine ⟨hi.user_eq, fun obj hobj => ?_⟩
    rcases List.mem_append.mp hobj with h | h
    · exact hi.segments obj h
    · exact decodeResult_segments hobjs obj h
  | deleteCompleted i err buttons =>
    obtain ⟨hvc, hsub⟩ := step_deleteCompleted_vc ht
    exact ⟨hvc ▸ hi.user_eq, fun obj hobj => hi.segments obj (hsub hobj)⟩
  | checkOutNow =>
    cases ht
    exact ⟨hi.user_eq, hi.segments⟩

/-- Removing a position removes the entry of document `id` just in case that position holds
an entry of `id`. -/
theorem removesEntry_eraseIdx_iff {id : String} {items : List ProductInformation} {n : Nat}
    (hn : n < items.length) :
    RemovesEntry id items (items.eraseIdx n) ↔
      ∃ obj, items[n]? = some obj ∧ obj.documentId = id := by
  have hget : items[n]? = some items[n] := List.getElem?_eq_getElem hn
  constructor
  · intro h
    unfold RemovesEntry at h
    split at h
    · -- the two removals leave the same list, so they remove equal entries
      obtain ⟨m, obj, hm, hid, herase⟩ := h
      exact ⟨items[n], hget, (eraseIdx_cancel hget hm herase) ▸ hid⟩
    · have := length_eraseIdx_lt hget
      simp [h] at this
  · rintro ⟨obj, hobj, rfl⟩
    have hmem : obj.documentId ∈ items.map (·.documentId) :=
      List.mem_map_of_mem (List.mem_of_getElem? hobj)
    rw [RemovesEntry, if_pos hmem]
    exact ⟨n, obj, hobj, rfl, rfl⟩

theorem confirm_iff {user : User} {s : CartScreen} (hi : DeleteInv user s) (i : Nat)
    (hb : step s (.confirm i) ≠ .blocked) :
    DeletesChosen user s (.confirm i) (step s (.confirm i)) ↔ RowStillShows s (.confirm i) := by
  obtain ⟨sender, shown, ha⟩ := step_confirm_alert hb
  have hshows : RowStillShows s (.confirm i) ↔ RowHolds s sender shown.documentId := by
    simp [RowStillShows, ha]
  rw [hshows, RowHolds]
  cases hobj : s.vc.productList[s.table.tag sender]? with
  | none =>
    rw [step_confirm_none ha hobj]
    simp [DeletesChosen, ha]
  | some obj =>
    rw [step_confirm hi.user_eq ha hobj (hi.segments obj (List.mem_of_getElem? hobj))]
    simp [DeletesChosen, ha]

theorem deleteCompleted_iff {user : User} {s : CartScreen} (i : Nat) (err : Option NSError)
    (buttons : List Nat) (hb : step s (.deleteCompleted i err buttons) ≠ .blocked) :
    DeletesChosen user s (.deleteCompleted i err buttons)
        (step s (.deleteCompleted i err buttons)) ↔
      RowStillShows s (.deleteCompleted i err buttons) := by
  obtain ⟨r, sender, origin, hc⟩ := step_deleteCompleted_call hb
  cases err with
  | some e =>
    rw [step_deleteCompleted_some hc]
    simp [DeletesChosen, RowStillShows]
  | none =>
    cases origin with
    -- a `delete` is never started by an appearance, and nothing is said of one
    | appearance n => simp [DeletesChosen, RowStillShows, hc]
    | row shown =>
      have hshows : RowStillShows s (.deleteCompleted i none buttons) ↔
          RowHolds s sender shown.documentId := by
        simp [RowStillShows, hc]
      rw [hshows, RowHolds]
      rw [step_deleteCompleted_none hc] at hb ⊢
      by_cases htag : s.table.tag sender < s.vc.productList.length
      · by_cases hdeal : TableView.Deals buttons (s.vc.productList.eraseIdx (s.table.tag sender))
        · rw [← removesEntry_eraseIdx_iff htag]
          simp [DeletesChosen, hc, htag, hdeal]
        · simp [htag, hdeal] at hb
      · simp [DeletesChosen, hc, htag]

/-- Every confirmed delete removes the chosen entry and only it, at the server and on the
screen, if and only if the row that the button's tag names holds an entry of the tapped
document whenever a delete is confirmed and whenever one has succeeded. -/
theorem deletesChosen_iff_rowStillShows (user : User) (es : List CartEvent) :
    Attempts step (DeletesChosen user) (start user) es ↔
      Attempts step (fun s e _ => RowStillShows s e) (start user) es := by
  apply attempts_congr (I := DeleteInv user) (E := fun _ => True)
  · intro s e t _ hi ht
    exact hi.step ht
  · intro s e _ hi hb
    cases e with
    | confirm i => exact confirm_iff hi i hb
    | deleteCompleted i err buttons => exact deleteCompleted_iff i err buttons hb
    | viewWillAppear => exact iff_of_true trivial trivial
    | viewWillDisappear => exact iff_of_true trivial trivial
    | tapDelete row => exact iff_of_true trivial trivial
    | cancel i => exact iff_of_true trivial trivial
    | getDocumentsCompleted i result buttons => exact iff_of_true trivial trivial
    | checkOutNow => exact iff_of_true trivial trivial
  · exact deleteInv_start user
  · intro e _
    trivial

/-- A cart with one cylinder is opened, its delete button tapped and the alert confirmed;
then the user leaves the screen before the server answers. -/
def leaveBeforeAnswer : List CartEvent :=
  [.viewWillAppear, .getDocumentsCompleted 0 (.ok [cylinder "a" isSegment_a]) [0],
    .tapDelete 0, .confirm 0, .viewWillDisappear]

/-- Leaving the screen empties the list, so the completion of the delete traps. -/
theorem leaveBeforeAnswer_traps :
    ¬∀ (user : User) (es : List CartEvent),
      Attempts step (DeletesChosen user) (start user) es := by
  intro h
  obtain ⟨t, ht, -⟩ := h customer (leaveBeforeAnswer ++ [.deleteCompleted 0 none []])
    leaveBeforeAnswer (.deleteCompleted 0 none []) _ (List.prefix_refl _) rfl nofun _ _ _ rfl
  cases ht

end CartScreen

end GasNow
