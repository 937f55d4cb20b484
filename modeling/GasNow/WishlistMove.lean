import GasNow.WishlistScreen
import GasNow.Machine.Positions

/-!
# Moving wishlist items to the cart

A move writes the tapped entry to the cart and then deletes the document of the row that the
button's tag names when the write has succeeded. The account of a run is that the documents
written are those deleted and those whose delete is outstanding; it is kept as long as each
successful write still finds its own document at the sender's row, is the first one of that
document, and no delete fails.
-/

namespace GasNow

open Machine

/-- The wishlist document of the row whose button started a write. -/
def CartWrite.document (user : User) (w : CartWrite) : DocumentReference :=
  wishlistDocument user w.shown.documentId

def WishlistCall.deletes (c : WishlistCall) : Option DocumentReference :=
  match c.request with
  | .delete d => some d
  | _ => none

section Deletes

variable (c : CollectionReference) (docData : DocData) (d : DocumentReference)
  (k : WishlistVC.Closure) (shown : ProductInformation)

@[simp] theorem WishlistCall.deletes_setData :
    WishlistCall.deletes ⟨.setData c docData, k, shown⟩ = none := rfl

@[simp] theorem WishlistCall.deletes_delete :
    WishlistCall.deletes ⟨.delete d, k, shown⟩ = some d := rfl

end Deletes

namespace WishlistScreen

/-- The document to write has the name, image, price and quantity of an entry. -/
structure Carries (docData : DocData) (obj : ProductInformation) : Prop where
  name : docData.lookup "prname" = some (.string obj.name)
  image : docData.lookup "primage" = some (.string obj.image)
  price : docData.lookup "prprice" = some (.string (description obj.price))
  quantity : docData.lookup "no_of_items" = some (.integer obj.product_quantity)

structure Moved (user : User) (documents : List QueryDocumentSnapshot) (s : WishlistScreen) :
    Prop where
  /-- A deleted document was written to the user's cart by a tap on its own row. -/
  written : ∀ d ∈ s.deleted, ∃ w ∈ s.written, w.document user = d ∧
    w.collection.path = ["user-data", user.uid, "cart"] ∧
    ∃ document ∈ documents, d = wishlistDocument user document.documentID ∧
      ∃ obj, WishlistVC.entry document = .ok obj ∧ Carries w.docData obj
  /-- With no request outstanding, writes and deleted documents correspond one to one. -/
  settled : s.calls = [] → (s.written.map (CartWrite.document user)).Nodup ∧
    (s.written.map (CartWrite.document user)).Perm s.deleted ∧
    ∀ w ∈ s.written, w.document user ∉ s.wishlist

/-- A successful cart write whose completion traps is never followed by a delete. -/
def WriteCompletes (e : WishlistEvent) (o : Outcome Trap WishlistScreen) : Prop :=
  ∀ i t, e = .setDataCompleted i none → o ≠ .trap t

/-- When a cart write has succeeded, the row that the sender's tag names holds the document
that was tapped, and that document was not written before; and no delete fails. -/
def OwnRow (s : WishlistScreen) : WishlistEvent → Prop
  | .setDataCompleted i none => ∀ r sender shown,
      s.calls[i]? = some ⟨r, .setData sender, shown⟩ →
        (∃ obj, s.vc.productList[s.table.tag sender]? = some obj ∧
          obj.documentId = shown.documentId) ∧
        ∀ w ∈ s.written, w.shown.documentId ≠ shown.documentId
  | .deleteCompleted _ err => err = none
  | _ => True

/-- The calls that a move makes for the entry of its row, among the loaded ones. -/
inductive MoveCall (user : User) (items : List ProductInformation) : WishlistCall → Prop where
  | write {shown : ProductInformation} {sender : Nat} (hshown : shown ∈ items)
      (hsender : sender < items.length) :
      MoveCall user items ⟨.setData ⟨["user-data", user.uid, "cart"], odd_three ..⟩
        (WishlistVC.cartData (some user) shown), .setData sender, shown⟩
  | delete {shown : ProductInformation} {index : Nat} (hshown : shown ∈ items) :
      MoveCall user items
        ⟨.delete (wishlistDocument user shown.documentId), .delete index, shown⟩

/-- What a run of moves keeps. -/
structure MoveInv (user : User) (items : List ProductInformation) (s : WishlistScreen) :
    Prop where
  user_eq : s.vc.user = some user
  currentUser_eq : s.currentUser = some user
  inPlace : InPlace s items.length
  listed : s.vc.productList ⊆ items
  calls : ∀ c ∈ s.calls, MoveCall user items c
  writes : ∀ w ∈ s.written, w.shown ∈ items ∧
    w.docData = WishlistVC.cartData (some user) w.shown ∧
    w.collection.path = ["user-data", user.uid, "cart"]
  /-- The written documents are the deleted ones and those still to be deleted. -/
  account : (s.written.map (CartWrite.document user)).Perm
    (s.deleted ++ s.calls.filterMap WishlistCall.deletes)
  once : (s.written.map (CartWrite.document user)).Nodup
  server : s.wishlist.Nodup ∧
    ∀ obj ∈ items, (wishlistDocument user obj.documentId ∈ s.wishlist ↔
      wishlistDocument user obj.documentId ∉ s.deleted)

variable {user : User} {documents : List QueryDocumentSnapshot} {items : List ProductInformation}

theorem carries_cartData (currentUser : Option User) (item : ProductInformation) :
    Carries (WishlistVC.cartData currentUser item) item := by
  constructor <;> rfl

theorem moveInv_start (h : decodeAll WishlistVC.entry documents = .ok items)
    (hn : (documents.map (·.documentID)).Nodup) :
    MoveInv user items (start user documents items) where
  user_eq := rfl
  currentUser_eq := rfl
  inPlace :=
    { displayed := rfl
      tag := fun b hb => by simp [start, tag_reloadInPlace, hb]
      length_le := le_refl _ }
  listed := List.Subset.refl _
  calls := by simp [start]
  writes := by simp [start]
  account := by simp [start]
  once := by simp [start]
  server := by
    refine ⟨?_, fun obj hobj => ?_⟩
    · have := hn.map (f := wishlistDocument user) fun _ _ => wishlistDocument_inj.mp
      simpa [start, List.map_map, Function.comp_def] using this
    · obtain ⟨d, hd, he⟩ := exists_of_mem_decodeAll h hobj
      simp only [start, List.not_mem_nil, not_false_eq_true, iff_true]
      exact List.mem_map.mpr ⟨d, hd, by rw [WishlistVC.entry_documentId he]⟩

theorem MoveInv.moved {s : WishlistScreen} (hi : MoveInv user items s)
    (h : decodeAll WishlistVC.entry documents = .ok items) : Moved user documents s where
  written := by
    intro d hd
    have hmem : d ∈ s.written.map (CartWrite.document user) :=
      hi.account.mem_iff.mpr (List.mem_append_left _ hd)
    obtain ⟨w, hw, rfl⟩ := List.mem_map.mp hmem
    obtain ⟨hshown, hdata, hpath⟩ := hi.writes w hw
    obtain ⟨document, hdoc, hentry⟩ := exists_of_mem_decodeAll h hshown
    refine ⟨w, hw, rfl, hpath, document, hdoc, ?_, w.shown, hentry, ?_⟩
    · rw [CartWrite.document, WishlistVC.entry_documentId hentry]
    · rw [hdata]
      exact carries_cartData _ _
  settled := by
    intro hcalls
    -- no delete is outstanding, so the account says that the writes are the deletes
    have hperm := hi.account
    rw [hcalls, List.filterMap_nil, List.append_nil] at hperm
    refine ⟨hi.once, hperm, fun w hw hmem => ?_⟩
    have hdel : w.document user ∈ s.deleted := hperm.mem_iff.mp (List.mem_map_of_mem hw)
    exact (hi.server.2 w.shown (hi.writes w hw).1).mp hmem hdel

theorem MoveInv.tapAddToCart {s t : WishlistScreen} {row : Nat} (hi : MoveInv user items s)
    (ht : step s (.tapAddToCart row) = .next t) : MoveInv user items t := by
  obtain ⟨shown, hshown, hrow, rfl⟩ := step_tapAddToCart hi.inPlace hi.currentUser_eq ht
  have hmem : shown ∈ items := hi.listed (List.mem_of_getElem? hshown)
  refine ⟨hi.user_eq, hi.currentUser_eq, ⟨hi.inPlace.displayed, hi.inPlace.tag,
    hi.inPlace.length_le⟩, hi.listed, ?_, hi.writes, ?_, hi.once, hi.server⟩
  · intro c hc
    rcases List.mem_append.mp hc with hc | hc
    · exact hi.calls c hc
    · obtain rfl := List.mem_singleton.mp hc
      exact .write hmem hrow
  · simpa [List.filterMap_cons] using hi.account

/-- An error leaves the wishlist as it is, and the tapped item out of the cart. -/
theorem MoveInv.setDataFailed {s t : WishlistScreen} {i : Nat} {e : NSError}
    (hi : MoveInv user items s) (ht : step s (.setDataCompleted i (some e)) = .next t) :
    MoveInv user items t := by
  have hb : step s (.setDataCompleted i (some e)) ≠ .blocked := by simp [ht]
  obtain ⟨c, docData, sender, shown, hc⟩ := step_setDataCompleted_call hb
  rw [step_setDataCompleted_some hc] at ht
  cases ht
  refine ⟨hi.user_eq, hi.currentUser_eq, ⟨hi.inPlace.displayed, hi.inPlace.tag,
    hi.inPlace.length_le⟩, hi.listed, fun c hc => hi.calls c (List.mem_of_mem_eraseIdx hc),
    hi.writes, ?_, hi.once, hi.server⟩
  have hpending := (perm_cons_eraseIdx hc).filterMap WishlistCall.deletes
  exact hi.account.trans (List.Perm.append_left _ (by simpa [List.filterMap_cons] using hpending))

/-- The outcome of a successful write that finds its own document. -/
theorem MoveInv.setDataSucceeded {s : WishlistScreen} {i : Nat}
    (h : decodeAll WishlistVC.entry documents = .ok items) (hi : MoveInv user items s)
    (hok : OwnRow s (.setDataCompleted i none))
    (hb : step s (.setDataCompleted i none) ≠ .blocked) :
    ∃ t, step s (.setDataCompleted i none) = .next t ∧ MoveInv user items t := by
  obtain ⟨c, docData, sender, shown, hc⟩ := step_setDataCompleted_call hb
  obtain ⟨⟨obj, hobj, hid⟩, hfirst⟩ := hok _ sender shown hc
  obtain ⟨hshown, hsender⟩ : shown ∈ items ∧ sender < items.length := by
    cases hi.calls _ (List.mem_of_getElem? hc) with
    | write hshown hsender => exact ⟨hshown, hsender⟩
  refine ⟨_, step_setDataCompleted_none hi.inPlace hi.user_eq hsender hc hobj
    (isSegment_of_mem_decodeAll (fun _ _ => WishlistVC.entry_documentId) h
      (hi.listed (List.mem_of_getElem? hobj))), ?_⟩
  -- the document of the row is the tapped one, which is now written and about to be deleted
  rw [hid]
  have hpending := (perm_cons_eraseIdx hc).filterMap WishlistCall.deletes
  have hrest : (s.calls.filterMap WishlistCall.deletes).Perm
      ((s.calls.eraseIdx i).filterMap WishlistCall.deletes) := by
    simpa [List.filterMap_cons] using hpending
  have hnew : wishlistDocument user shown.documentId ∉
      s.written.map (CartWrite.document user) := by
    intro hmem
    obtain ⟨w, hw, he⟩ := List.mem_map.mp hmem
    exact hfirst w hw (wishlistDocument_inj.mp he)
  refine ⟨hi.user_eq, hi.currentUser_eq, ⟨hi.inPlace.displayed, hi.inPlace.tag,
    hi.inPlace.length_le⟩, hi.listed, ?_, ?_, ?_, ?_, hi.server⟩
  · intro c' hc'
    rcases List.mem_append.mp hc' with hc' | hc'
    · exact hi.calls c' (List.mem_of_mem_eraseIdx hc')
    · obtain rfl := List.mem_singleton.mp hc'
      exact .delete hshown
  · intro w hw
    rcases List.mem_append.mp hw with hw | hw
    · exact hi.writes w hw
    · obtain rfl := List.mem_singleton.mp hw
      cases hi.calls _ (List.mem_of_getElem? hc)
      exact ⟨hshown, rfl, rfl⟩
  · have haccount := (hi.account.trans (hrest.append_left _)).append_right
      [wishlistDocument user shown.documentId]
    simpa [CartWrite.document] using haccount
  · rw [List.map_append, List.nodup_append]
    exact ⟨hi.once, by simp, fun d hd d' hd' he => hnew (by simp_all [CartWrite.document])⟩

/-- A successful delete moves its document from the pending ones to the deleted ones. -/
theorem MoveInv.deleteSucceeded {s t : WishlistScreen} {i : Nat} (hi : MoveInv user items s)
    (ht : step s (.deleteCompleted i none) = .next t) : MoveInv user items t := by
  have hb : WishlistScreen.step s (.deleteCompleted i none) ≠ .blocked := by simp [ht]
  obtain ⟨d, index, shown, hc⟩ := step_deleteCompleted_call hb
  have hcall := hi.calls _ (List.mem_of_getElem? hc)
  obtain ⟨rfl, hshown⟩ : d = wishlistDocument user shown.documentId ∧ shown ∈ items := by
    cases hcall with
    | delete hshown => exact ⟨rfl, hshown⟩
  have ht := step_deleteCompleted_none hc ht
  have haccount : (s.written.map (CartWrite.document user)).Perm
      (s.deleted ++ wishlistDocument user shown.documentId ::
        (s.calls.eraseIdx i).filterMap WishlistCall.deletes) := by
    have hpending := (perm_cons_eraseIdx hc).filterMap WishlistCall.deletes
    exact hi.account.trans (List.Perm.append_left _ (by simpa [List.filterMap_cons] using hpending))
  -- each document is written once, so a pending delete is of a document still there
  have hdeleted : wishlistDocument user shown.documentId ∉ s.deleted := by
    have hnodup := haccount.nodup_iff.mp hi.once
    rw [List.nodup_append] at hnodup
    exact fun hmem => hnodup.2.2 _ hmem _ (by simp) rfl
  have hserver : wishlistDocument user shown.documentId ∈ s.wishlist :=
    (hi.server.2 shown hshown).mpr hdeleted
  rw [serverDelete, if_pos hserver] at ht
  subst ht
  refine ⟨hi.user_eq, hi.currentUser_eq, ⟨rfl, ?_, ?_⟩, ?_, ?_, hi.writes, ?_, hi.once, ?_, ?_⟩
  · intro b hb
    simp [tag_reloadInPlace, hi.inPlace.tag b hb]
  · exact (List.eraseIdx_sublist _ _).length_le.trans hi.inPlace.length_le
  · exact List.Subset.trans List.eraseIdx_subset hi.listed
  · exact fun c hc => hi.calls c (List.mem_of_mem_eraseIdx hc)
  · simpa using haccount
  · exact hi.server.1.erase _
  · intro obj hobj
    have hiff := hi.server.2 obj hobj
    simp only [hi.server.1.mem_erase_iff, List.mem_append, List.mem_singleton, hiff, not_or]
    exact and_comm

theorem MoveInv.step {s t : WishlistScreen} {e : WishlistEvent}
    (h : decodeAll WishlistVC.entry documents = .ok items) (hi : MoveInv user items s)
    (hok : OwnRow s e) (ht : WishlistScreen.step s e = .next t) : MoveInv user items t := by
  cases e with
  | tapAddToCart row => exact hi.tapAddToCart ht
  | setDataCompleted i err =>
    cases err with
    | some e => exact hi.setDataFailed ht
    | none =>
      obtain ⟨t', ht', hinv⟩ := hi.setDataSucceeded h hok (by simp [ht])
      obtain rfl : t' = t := by simpa [ht'] using ht
      exact hinv
  | deleteCompleted i err =>
    obtain rfl : err = none := hok
    exact hi.deleteSucceeded ht

/-- Moves lose nothing and duplicate nothing in every run in which each successful write
finds its own document at the sender's row and is the first one of that document, and no
delete fails. No write's completion traps there; that of a delete can, at an index that another
delete has put out of range. -/
theorem moved_of_ownRow (user : User) (documents : List QueryDocumentSnapshot)
    (items : List ProductInformation) (h : decodeAll WishlistVC.entry documents = .ok items)
    (hn : (documents.map (·.documentID)).Nodup) (es : List WishlistEvent)
    (hok : Attempts step (fun s e _ => OwnRow s e) (start user documents items) es) :
    Always step (Moved user documents) (start user documents items) es ∧
      Attempts step (fun _ e o => WriteCompletes e o) (start user documents items) es := by
  have hstart : MoveInv user items (start user documents items) := moveInv_start h hn
  have hstep : ∀ s e t, MoveInv user items s → OwnRow s e → step s e = .next t →
      MoveInv user items t := by
    intro s e t hi hown ht
    exact hi.step h hown ht
  constructor
  · have hinv := always_of_meets hstep hstart hok.meets
    exact hinv.imp fun t hi => hi.moved h
  · refine attempts_of_step hstep ?_ hstart hok
    rintro s e hi hown hb i trap rfl
    obtain ⟨t, ht, -⟩ := hi.setDataSucceeded h hown hb
    simp [ht]

def threeCylinders : List QueryDocumentSnapshot :=
  [cylinder "a" isSegment_a, cylinder "b" isSegment_b, cylinder "c" (by decide)]

def threeEntries : List ProductInformation :=
  ["a", "b", "c"].map fun id => ⟨"19 KG", "products/1.png", "", 399, 2, id⟩

theorem decodeAll_threeCylinders :
    decodeAll WishlistVC.entry threeCylinders = .ok threeEntries := by
  rfl

/-- Two rows are tapped, both writes succeed before a delete does, and both deletes succeed. -/
def lowerRowFirst : List WishlistEvent :=
  [.tapAddToCart 1, .tapAddToCart 0, .setDataCompleted 0 none, .setDataCompleted 0 none,
    .deleteCompleted 0 none, .deleteCompleted 0 none]

theorem moved_lowerRowFirst :
    Always step (Moved customer threeCylinders) (start customer threeCylinders threeEntries)
        lowerRowFirst ∧
      Attempts step (fun _ e o => WriteCompletes e o) (start customer threeCylinders threeEntries)
        lowerRowFirst := by
  refine moved_of_ownRow customer threeCylinders threeEntries decodeAll_threeCylinders
    (by decide) _ ?_
  simp only [lowerRowFirst, attempts_cons]
  refine ⟨fun _ => trivial, fun t ht => ?_⟩
  cases ht
  refine ⟨fun _ => trivial, fun t ht => ?_⟩
  cases ht
  refine ⟨fun _ r sender shown hc => ?_, fun t ht => ?_⟩
  · cases hc
    exact ⟨⟨_, rfl, rfl⟩, fun w hw => by cases hw⟩
  cases ht
  refine ⟨fun _ r sender shown hc => ?_, fun t ht => ?_⟩
  · cases hc
    refine ⟨⟨_, rfl, rfl⟩, fun w hw => ?_⟩
    obtain rfl := List.mem_singleton.mp hw
    decide
  cases ht
  refine ⟨fun _ => rfl, fun t ht => ?_⟩
  cases ht
  exact ⟨fun _ => rfl, fun _ _ => attempts_nil⟩

/-- Two rows are tapped before the first write completes; the first delete shifts the rows,
and the second write finds the third document at the second row. -/
def overlappingMoves : List WishlistEvent :=
  [.tapAddToCart 0, .tapAddToCart 1, .setDataCompleted 0 none, .deleteCompleted 1 none,
    .setDataCompleted 0 none, .deleteCompleted 0 none]

/-- The third document is deleted and was never written. -/
theorem overlappingMoves_lose :
    ¬∀ (user : User) (documents : List QueryDocumentSnapshot) (items : List ProductInformation),
      decodeAll WishlistVC.entry documents = .ok items →
      (documents.map (·.documentID)).Nodup → ∀ es : List WishlistEvent,
        Always step (Moved user documents) (start user documents items) es := by
  intro h
  have hrun := h customer threeCylinders threeEntries decodeAll_threeCylinders (by decide)
    overlappingMoves
  obtain ⟨w, hw, hd, -⟩ := (hrun.last rfl).written (wishlistDocument customer "c") (by decide)
  have hid : w.shown.documentId = "c" := wishlistDocument_inj.mp hd
  have hids : w.shown.documentId ∈ ["a", "b"] :=
    List.mem_map_of_mem (f := fun w : CartWrite => w.shown.documentId) hw
  rw [hid] at hids
  exact absurd hids (by decide)

end WishlistScreen

end GasNow
