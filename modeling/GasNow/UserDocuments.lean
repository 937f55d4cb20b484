import GasNow.Effect

/-!
# Calls on the documents of a user

The shapes that the screens repeat around a user's collections: load a collection, add a
document to one, and delete a document from one.
-/

namespace GasNow

variable {κ : Type}

/-- `if let user = user { ….document(user.uid).collection(name).getDocuments() }`, with the
progress HUD shown in any case. -/
def getUserDocuments (user : Option User) (root name : String) (completion : κ) :
    Except Trap (List (Effect FirestoreRequest κ)) :=
  match user with
  | none => return [.showProgressHUD]
  | some user => do
    let c ← userCollection root user.uid name
    return [.showProgressHUD, .request (.getDocuments c) completion]

/-- `user?.uid ?? ""` -/
def uidOrEmpty (user : Option User) : String := (user.map (·.uid)).getD ""

/-- `….document(user?.uid ?? "").collection(name).document().setData(docData)` -/
def setUserDocument (user : Option User) (name : String) (docData : DocData) (completion : κ) :
    Except Trap (List (Effect FirestoreRequest κ)) := do
  let c ← userCollection "user-data" (uidOrEmpty user) name
  return [.showProgressHUD, .request (.setData c docData) completion]

/-- `….document(user?.uid ?? "").collection(name).document(documentId).delete()` -/
def deleteUserDocument (user : Option User) (name documentId : String) (completion : κ) :
    Except Trap (List (Effect FirestoreRequest κ)) := do
  let c ← userCollection "user-data" (uidOrEmpty user) name
  let d ← c.document documentId
  return [.showProgressHUD, .request (.delete d) completion]

/-- A load that does not abort shows the HUD, and starts a call if somebody is signed in. -/
theorem getUserDocuments_cases {user : Option User} {root name : String} {completion : κ}
    {fx : List (Effect FirestoreRequest κ)}
    (h : getUserDocuments user root name completion = .ok fx) :
    user = none ∧ fx = [.showProgressHUD] ∨
      ∃ u c, user = some u ∧ fx = [.showProgressHUD, .request (.getDocuments c) completion] := by
  cases user with
  | none => exact .inl ⟨rfl, (Except.ok.inj h).symm⟩
  | some u =>
    obtain ⟨c, -, hfx⟩ := bind_eq_ok.mp h
    exact .inr ⟨u, c, rfl, (Except.ok.inj hfx).symm⟩

/-- A `viewWillAppear` that writes the tab bar and then loads. -/
theorem appear_eq_ok {σ : Type} {user : Option User} {root name : String} {completion : κ}
    {isHidden : Bool} {vc : σ} {r : σ × List (Effect FirestoreRequest κ)}
    (h : (do
        let fx ← getUserDocuments user root name completion
        return (vc, .setTabBarHidden isHidden :: fx)) = Except.ok r) :
    ∃ fx, getUserDocuments user root name completion = .ok fx ∧
      r.2 = .setTabBarHidden isHidden :: fx := by
  obtain ⟨fx, hfx, hr⟩ := bind_eq_ok.mp h
  obtain rfl := Except.ok.inj hr
  exact ⟨fx, hfx, rfl⟩

theorem getUserDocuments_some (user : User) {root name : String} (hr : IsSegment root)
    (hn : IsSegment name) (completion : κ) :
    getUserDocuments (some user) root name completion = .ok [.showProgressHUD,
      .request (.getDocuments ⟨[root, user.uid, name], odd_three ..⟩) completion] := by
  simp [getUserDocuments, userCollection_segment hr user.uid_segment hn, bind, Except.bind, pure,
    Except.pure]

theorem setUserDocument_some (user : User) {name : String} (hn : IsSegment name)
    (docData : DocData) (completion : κ) :
    setUserDocument (some user) name docData completion = .ok [.showProgressHUD,
      .request (.setData ⟨["user-data", user.uid, name], odd_three ..⟩ docData) completion] := by
  have h := userCollection_segment (by decide : IsSegment "user-data") user.uid_segment hn
  simp [setUserDocument, uidOrEmpty, h, bind, Except.bind, pure, Except.pure]

theorem setUserDocument_cases {user : Option User} {name : String} {docData : DocData}
    {completion : κ} {fx : List (Effect FirestoreRequest κ)}
    (h : setUserDocument user name docData completion = .ok fx) :
    ∃ c, userCollection "user-data" (uidOrEmpty user) name = .ok c ∧
      fx = [.showProgressHUD, .request (.setData c docData) completion] := by
  obtain ⟨c, hc, hfx⟩ := bind_eq_ok.mp h
  exact ⟨c, hc, (Except.ok.inj hfx).symm⟩

theorem deleteUserDocument_cases {user : Option User} {name documentId : String} {completion : κ}
    {fx : List (Effect FirestoreRequest κ)}
    (h : deleteUserDocument user name documentId completion = .ok fx) :
    ∃ c d, userCollection "user-data" (uidOrEmpty user) name = .ok c ∧
      c.document documentId = .ok d ∧ fx = [.showProgressHUD, .request (.delete d) completion] := by
  obtain ⟨c, hc, hrest⟩ := bind_eq_ok.mp h
  obtain ⟨d, hd, hfx⟩ := bind_eq_ok.mp hrest
  exact ⟨c, d, hc, hd, (Except.ok.inj hfx).symm⟩

/-- Nobody signed in: the client aborts before a request exists. -/
theorem setUserDocument_none (name : String) (docData : DocData) (completion : κ) :
    setUserDocument none name docData completion = .error .hardAssert := by
  simp [setUserDocument, uidOrEmpty, userCollection_empty (by decide : IsSegment "user-data"), bind,
    Except.bind]

theorem deleteUserDocument_some (user : User) {name documentId : String} (hn : IsSegment name)
    (hd : IsSegment documentId) (completion : κ) :
    deleteUserDocument (some user) name documentId completion = .ok [.showProgressHUD,
      .request (.delete ⟨["user-data", user.uid, name, documentId], even_four ..⟩) completion] := by
  have h := userCollection_segment (by decide : IsSegment "user-data") user.uid_segment hn
  simp [deleteUserDocument, uidOrEmpty, h, CollectionReference.document_segment _ hd, bind,
    Except.bind, pure, Except.pure]

theorem deleteUserDocument_none (name documentId : String) (completion : κ) :
    deleteUserDocument none name documentId completion = .error .hardAssert := by
  simp [deleteUserDocument, uidOrEmpty, userCollection_empty (by decide : IsSegment "user-data"),
    bind, Except.bind]

end GasNow
