import GasNow.ProductInformation
import GasNow.Effect

/-!
# `LocationVC`

The handlers of the depot screen that load the depots. Annotations of a map are objects: two
loads of one depot make two of them, and adding an object again does not.
-/

namespace GasNow

/-- An object, by its address. -/
structure Ref (α : Type) where
  address : Nat
  object : α
  deriving DecidableEq

/-- `CLLocationCoordinate2D` -/
structure Coordinate where
  latitude : ℚ
  longitude : ℚ
  deriving DecidableEq

structure Artwork where
  title : Option String
  locationName : Option String
  discipline : Option String
  coordinate : Coordinate
  deriving DecidableEq

def Artwork.subtitle (a : Artwork) : Option String := a.locationName

/-- New objects, at addresses from `next` on. -/
def allocate {α : Type} (next : Nat) : List α → List (Ref α)
  | [] => []
  | x :: xs => ⟨next, x⟩ :: allocate (next + 1) xs

/-- `mapView.addAnnotations(artworks)`, where `annotations` are on the map already. -/
def addAnnotations (annotations artworks : List (Ref Artwork)) : List (Ref Artwork) :=
  artworks.foldl (fun added a => if a ∈ added then added else added ++ [a]) annotations

theorem allocate_map {α : Type} (next : Nat) (xs : List α) :
    (allocate next xs).map (·.object) = xs := by
  induction xs generalizing next with
  | nil => rfl
  | cons x xs ih => simp [allocate, ih]

theorem allocate_addresses {α : Type} (next : Nat) (xs : List α) :
    (allocate next xs).map (·.address) = List.range' next xs.length := by
  induction xs generalizing next with
  | nil => rfl
  | cons x xs ih => simp [allocate, ih, List.range'_succ]

theorem allocate_nodup {α : Type} (next : Nat) (xs : List α) : (allocate next xs).Nodup :=
  List.Nodup.of_map (·.address) (by rw [allocate_addresses]; exact List.nodup_range')

theorem allocate_address_bounds {α : Type} {next : Nat} {xs : List α} {a : Ref α}
    (h : a ∈ allocate next xs) : next ≤ a.address ∧ a.address < next + xs.length := by
  have hmem : a.address ∈ (allocate next xs).map (·.address) := List.mem_map_of_mem h
  rw [allocate_addresses] at hmem
  simpa using hmem

/-- Objects that are on the map already are not added again. -/
theorem addAnnotations_of_subset {annotations artworks : List (Ref Artwork)}
    (h : artworks ⊆ annotations) : addAnnotations annotations artworks = annotations := by
  induction artworks with
  | nil => rfl
  | cons a artworks ih =>
    obtain ⟨ha, hrest⟩ := List.cons_subset.mp h
    rw [addAnnotations, List.foldl_cons, if_pos ha]
    exact ih hrest

/-- Distinct new objects are added in their order. -/
theorem addAnnotations_of_nodup {annotations artworks : List (Ref Artwork)}
    (h : (annotations ++ artworks).Nodup) :
    addAnnotations annotations artworks = annotations ++ artworks := by
  induction artworks generalizing annotations with
  | nil => simp [addAnnotations]
  | cons a artworks ih =>
    have ha : a ∉ annotations := fun hmem => (List.nodup_append.mp h).2.2 a hmem a (by simp) rfl
    rw [addAnnotations, List.foldl_cons, if_neg ha]
    have hnodup : ((annotations ++ [a]) ++ artworks).Nodup := by simpa using h
    simpa [addAnnotations] using ih hnodup

/-- The controller, with the annotations of its map and the next free address. -/
structure LocationVC where
  artworks : List (Ref Artwork)
  annotations : List (Ref Artwork)
  next : Nat
  deriving DecidableEq

namespace LocationVC

/-- The completion of `getDocuments` in `getDeopot`. -/
inductive Closure where
  | getDocuments
  deriving DecidableEq

abbrev Fx := Effect FirestoreRequest Closure

def create : LocationVC := { artworks := [], annotations := [], next := 0 }

/-- One turn of the decode loop of `getDeopot`. -/
def entry (document : QueryDocumentSnapshot) : Except Trap Artwork := do
  let geoPoint ← unwrap (document.data.optionalGeoPoint "geo_location")
  return {
    title := some ((document.data.optionalString "depot_name").getD "")
    locationName := some ((document.data.optionalString "depot_address").getD "")
    discipline := some "Done"
    coordinate := ⟨geoPoint.latitude, geoPoint.longitude⟩ }

def getDeopot : Except Trap (List Fx) := do
  let c ← Firestore.collection "depot"
  return [.showProgressHUD, .request (.getDocuments c) .getDocuments]

/-- The completion of `getDocuments` in `getDeopot`. -/
def getDocumentsCompleted (vc : LocationVC) (result : QueryResult) :
    Except Trap (LocationVC × List Fx) :=
  match result with
  | .error _ => return (vc, [.hideProgressHUD])
  | .ok documents => do
    let objs ← decodeAll entry documents
    let artworks := vc.artworks ++ allocate vc.next objs
    -- all artworks are added, also those that an earlier load has added
    return ({
      artworks
      annotations := addAnnotations vc.annotations artworks
      next := vc.next + objs.length }, .hideProgressHUD :: documents.map fun _ => .reloadData)

/-- `viewWillAppear` and `initialization` -/
def viewWillAppear (vc : LocationVC) : Except Trap (LocationVC × List Fx) := do
  let fx ← getDeopot
  return (vc, fx)

/-- The `address` of the confirmed alert of `didSelectRowAt`, which reads the list when it is
confirmed. `+` binds tighter than `??`. -/
def rowAddress (vc : LocationVC) (row : Nat) : Except Trap String := do
  let artwork ← subscript vc.artworks row
  coalesce artwork.object.title do
    let artwork ← subscript vc.artworks row
    let subtitle ← unwrap (artwork.object.subtitle.or (some ""))
    return "" ++ subtitle

/-- The `address` of the confirmed alert of `calloutAccessoryControlTapped`, where the title
and the subtitle of `view.annotation` are optional requirements of its protocol. -/
def calloutAddress (pin : Option (Ref Artwork)) : Except Trap (Option String) :=
  coalesce (pin.map (·.object.title)) do
    -- `??` takes one of the two optionals away and `!` the other
    let subtitle ← unwrap ((pin.map (·.object.subtitle)).getD (some ""))
    return some ("" ++ subtitle)

theorem viewWillAppear_eq (vc : LocationVC) :
    viewWillAppear vc = .ok (vc, [.showProgressHUD,
      .request (.getDocuments ⟨["depot"], by simp⟩) .getDocuments]) := by
  rfl

/-- The map shows the objects of the table, and the free addresses are free. -/
structure Mapped (vc : LocationVC) : Prop where
  annotations : vc.annotations = vc.artworks
  nodup : vc.artworks.Nodup
  bound : ∀ a ∈ vc.artworks, a.address < vc.next

theorem mapped_create : Mapped create := ⟨rfl, List.nodup_nil, by simp [create]⟩

/-- A load that succeeds adds its new objects to the table and to the map. -/
theorem Mapped.succeeded {vc : LocationVC} (h : Mapped vc) {objs : List Artwork} :
    let artworks := vc.artworks ++ allocate vc.next objs
    Mapped ⟨artworks, addAnnotations vc.annotations artworks, vc.next + objs.length⟩ := by
  intro artworks
  have hnodup : artworks.Nodup := by
    refine List.nodup_append.mpr ⟨h.nodup, allocate_nodup _ _, fun a ha b hb hab => ?_⟩
    have hlt := h.bound a ha
    have hge := (allocate_address_bounds hb).1
    rw [hab] at hlt
    omega
  refine ⟨?_, hnodup, fun a ha => ?_⟩
  · rw [h.annotations, addAnnotations, List.foldl_append]
    change addAnnotations (addAnnotations vc.artworks vc.artworks) _ = artworks
    rw [addAnnotations_of_subset (List.Subset.refl _), addAnnotations_of_nodup hnodup]
  · rcases List.mem_append.mp ha with ha | ha
    · exact (h.bound a ha).trans_le (Nat.le_add_right _ _)
    · exact (allocate_address_bounds ha).2

theorem getDocumentsCompleted_ok (vc : LocationVC) {documents : List QueryDocumentSnapshot}
    {objs : List Artwork} (h : decodeAll entry documents = .ok objs) :
    getDocumentsCompleted vc (.ok documents) = .ok ({
      artworks := vc.artworks ++ allocate vc.next objs
      annotations := addAnnotations vc.annotations (vc.artworks ++ allocate vc.next objs)
      next := vc.next + objs.length }, .hideProgressHUD :: documents.map fun _ => .reloadData) := by
  simp [getDocumentsCompleted, h, bind, Except.bind, pure, Except.pure]

theorem rowAddress_eq {vc : LocationVC} {row : Nat} {a : Ref Artwork} {title : String}
    (ha : vc.artworks[row]? = some a) (ht : a.object.title = some title) :
    vc.rowAddress row = .ok title := by
  have hsub : subscript vc.artworks row = .ok a := subscript_eq_ok.mpr ha
  simp [rowAddress, hsub, ht, coalesce, bind, Except.bind]

theorem calloutAddress_eq (a : Ref Artwork) : calloutAddress (some a) = .ok a.object.title := rfl

/-- What the decode loop makes has a name and an address. -/
theorem entry_named {document : QueryDocumentSnapshot} {a : Artwork}
    (h : entry document = .ok a) :
    ∃ name address, a.title = some name ∧ a.subtitle = some address := by
  obtain ⟨geoPoint, -, ha⟩ := bind_eq_ok.mp h
  cases ha
  exact ⟨_, _, rfl, rfl⟩

end LocationVC

end GasNow
