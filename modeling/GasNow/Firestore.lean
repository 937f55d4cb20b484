import GasNow.Trap
import Mathlib.Data.List.Infix
import Mathlib.Data.Rat.Defs

/-!
# Firestore documents and paths

What the screens use of Firestore: field maps with their forced and optional casts,
snapshots, and references with the path checks of the vendored client. A path that fails a
check aborts the process, so a request exists only for a well-formed path.

## Main definitions

- `FieldValue`, `DocData`, the contents of a document
- `QueryDocumentSnapshot`, a document as a query returns it
- `CollectionReference`, `DocumentReference`, paths with the parity of their length
- `FirestoreRequest`, the calls the screens make
-/

namespace GasNow

/-- What a completion receives instead of a result. -/
structure NSError where
  localizedDescription : String
  deriving DecidableEq, Repr

/-- `GeoPoint`, in degrees. -/
structure GeoPoint where
  latitude : ℚ
  longitude : ℚ
  deriving DecidableEq

/-- The types of field that the screens write and read. -/
inductive FieldValue where
  | string (s : String)
  | integer (n : Int64)
  | geoPoint (g : GeoPoint)
  deriving DecidableEq

/-- `[String: Any]`. -/
abbrev DocData := List (String × FieldValue)

namespace DocData

/-- `data[key] as! Int` -/
def forcedInt (data : DocData) (key : String) : Except Trap Int64 :=
  match data.lookup key with
  | some (.integer n) => .ok n
  | _ => .error .forcedCast

/-- `data[key] as! String` -/
def forcedString (data : DocData) (key : String) : Except Trap String :=
  match data.lookup key with
  | some (.string s) => .ok s
  | _ => .error .forcedCast

/-- `data[key] as? String`; a stored string is also an `NSString`. -/
def optionalString (data : DocData) (key : String) : Option String :=
  match data.lookup key with
  | some (.string s) => some s
  | _ => none

/-- `data[key] as? Int` -/
def optionalInt (data : DocData) (key : String) : Option Int64 :=
  match data.lookup key with
  | some (.integer n) => some n
  | _ => none

/-- `data[key] as? GeoPoint` -/
def optionalGeoPoint (data : DocData) (key : String) : Option GeoPoint :=
  match data.lookup key with
  | some (.geoPoint g) => some g
  | _ => none

end DocData

/-- A string that is one path segment, as document and user ids are. -/
def IsSegment (s : String) : Prop := s ≠ "" ∧ '/' ∉ s.toList

instance (s : String) : Decidable (IsSegment s) := inferInstanceAs (Decidable (_ ∧ _))

/-- A document as a query returns it. -/
structure QueryDocumentSnapshot where
  documentID : String
  data : DocData
  documentID_segment : IsSegment documentID
  deriving DecidableEq

/-- `ResourcePath::FromString`: split at `/` and skip empty segments. -/
def ResourcePath.fromString (path : String) : Except Trap (List String) :=
  if ['/', '/'] <:+: path.toList then .error .hardAssert
  else .ok (((path.toList.splitOn '/').filter (· ≠ [])).map String.ofList)

theorem ResourcePath.fromString_segment {s : String} (h : IsSegment s) :
    ResourcePath.fromString s = .ok [s] := by
  obtain ⟨hne, hslash⟩ := h
  have hinfix : ¬['/', '/'] <:+: s.toList := fun hi => hslash (hi.subset (by simp))
  have hsplit := List.splitOn_eq_singleton hslash
  have hnil : s.toList ≠ [] := by simpa using hne
  simp [ResourcePath.fromString, hinfix, hsplit, hnil]

theorem ResourcePath.fromString_empty : ResourcePath.fromString "" = .ok [] := by decide

/-- A collection is named by an odd number of segments. -/
structure CollectionReference where
  path : List String
  odd : path.length % 2 = 1
  deriving DecidableEq

/-- A document is named by an even number of segments. -/
structure DocumentReference where
  path : List String
  even : path.length % 2 = 0
  deriving DecidableEq

/-- `CollectionReference(path)`, with the check of `MakeQuery`. -/
def CollectionReference.make (path : List String) : Except Trap CollectionReference :=
  if h : path.length % 2 = 1 then .ok ⟨path, h⟩ else .error .hardAssert

/-- `DocumentReference(path)` -/
def DocumentReference.make (path : List String) : Except Trap DocumentReference :=
  if h : path.length % 2 = 0 then .ok ⟨path, h⟩ else .error .hardAssert

/-- `db.collection(path)` -/
def Firestore.collection (path : String) : Except Trap CollectionReference := do
  CollectionReference.make (← ResourcePath.fromString path)

/-- `collection.document(path)` -/
def CollectionReference.document (c : CollectionReference) (path : String) :
    Except Trap DocumentReference := do
  DocumentReference.make (c.path ++ (← ResourcePath.fromString path))

/-- `document.collection(path)` -/
def DocumentReference.collection (d : DocumentReference) (path : String) :
    Except Trap CollectionReference := do
  CollectionReference.make (d.path ++ (← ResourcePath.fromString path))

/-- `db.collection(root).document(userId).collection(name)`, the shape of every collection
that belongs to a user. -/
def userCollection (root userId name : String) : Except Trap CollectionReference := do
  let c ← Firestore.collection root
  let d ← c.document userId
  d.collection name

theorem odd_three (a b c : String) : [a, b, c].length % 2 = 1 := by simp

theorem even_four (a b c d : String) : [a, b, c, d].length % 2 = 0 := by simp

theorem userCollection_segment {root userId name : String} (hr : IsSegment root)
    (hu : IsSegment userId) (hn : IsSegment name) :
    userCollection root userId name = .ok ⟨[root, userId, name], odd_three ..⟩ := by
  simp [userCollection, Firestore.collection, CollectionReference.document,
    DocumentReference.collection, CollectionReference.make, DocumentReference.make,
    ResourcePath.fromString_segment, hr, hu, hn, bind, Except.bind]

/-- Nobody signed in: `user?.uid ?? ""` leaves a document path of odd length. -/
theorem userCollection_empty {root name : String} (hr : IsSegment root) :
    userCollection root "" name = .error .hardAssert := by
  simp [userCollection, Firestore.collection, CollectionReference.document,
    CollectionReference.make, DocumentReference.make,
    ResourcePath.fromString_segment, ResourcePath.fromString_empty, hr, bind, Except.bind]

theorem CollectionReference.even_append (c : CollectionReference) (id : String) :
    (c.path ++ [id]).length % 2 = 0 := by
  have hodd := c.odd
  rw [List.length_append, List.length_singleton]
  omega

theorem CollectionReference.document_segment (c : CollectionReference) {id : String}
    (h : IsSegment id) : c.document id = .ok ⟨c.path ++ [id], c.even_append id⟩ := by
  rw [CollectionReference.document, ResourcePath.fromString_segment h]
  show DocumentReference.make (c.path ++ [id]) = .ok ⟨c.path ++ [id], c.even_append id⟩
  rw [DocumentReference.make, dif_pos (c.even_append id)]

theorem CollectionReference.document_path {c : CollectionReference} {id : String}
    {d : DocumentReference} (h : c.document id = .ok d) :
    ∃ segments, d.path = c.path ++ segments := by
  obtain ⟨segments, -, hmake⟩ := bind_eq_ok.mp h
  unfold DocumentReference.make at hmake
  split at hmake
  · exact ⟨segments, (congrArg DocumentReference.path (Except.ok.inj hmake)).symm⟩
  · cases hmake

/-- The Firestore calls of the screens. -/
inductive FirestoreRequest where
  | getDocuments (c : CollectionReference)
  /-- `c.document().setData(docData)`, under a fresh document id. -/
  | setData (c : CollectionReference) (docData : DocData)
  | delete (d : DocumentReference)
  deriving DecidableEq

/-- The path that a request is addressed to. -/
def FirestoreRequest.path : FirestoreRequest → List String
  | .getDocuments c => c.path
  | .setData c _ => c.path
  | .delete d => d.path

/-- What `getDocuments` hands to its completion. -/
abbrev QueryResult := Except NSError (List QueryDocumentSnapshot)

/-- A user as `Auth.auth().currentUser` gives it. -/
structure User where
  uid : String
  email : Option String
  uid_segment : IsSegment uid
  deriving DecidableEq

end GasNow
