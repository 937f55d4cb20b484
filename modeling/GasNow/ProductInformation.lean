import GasNow.Firestore
import GasNow.Text.Numerals

/-!
# Products, and the entries of a cart or wishlist

`ProductInformation` with the fields the screens set, the two directions of the text form of
an integer, and the decode loop that `CartVC.getCartList` and `WishlistVC.getWishList` share.
-/

namespace GasNow

/-- `"\(n)"` -/
def description (n : Int64) : String := toString n.toInt

/-- `(s as NSString).integerValue`: leading white space, an optional sign and decimal
digits, clamped to 64 bits. -/
def integerValue (s : String) : Int64 :=
  Int64.ofIntClamp (Numerals.intPrefix (s.toList.dropWhile Char.isWhitespace))

theorem dropWhile_whitespace_description (n : Int64) :
    (description n).toList.dropWhile Char.isWhitespace = (description n).toList := by
  obtain ⟨c, cs, hcs, hc⟩ := Numerals.repr_head n.toInt
  have hspace : c.isWhitespace = false := by
    rcases hc with hc | rfl
    · simp [Char.isWhitespace, Numerals.isDigit_ne hc]
    · decide
  rw [description, hcs, List.dropWhile_cons, hspace]
  rfl

/-- Printing a 64-bit integer and reading it back. -/
@[simp] theorem integerValue_description (n : Int64) : integerValue (description n) = n := by
  rw [integerValue, dropWhile_whitespace_description, description, Numerals.intPrefix_repr,
    Int64.ofIntClamp_toInt]

structure ProductInformation where
  name : String
  image : String
  description : String
  price : Int64
  product_quantity : Int64
  documentId : String
  deriving DecidableEq

/-- `ProductInformation()` -/
def ProductInformation.empty : ProductInformation := ⟨"", "", "", 0, 0, ""⟩

/-- One turn of the decode loops: the quantity, name and image are cast by force, a price
that is missing or not a string counts as zero. -/
def ProductInformation.ofEntry (quantityKey priceKey nameKey imageKey : String)
    (document : QueryDocumentSnapshot) : Except Trap ProductInformation := do
  let product_quantity ← document.data.forcedInt quantityKey
  let price := ((document.data.optionalString priceKey).map integerValue).getD 0
  let name ← document.data.forcedString nameKey
  let image ← document.data.forcedString imageKey
  return { ProductInformation.empty with
    product_quantity, price, name, image, documentId := document.documentID }

theorem ProductInformation.ofEntry_documentId {qk pk nk ik : String}
    {document : QueryDocumentSnapshot} {obj : ProductInformation}
    (h : ProductInformation.ofEntry qk pk nk ik document = .ok obj) :
    obj.documentId = document.documentID := by
  obtain ⟨quantity, -, h⟩ := bind_eq_ok.mp h
  obtain ⟨name, -, h⟩ := bind_eq_ok.mp h
  obtain ⟨image, -, h⟩ := bind_eq_ok.mp h
  obtain rfl := Except.ok.inj h
  rfl

/-- The fields that every writer of a cart or wishlist document sets. -/
def entryData (no_of_items : Int64) (primage prname prprice useremail : String) : DocData :=
  [("no_of_items", .integer no_of_items), ("prdesc", .string "Gas Description"),
    ("prid", .string "3"), ("primage", .string primage), ("prname", .string prname),
    ("prprice", .string prprice), ("useremail", .string useremail),
    ("message_body", .string "Test Items")]

/-- The decode loop over the documents of a snapshot. -/
def decodeAll {α : Type*} (entry : QueryDocumentSnapshot → Except Trap α)
    (documents : List QueryDocumentSnapshot) : Except Trap (List α) :=
  documents.mapM entry

/-- What a completion of `getDocuments` decodes: nothing after an error. -/
def decodeResult {α : Type*} (entry : QueryDocumentSnapshot → Except Trap α) :
    QueryResult → Except Trap (List α)
  | .error _ => .ok []
  | .ok documents => decodeAll entry documents

section DecodeAll

variable {α : Type*} {entry : QueryDocumentSnapshot → Except Trap α}

@[simp] theorem decodeAll_nil : decodeAll entry [] = .ok [] := rfl

theorem decodeAll_cons_eq_ok {d : QueryDocumentSnapshot} {ds : List QueryDocumentSnapshot}
    {objs : List α} :
    decodeAll entry (d :: ds) = .ok objs ↔
      ∃ obj rest, entry d = .ok obj ∧ decodeAll entry ds = .ok rest ∧ objs = obj :: rest := by
  unfold decodeAll
  rw [List.mapM_cons]
  cases hd : entry d with
  | error t => simp [bind, Except.bind]
  | ok obj =>
    cases hds : ds.mapM entry with
    | error t => simp [bind, Except.bind]
    | ok rest => simp [bind, Except.bind, pure, Except.pure, eq_comm]

/-- The decoded entries name the documents they come from, in the order of the snapshot. -/
theorem decodeAll_map {key : α → String}
    (hkey : ∀ d obj, entry d = .ok obj → key obj = d.documentID)
    {documents : List QueryDocumentSnapshot} {objs : List α}
    (h : decodeAll entry documents = .ok objs) :
    objs.map key = documents.map (·.documentID) := by
  induction documents generalizing objs with
  | nil => simp_all
  | cons d ds ih =>
    obtain ⟨obj, rest, hobj, hrest, rfl⟩ := decodeAll_cons_eq_ok.mp h
    rw [List.map_cons, List.map_cons, hkey d obj hobj, ih hrest]

/-- A decoded entry comes from one of the documents. -/
theorem exists_of_mem_decodeAll {documents : List QueryDocumentSnapshot} {objs : List α}
    (h : decodeAll entry documents = .ok objs) {obj : α} (hobj : obj ∈ objs) :
    ∃ d ∈ documents, entry d = .ok obj := by
  induction documents generalizing objs with
  | nil => simp_all
  | cons d ds ih =>
    obtain ⟨o, rest, ho, hrest, rfl⟩ := decodeAll_cons_eq_ok.mp h
    rcases List.mem_cons.mp hobj with rfl | hobj
    · exact ⟨d, by simp, ho⟩
    · obtain ⟨d', hd', he⟩ := ih hrest hobj
      exact ⟨d', by simp [hd'], he⟩

theorem isSegment_of_mem_decodeAll {key : α → String}
    (hkey : ∀ d obj, entry d = .ok obj → key obj = d.documentID)
    {documents : List QueryDocumentSnapshot} {objs : List α}
    (h : decodeAll entry documents = .ok objs) {obj : α} (hobj : obj ∈ objs) :
    IsSegment (key obj) := by
  obtain ⟨d, -, hd⟩ := exists_of_mem_decodeAll h hobj
  rw [hkey d obj hd]
  exact d.documentID_segment

/-- The loop gets through a snapshot just in case it gets through each document. -/
theorem decodeAll_isOk_iff {documents : List QueryDocumentSnapshot} :
    (∃ objs, decodeAll entry documents = .ok objs) ↔
      ∀ d ∈ documents, ∃ obj, entry d = .ok obj := by
  induction documents with
  | nil => simp
  | cons d ds ih =>
    rw [List.forall_mem_cons, ← ih]
    constructor
    · rintro ⟨objs, h⟩
      obtain ⟨obj, rest, hobj, hrest, -⟩ := decodeAll_cons_eq_ok.mp h
      exact ⟨⟨obj, hobj⟩, rest, hrest⟩
    · rintro ⟨⟨obj, hobj⟩, rest, hrest⟩
      exact ⟨obj :: rest, decodeAll_cons_eq_ok.mpr ⟨obj, rest, hobj, hrest, rfl⟩⟩

theorem decodeAll_eq_nil {documents : List QueryDocumentSnapshot}
    (h : decodeAll entry documents = .ok []) : documents = [] := by
  cases documents with
  | nil => rfl
  | cons d ds =>
    obtain ⟨_, _, _, _, he⟩ := decodeAll_cons_eq_ok.mp h
    simp at he

end DecodeAll

/-- A 19 KG cylinder as the screens store it, used where a concrete document is needed. -/
def cylinder (id : String) (h : IsSegment id) : QueryDocumentSnapshot where
  documentID := id
  data := [("no_of_items", .integer 2), ("prdesc", .string "Gas Description"),
    ("prid", .string "3"), ("primage", .string "products/1.png"), ("prname", .string "19 KG"),
    ("prprice", .string "399"), ("useremail", .string ""), ("message_body", .string "Test Items")]
  documentID_segment := h

theorem isSegment_a : IsSegment "a" := by decide

theorem isSegment_b : IsSegment "b" := by decide

/-- A user of the app, used where a concrete one is needed. -/
def customer : User := ⟨"customer", none, by decide⟩

end GasNow
