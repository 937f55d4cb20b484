import GasNow.Codes.Latch
import GasNow.Firestore.SignedNum

/-!
# The components of table keys

The keys of the client's tables are made of components, each with a label in front of it. Labels,
numbers and strings are written in `OrderedCode`.
-/

namespace GasNow

namespace LevelDb

open Codes OrderedCode

/-- Labels for the components of keys. -/
inductive ComponentLabel where
  | terminator
  | tableName
  | batchId
  | canonicalId
  | targetId
  | userId
  | collectionId
  | documentId
  | snapshotVersion
  | pathSegment
  deriving DecidableEq, Repr

def ComponentLabel.value : ComponentLabel → Int64
  | terminator => 0
  | tableName => 5
  | batchId => 10
  | canonicalId => 11
  | targetId => 12
  | userId => 13
  | collectionId => 14
  | documentId => 15
  | snapshotVersion => 16
  | pathSegment => 62

theorem ComponentLabel.value_injective : Function.Injective ComponentLabel.value := by
  intro l l' h
  cases l <;> cases l' <;> first | rfl | exact absurd h (by decide)

abbrev ResourcePath := List (List Byte)

def isDocumentKey (path : ResourcePath) : Bool := decide (path.length % 2 = 0)

structure DocumentKey where
  path : ResourcePath
  even : isDocumentKey path = true

/-- Documents are in the order of their paths. -/
instance : LinearOrder DocumentKey :=
  LinearOrder.lift' DocumentKey.path fun key key' h => by
    cases key
    cases key'
    cases h
    rfl

/-- Creates a "blank" document key not associated with any document. -/
def DocumentKey.empty : DocumentKey := ⟨[], rfl⟩

/-- The conditions of `ValidateBounds`. -/
def Timestamp.isWithinBounds (seconds : Int64) (nanoseconds : Int32) : Bool :=
  decide (0 ≤ nanoseconds) && decide (nanoseconds < 1000000000) &&
    -- Midnight at the beginning of 1/1/1 is the earliest timestamp Firestore supports.
    decide (-62135596800 ≤ seconds) &&
    -- This will break in the year 10,000.
    decide (seconds < 253402300800)

structure Timestamp where
  seconds : Int64
  nanoseconds : Int32
  bounds : Timestamp.isWithinBounds seconds nanoseconds = true
  deriving DecidableEq

/-- `Timestamp(seconds, nanoseconds)` -/
def Timestamp.create (seconds : Int64) (nanoseconds : Int32) : Except Trap Timestamp :=
  if h : isWithinBounds seconds nanoseconds = true then .ok ⟨seconds, nanoseconds, h⟩
  else .error .hardAssert

theorem Timestamp.create_eq_ok {seconds : Int64} {nanoseconds : Int32} {timestamp : Timestamp} :
    Timestamp.create seconds nanoseconds = .ok timestamp ↔
      timestamp.seconds = seconds ∧ timestamp.nanoseconds = nanoseconds := by
  unfold Timestamp.create
  constructor
  · intro h
    split at h
    · cases h
      exact ⟨rfl, rfl⟩
    · cases h
  · rintro ⟨rfl, rfl⟩
    rw [dif_pos timestamp.bounds]

instance : LT Timestamp where
  lt lhs rhs := lhs.seconds < rhs.seconds ∨
    lhs.seconds = rhs.seconds ∧ lhs.nanoseconds < rhs.nanoseconds

instance (lhs rhs : Timestamp) : Decidable (lhs < rhs) :=
  inferInstanceAs (Decidable (_ ∨ _ ∧ _))

abbrev SnapshotVersion := Timestamp

section Writer

abbrev Writer := StateT (List Byte) (Except Trap)

def Writer.result (writer : Writer Unit) : Except Trap (List Byte) := do
  let p ← writer []
  return p.2

def writeSignedNum (val : Int64) : Writer Unit := fun dest => do
  return ((), ← writeSignedNumIncreasing dest val)

def writeString (s : List Byte) : Writer Unit := fun dest => do
  return ((), ← OrderedCode.writeString dest s)

def writeComponentLabel (label : ComponentLabel) : Writer Unit := writeSignedNum label.value

def writeLabeledInt32 (label : ComponentLabel) (value : Int32) : Writer Unit := do
  writeComponentLabel label
  writeSignedNum value.toInt64

def writeLabeledString (label : ComponentLabel) (value : List Byte) : Writer Unit := do
  writeComponentLabel label
  writeString value

def writeTerminator : Writer Unit := writeComponentLabel .terminator

def writeTableName (table_name : List Byte) : Writer Unit :=
  writeLabeledString .tableName table_name

def writeBatchId (batch_id : Int32) : Writer Unit := writeLabeledInt32 .batchId batch_id

def writeCanonicalId (canonical_id : List Byte) : Writer Unit :=
  writeLabeledString .canonicalId canonical_id

def writeTargetId (target_id : Int32) : Writer Unit := writeLabeledInt32 .targetId target_id

def writeUserId (user_id : List Byte) : Writer Unit := writeLabeledString .userId user_id

def writeCollectionId (collection_id : List Byte) : Writer Unit :=
  writeLabeledString .collectionId collection_id

def writeDocumentId (document_id : List Byte) : Writer Unit :=
  writeLabeledString .documentId document_id

def writeSnapshotVersion (snapshot_version : SnapshotVersion) : Writer Unit := do
  writeComponentLabel .snapshotVersion
  writeSignedNum snapshot_version.seconds
  writeSignedNum snapshot_version.nanoseconds.toInt64

def writeResourcePath (path : ResourcePath) : Writer Unit :=
  path.forM (writeLabeledString .pathSegment)

end Writer

section Codes

def labelCode (label : ComponentLabel) : List Byte := numberCode label.value

def int32Code (label : ComponentLabel) (value : Int32) : List Byte :=
  labelCode label ++ numberCode value.toInt64

def textCode (label : ComponentLabel) (value : List Byte) : List Byte :=
  labelCode label ++ stringCode value

def versionCode (version : SnapshotVersion) : List Byte :=
  labelCode .snapshotVersion ++
    (numberCode version.seconds ++ numberCode version.nanoseconds.toInt64)

def pathCode (path : ResourcePath) : List Byte := path.flatMap (textCode .pathSegment)

/-- What a writer appends, whatever there is already. -/
def Writes (writer : Writer Unit) (code : List Byte) : Prop :=
  ∀ dest, writer dest = .ok ((), dest ++ code)

variable {writer writer' : Writer Unit} {code code' : List Byte}

theorem Writes.seq (h : Writes writer code) (h' : Writes writer' code') :
    Writes (do writer; writer') (code ++ code') := by
  intro dest
  show (writer dest >>= fun p => writer' p.2) = _
  rw [h dest]
  show writer' (dest ++ code) = _
  rw [h', List.append_assoc]

theorem Writes.result (h : Writes writer code) : writer.result = .ok code := by
  unfold Writer.result
  rw [h, List.nil_append]
  rfl

theorem writes_signedNum (val : Int64) : Writes (writeSignedNum val) (numberCode val) := by
  intro dest
  unfold writeSignedNum
  rw [writeSignedNumIncreasing_eq]
  rfl

theorem writes_string (s : List Byte) : Writes (writeString s) (stringCode s) := by
  intro dest
  unfold writeString
  rw [writeString_eq]
  rfl

theorem writes_terminator : Writes writeTerminator (labelCode .terminator) := writes_signedNum _

theorem writes_labeledInt32 (label : ComponentLabel) (value : Int32) :
    Writes (writeLabeledInt32 label value) (int32Code label value) :=
  (writes_signedNum _).seq (writes_signedNum _)

theorem writes_labeledString (label : ComponentLabel) (value : List Byte) :
    Writes (writeLabeledString label value) (textCode label value) :=
  (writes_signedNum _).seq (writes_string _)

theorem writes_snapshotVersion (version : SnapshotVersion) :
    Writes (writeSnapshotVersion version) (versionCode version) :=
  (writes_signedNum _).seq ((writes_signedNum _).seq (writes_signedNum _))

theorem writes_resourcePath (path : ResourcePath) :
    Writes (writeResourcePath path) (pathCode path) := by
  induction path with
  | nil =>
    intro dest
    rw [pathCode, List.flatMap_nil, List.append_nil]
    rfl
  | cons segment path ih =>
    have hseq := (writes_labeledString .pathSegment segment).seq ih
    exact hseq

end Codes

section Reader

abbrev Reader := ReadM Trap Byte

namespace Reader

def readSignedNum : Reader Int64 := fun r => do
  if r.ok then
    if let some (result, tmp) ← readSignedNumIncreasing r.src then
      return (result, { r with src := tmp })
  (do fail; return 0 : Reader Int64) r

def readString : Reader (List Byte) := fun r => do
  if r.ok then
    if let some (tmp, result) ← OrderedCode.readString r.src then
      return (result, { r with src := tmp })
  (do fail; return [] : Reader (List Byte)) r

/-- Note: mismatch of a component label is not necessarily a failure. -/
def readComponentLabelMatching (expected_label : ComponentLabel) : Reader Bool := do
  if (← get).ok then
    let raw_result ← readSignedNum
    if (← get).ok then
      return decide (raw_result = expected_label.value)
  fail
  return false

def readInt32 : Reader Int32 := do
  if (← get).ok then
    let raw_result ← readSignedNum
    if (← get).ok ∧ Int32.minValue.toInt64 ≤ raw_result ∧ raw_result ≤ Int32.maxValue.toInt64 then
      return raw_result.toInt32
  fail
  return 0

def readLabeledInt32 (expected_label : ComponentLabel) : Reader Int32 := do
  if ! (← readComponentLabelMatching expected_label) then
    fail
  readInt32

def readLabeledString (expected_label : ComponentLabel) : Reader (List Byte) := do
  if ! (← readComponentLabelMatching expected_label) then
    fail
  readString

def readLabeledStringMatching (expected_label : ComponentLabel) (expected_value : List Byte) :
    Reader Bool := do
  let value ← readLabeledString expected_label
  if (← get).ok then
    -- Value mismatch does not constitute a failure
    return decide (value = expected_value)
  fail
  return false

def readTableNameMatching (expected_table_name : List Byte) : Reader Unit := do
  if ! (← readLabeledStringMatching .tableName expected_table_name) then
    fail

abbrev readBatchId : Reader Int32 := readLabeledInt32 .batchId

abbrev readCanonicalId : Reader (List Byte) := readLabeledString .canonicalId

abbrev readTargetId : Reader Int32 := readLabeledInt32 .targetId

abbrev readUserId : Reader (List Byte) := readLabeledString .userId

abbrev readCollectionId : Reader (List Byte) := readLabeledString .collectionId

abbrev readDocumentId : Reader (List Byte) := readLabeledString .documentId

def readTerminator : Reader Unit := do
  if ! (← readComponentLabelMatching .terminator) then
    fail

def readSnapshotVersion : Reader SnapshotVersion := do
  if ! (← readComponentLabelMatching .snapshotVersion) then
    fail
  let seconds ← readSignedNum
  let nanos ← readInt32
  -- the constructor checks the bounds, also of what has been read before a failure
  liftM (Timestamp.create seconds nanos)

section Latched

variable {src rest : List Byte}

instance latched_readSignedNum : Latched readSignedNum := ⟨fun src => ⟨0, src, rfl⟩⟩

instance latched_readString : Latched readString := ⟨fun src => ⟨[], src, rfl⟩⟩

@[simp] theorem reads_readSignedNum {v : Int64} :
    Reads readSignedNum src v rest ↔ src = numberCode v ++ rest := by
  unfold Reads readSignedNum
  rw [if_pos rfl, ← readSignedNumIncreasing_eq_some]
  cases h : readSignedNumIncreasing src with
  | error e =>
    constructor
    · intro h
      cases h
    · intro h
      cases h
  | ok o =>
    cases o with
    | none =>
      constructor
      · intro h
        cases h
      · intro h
        cases h
    | some p =>
      constructor
      · intro h
        cases h
        rfl
      · intro h
        cases h
        rfl

@[simp] theorem reads_readString {s : List Byte} :
    Reads readString src s rest ↔ src = stringCode s ++ rest := by
  unfold Reads readString
  rw [if_pos rfl, ← readString_eq_some]
  cases h : OrderedCode.readString src with
  | error e =>
    constructor
    · intro h
      cases h
    · intro h
      cases h
  | ok o =>
    cases o with
    | none =>
      constructor
      · intro h
        cases h
      · intro h
        cases h
    | some p =>
      constructor
      · intro h
        cases h
        rfl
      · intro h
        cases h
        rfl

instance latched_readComponentLabelMatching (label : ComponentLabel) :
    Latched (readComponentLabelMatching label) := by
  unfold readComponentLabelMatching
  infer_instance

@[simp] theorem reads_readComponentLabelMatching {label : ComponentLabel} {b : Bool} :
    Reads (readComponentLabelMatching label) src b rest ↔
      ∃ v, src = numberCode v ++ rest ∧ decide (v = label.value) = b := by
  simp [readComponentLabelMatching]

instance latched_readInt32 : Latched readInt32 := by
  unfold readInt32
  infer_instance

/-- The numbers that fit in 32 bits. -/
theorem toInt64_range_iff (v : Int64) :
    (Int32.minValue.toInt64 ≤ v ∧ v ≤ Int32.maxValue.toInt64) ↔ v.toInt32.toInt64 = v := by
  have hmin : Int32.minValue.toInt64.toInt = -2 ^ 31 := by decide
  have hmax : Int32.maxValue.toInt64.toInt = 2 ^ 31 - 1 := by decide
  have hcut : v.toInt32.toInt64.toInt = v.toInt.bmod (2 ^ 32) := by
    rw [Int32.toInt_toInt64 v.toInt32, Int64.toInt_toInt32]
  rw [Int64.le_iff_toInt_le, Int64.le_iff_toInt_le, ← Int64.toInt_inj, hmin, hmax, hcut]
  constructor
  · rintro ⟨hlo, hhi⟩
    apply Int.bmod_eq_of_le <;> omega
  · intro h
    have hlo := Int.le_bmod (x := v.toInt) (m := 2 ^ 32) (by decide)
    have hhi := Int.bmod_lt (x := v.toInt) (m := 2 ^ 32) (by decide)
    omega

@[simp] theorem reads_readInt32 {i : Int32} :
    Reads readInt32 src i rest ↔ src = numberCode i.toInt64 ++ rest := by
  have hread : Reads readInt32 src i rest ↔
      ∃ v, src = numberCode v ++ rest ∧ v.toInt32.toInt64 = v ∧ v.toInt32 = i := by
    simp [readInt32, ← toInt64_range_iff]
  rw [hread]
  constructor
  · rintro ⟨v, hsrc, hv, rfl⟩
    rw [hv]
    exact hsrc
  · intro hsrc
    exact ⟨i.toInt64, hsrc, by rw [Int32.toInt32_toInt64], Int32.toInt32_toInt64 i⟩

instance latched_readLabeledInt32 (label : ComponentLabel) :
    Latched (readLabeledInt32 label) := by
  unfold readLabeledInt32
  infer_instance

instance latched_readLabeledString (label : ComponentLabel) :
    Latched (readLabeledString label) := by
  unfold readLabeledString
  infer_instance

instance latched_readTableNameMatching (name : List Byte) :
    Latched (readTableNameMatching name) := by
  unfold readTableNameMatching readLabeledStringMatching
  infer_instance

instance latched_readTerminator : Latched readTerminator := by
  unfold readTerminator
  infer_instance

/-- After a failure both numbers are `0`, which is a time within the bounds. -/
instance latched_readSnapshotVersion : Latched readSnapshotVersion :=
  ⟨fun src => ⟨⟨0, 0, rfl⟩, src, rfl⟩⟩

@[simp] theorem reads_readLabeledInt32 {label : ComponentLabel} {i : Int32} :
    Reads (readLabeledInt32 label) src i rest ↔
      src = int32Code label i ++ rest := by
  simp [readLabeledInt32, int32Code, labelCode]

@[simp] theorem reads_readLabeledString {label : ComponentLabel} {s : List Byte} :
    Reads (readLabeledString label) src s rest ↔
      src = textCode label s ++ rest := by
  simp [readLabeledString, textCode, labelCode]

@[simp] theorem reads_readTerminator {u : Unit} :
    Reads readTerminator src u rest ↔ src = labelCode .terminator ++ rest := by
  simp [readTerminator, labelCode]

@[simp] theorem reads_readTableNameMatching {name : List Byte} {u : Unit} :
    Reads (readTableNameMatching name) src u rest ↔ src = textCode .tableName name ++ rest := by
  simp [readTableNameMatching, readLabeledStringMatching]

@[simp] theorem reads_readSnapshotVersion {version : SnapshotVersion} :
    Reads readSnapshotVersion src version rest ↔ src = versionCode version ++ rest := by
  have hread : readSnapshotVersion = (do
      if ! (← readComponentLabelMatching .snapshotVersion) then
        fail
      let seconds ← readSignedNum
      let nanos ← readInt32
      return (seconds, nanos)) >>= fun p => liftM (Timestamp.create p.1 p.2) := by
    unfold readSnapshotVersion
    simp only [bind_assoc]
    congr
    funext label
    cases label <;> simp
  rw [hread, reads_bind_lift]
  constructor
  · rintro ⟨⟨seconds, nanos⟩, hnumbers, hcreate⟩
    obtain ⟨rfl, rfl⟩ := Timestamp.create_eq_ok.mp hcreate
    simpa [versionCode, labelCode] using hnumbers
  · intro hsrc
    refine ⟨(version.seconds, version.nanoseconds), ?_, Timestamp.create_eq_ok.mpr ⟨rfl, rfl⟩⟩
    simpa [versionCode, labelCode] using hsrc

theorem length_numberCode_pos (v : Int64) : 0 < (numberCode v).length := by
  have hpos := codeLength_pos v
  rw [numberCode, BigEndian.length_bytes]
  exact hpos

/-- A path segment takes something from the source. -/
theorem length_lt_of_segment {label : ComponentLabel} {r r1 r2 : Source Byte} {b : Bool}
    {segment : List Byte} (h1 : readComponentLabelMatching label r = .ok (b, r1))
    (h2 : readString r1 = .ok (segment, r2)) (hok : r2.ok = true) :
    r2.src.length < r.src.length := by
  obtain ⟨src, ok⟩ := r
  obtain ⟨mid, ok1⟩ := r1
  obtain ⟨rest, ok2⟩ := r2
  obtain rfl : ok2 = true := hok
  obtain rfl := Latched.ok_of_ok h2
  obtain rfl := Latched.ok_of_ok h1
  obtain ⟨v, hsrc, -⟩ := reads_readComponentLabelMatching.mp h1
  have hmid : mid = stringCode segment ++ rest := reads_readString.mp h2
  have hpos := length_numberCode_pos v
  show rest.length < src.length
  rw [hsrc, hmid, List.length_append, List.length_append]
  omega

end Latched

/-- Reads component labels and strings from the key until it finds a component label other than
`PathSegment`, or the key is exhausted. -/
def readResourcePath (r : Source Byte) : Except Trap (ResourcePath × Source Byte) :=
  if r.ok = false ∨ r.src = [] then .ok ([], r)
  else
    match _ : readComponentLabelMatching .pathSegment r with
    | .error trap => .error trap
    | .ok (false, r1) => .ok ([], { r1 with src := r.src })
    | .ok (true, r1) =>
      match _ : readString r1 with
      | .error trap => .error trap
      | .ok (segment, r2) =>
        if _ : r2.ok = true then do
          let (path_segments, r3) ← readResourcePath r2
          return (segment :: path_segments, r3)
        else .ok ([], r2)
termination_by r.src.length
decreasing_by exact length_lt_of_segment ‹_› ‹_› ‹_›

section Path

variable {src rest : List Byte}

/-- A path ends before a component of another kind, and at the end of the key. -/
def EndsPath (rest : List Byte) : Prop :=
  rest = [] ∨ ∃ v next, rest = numberCode v ++ next ∧ v ≠ ComponentLabel.pathSegment.value

theorem readResourcePath_nil (ok : Bool) : readResourcePath ⟨[], ok⟩ = .ok ([], ⟨[], ok⟩) := by
  rw [readResourcePath, if_pos (.inr rfl)]

theorem readResourcePath_other {v : Int64} {next : List Byte}
    (hv : v ≠ ComponentLabel.pathSegment.value) :
    readResourcePath ⟨numberCode v ++ next, true⟩ = .ok ([], ⟨numberCode v ++ next, true⟩) := by
  have hne : numberCode v ++ next ≠ [] :=
    List.append_ne_nil_of_left_ne_nil (List.ne_nil_of_length_pos (length_numberCode_pos v)) next
  have hlabel : readComponentLabelMatching .pathSegment ⟨numberCode v ++ next, true⟩ =
      .ok (false, ⟨next, true⟩) :=
    reads_readComponentLabelMatching.mpr ⟨v, rfl, decide_eq_false hv⟩
  rw [readResourcePath, if_neg (by simpa using hne)]
  split
  · next h => cases hlabel.symm.trans h
  · next h =>
    cases hlabel.symm.trans h
    rfl
  · next h => cases hlabel.symm.trans h

theorem readResourcePath_segment (segment next : List Byte) :
    readResourcePath ⟨textCode .pathSegment segment ++ next, true⟩ = do
      let (path_segments, r) ← readResourcePath ⟨next, true⟩
      return (segment :: path_segments, r) := by
  have hne : textCode .pathSegment segment ++ next ≠ [] := by
    apply List.append_ne_nil_of_left_ne_nil
    apply List.append_ne_nil_of_left_ne_nil
    exact List.ne_nil_of_length_pos (length_numberCode_pos _)
  have hlabel : readComponentLabelMatching .pathSegment
      ⟨textCode .pathSegment segment ++ next, true⟩ =
      .ok (true, ⟨stringCode segment ++ next, true⟩) :=
    reads_readComponentLabelMatching.mpr ⟨_, List.append_assoc _ _ _, decide_eq_true rfl⟩
  have hstring : readString ⟨stringCode segment ++ next, true⟩ = .ok (segment, ⟨next, true⟩) :=
    reads_readString.mpr rfl
  rw [readResourcePath, if_neg (by simpa using hne)]
  split
  · next h => cases hlabel.symm.trans h
  · next h => cases hlabel.symm.trans h
  · next h =>
    cases hlabel.symm.trans h
    split
    · next h' => cases hstring.symm.trans h'
    · next h' =>
      cases hstring.symm.trans h'
      rw [dif_pos rfl]

/-- A path is read back as far as its segments go. -/
theorem reads_readResourcePath_of_eq (path : ResourcePath) (hrest : EndsPath rest) :
    Reads readResourcePath (pathCode path ++ rest) path rest := by
  unfold Reads
  induction path with
  | nil =>
    rcases hrest with rfl | ⟨v, next, rfl, hv⟩
    · exact readResourcePath_nil true
    · exact readResourcePath_other hv
  | cons segment path ih =>
    have hcode : pathCode (segment :: path) ++ rest =
        textCode .pathSegment segment ++ (pathCode path ++ rest) := by
      simp [pathCode]
    rw [hcode, readResourcePath_segment, ih]
    rfl

/-- Nothing else is read as a path. -/
theorem eq_of_reads_readResourcePath {path : ResourcePath}
    (h : Reads readResourcePath src path rest) : src = pathCode path ++ rest ∧ EndsPath rest := by
  induction hn : src.length using Nat.strong_induction_on generalizing src path with
  | _ n ih =>
    subst hn
    unfold Reads at h
    rw [readResourcePath] at h
    split at h
    · next hend =>
      cases h
      exact ⟨rfl, .inl (by simpa using hend)⟩
    · split at h
      · cases h
      · next r1 hlabel =>
        obtain ⟨mid, ok⟩ := r1
        cases h
        obtain ⟨v, hsrc, hv⟩ := reads_readComponentLabelMatching.mp hlabel
        exact ⟨rfl, .inr ⟨v, mid, hsrc, of_decide_eq_false hv⟩⟩
      · next r1 hlabel =>
        split at h
        · cases h
        · next segment r2 hstring =>
          split at h
          · next hok =>
            obtain ⟨next, ok2⟩ := r2
            obtain ⟨mid, ok1⟩ := r1
            obtain rfl : ok2 = true := hok
            obtain rfl := Latched.ok_of_ok hstring
            obtain ⟨v, hsrc, hv⟩ := reads_readComponentLabelMatching.mp hlabel
            have hmid : mid = stringCode segment ++ next := reads_readString.mp hstring
            have hlt := length_lt_of_segment hlabel hstring rfl
            cases hrec : readResourcePath ⟨next, true⟩ with
            | error trap =>
              rw [hrec] at h
              cases h
            | ok p =>
              obtain ⟨path', r3⟩ := p
              rw [hrec] at h
              cases h
              obtain ⟨hnext, hend⟩ := ih _ hlt hrec rfl
              refine ⟨?_, hend⟩
              rw [hsrc, hmid, of_decide_eq_true hv, hnext]
              simp [pathCode, textCode, labelCode]
          · next hok =>
            cases h
            exact absurd rfl hok

instance latched_readResourcePath : Latched readResourcePath := by
  constructor
  intro src
  exact ⟨[], src, by rw [readResourcePath, if_pos (.inl rfl)]⟩

@[simp] theorem reads_readResourcePath {path : ResourcePath} :
    Reads readResourcePath src path rest ↔ src = pathCode path ++ rest ∧ EndsPath rest := by
  constructor
  · exact eq_of_reads_readResourcePath
  · rintro ⟨rfl, hrest⟩
    exact reads_readResourcePath_of_eq path hrest

end Path

/-- Reads a path and avoids assertion failures in `DocumentKey` if it is invalid. -/
def readDocumentKey : Reader DocumentKey := do
  let path ← readResourcePath
  let r ← get
  if h : r.ok = true ∧ path ≠ [] ∧ isDocumentKey path = true then
    return ⟨path, h.2.2⟩
  else
    fail
    return DocumentKey.empty

section Document

variable {src rest : List Byte}

instance latched_readDocumentKey : Latched readDocumentKey := by
  unfold readDocumentKey
  infer_instance

@[simp] theorem reads_readDocumentKey {key : DocumentKey} :
    Reads readDocumentKey src key rest ↔
      key.path ≠ [] ∧ src = pathCode key.path ++ rest ∧ EndsPath rest := by
  obtain ⟨path, heven⟩ := key
  simp [readDocumentKey, heven]
  tauto

/-- Where a component starts, a path ends, unless it is one more segment. -/
@[simp] theorem endsPath_labelCode {label : ComponentLabel} {next : List Byte} :
    EndsPath (labelCode label ++ next) ↔ label ≠ .pathSegment := by
  have hpos := length_numberCode_pos label.value
  have hne : labelCode label ++ next ≠ [] :=
    List.append_ne_nil_of_left_ne_nil (List.ne_nil_of_length_pos hpos) next
  constructor
  · rintro (hnil | ⟨v, next', heq, hv⟩) rfl
    · exact hne hnil
    · have hread := readSignedNumIncreasing_numberCode ComponentLabel.pathSegment.value next
      have hread' := readSignedNumIncreasing_numberCode v next'
      have hsame : numberCode ComponentLabel.pathSegment.value ++ next =
          numberCode v ++ next' := heq
      rw [hsame, hread'] at hread
      cases hread
      exact hv rfl
  · intro hlabel
    exact .inr ⟨label.value, next, rfl, fun heq => hlabel (ComponentLabel.value_injective heq)⟩

@[simp] theorem endsPath_int32Code {label : ComponentLabel} {i : Int32} {next : List Byte} :
    EndsPath (int32Code label i ++ next) ↔ label ≠ .pathSegment := by
  rw [int32Code, List.append_assoc, endsPath_labelCode]

@[simp] theorem endsPath_versionCode {version : SnapshotVersion} {next : List Byte} :
    EndsPath (versionCode version ++ next) := by
  rw [versionCode, List.append_assoc]
  exact endsPath_labelCode.mpr (by decide)

end Document

section OtherTable

variable {α : Type} {name name' rest : List Byte}

theorem fails_readTableNameMatching (h : name' ≠ name) :
    Fails (readTableNameMatching name) (textCode .tableName name' ++ rest) := by
  have hread : Reads (readLabeledStringMatching .tableName name)
      (textCode .tableName name' ++ rest) false rest := by
    simp only [readLabeledStringMatching, reads_bind, reads_readLabeledString, reads_get]
    exact ⟨name', rest, rfl, ⟨rest, true⟩, rest, ⟨rfl, rfl⟩, by simp [h]⟩
  unfold readTableNameMatching
  exact hread.bind_fails fails_fail

/-- The key of another table is not decoded, and nothing aborts. -/
theorem parse_otherTable {k : Unit → Reader α} [∀ u, Latched (k u)] (h : name' ≠ name) :
    parse (readTableNameMatching name >>= k) (textCode .tableName name' ++ rest) = .ok none :=
  (fails_readTableNameMatching h).bind.parse

end OtherTable

end Reader

end Reader

section Order

instance trichotomous_int32_lt : Std.Trichotomous fun i j : Int32 => i < j where
  trichotomous i j hij hji := by
    rw [Int32.lt_iff_toInt_lt] at hij hji
    apply Int32.toInt_inj.mp
    omega

theorem ordered_numberCode32 : Ordered (· < ·) fun i : Int32 => numberCode i.toInt64 :=
  fun _ _ hij => ordered_numberCode (Int32.toInt64_lt.mpr hij)

theorem ordered_int32Code (label : ComponentLabel) : Ordered (· < ·) (int32Code label) :=
  ordered_numberCode32.append_left _

theorem ordered_textCode (label : ComponentLabel) : Ordered (· < ·) (textCode label) :=
  ordered_stringCode.append_left _

/-- Longer paths sort after the paths that are prefixes of them. -/
theorem ordered_pathCode {label : ComponentLabel} (h : label ≠ .pathSegment) :
    Ordered (· < ·) fun path : ResourcePath => pathCode path ++ labelCode label := by
  have hlabel : label.value < ComponentLabel.pathSegment.value := by
    cases label <;> first | decide | exact absurd rfl h
  exact (ordered_textCode .pathSegment).list fun segment => by
    have hbefore := (ordered_numberCode hlabel).append [] (stringCode segment)
    rw [List.append_nil] at hbefore
    exact hbefore

end Order

end LevelDb

end GasNow
