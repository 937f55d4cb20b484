import GasNow.Firestore.KeyReader

/-!
# The keys of the client's tables

Each table has a class that writes the keys of its rows and decodes them. A key is the table's
name, the columns of the row and a terminator. A row is found again from its key, and the rows of
a table are sorted by their columns.

## Main definitions

- `KeyClass`, a table with its writer, its decoder and the order of its rows
- `keyClasses`, the tables of the client
-/

namespace GasNow

namespace LevelDb

open Codes OrderedCode Reader

/-- A table name, which has ASCII letters only. -/
def cString (s : String) : List Byte := s.toList.map fun c => Fin.ofNat 256 c.toNat

def kVersionGlobalTable : List Byte := cString "version"
def kMutationsTable : List Byte := cString "mutation"
def kDocumentMutationsTable : List Byte := cString "document_mutation"
def kMutationQueuesTable : List Byte := cString "mutation_queue"
def kTargetGlobalTable : List Byte := cString "target_global"
def kTargetsTable : List Byte := cString "target"
def kQueryTargetsTable : List Byte := cString "query_target"
def kTargetDocumentsTable : List Byte := cString "target_document"
def kDocumentTargetsTable : List Byte := cString "document_target"
def kRemoteDocumentsTable : List Byte := cString "remote_document"
def kCollectionParentsTable : List Byte := cString "collection_parent"
def kRemoteDocumentReadTimeTable : List Byte := cString "remote_document_read_time"

/-- The key of the one row that has the version of the schema. -/
def LevelDbVersionKey.key : Except Trap (List Byte) := Writer.result do
  writeTableName kVersionGlobalTable
  writeTerminator

/-- The key of the one row that has what is known of all targets. -/
def LevelDbTargetGlobalKey.key : Except Trap (List Byte) := Writer.result do
  writeTableName kTargetGlobalTable
  writeTerminator

structure LevelDbMutationKey where
  user_id : List Byte
  batch_id : Int32
  deriving DecidableEq

namespace LevelDbMutationKey

def keyPrefix : Except Trap (List Byte) := Writer.result do
  writeTableName kMutationsTable

def userKeyPrefix (user_id : List Byte) : Except Trap (List Byte) := Writer.result do
  writeTableName kMutationsTable
  writeUserId user_id

def key (row : LevelDbMutationKey) : Except Trap (List Byte) := Writer.result do
  writeTableName kMutationsTable
  writeUserId row.user_id
  writeBatchId row.batch_id
  writeTerminator

def decode (key : List Byte) : Except Trap (Option LevelDbMutationKey) := parse (do
  readTableNameMatching kMutationsTable
  let user_id ← readUserId
  let batch_id ← readBatchId
  readTerminator
  return ⟨user_id, batch_id⟩) key

end LevelDbMutationKey

structure LevelDbDocumentMutationKey where
  user_id : List Byte
  document_key : DocumentKey
  batch_id : Int32
  deriving DecidableEq

namespace LevelDbDocumentMutationKey

def userKeyPrefix (user_id : List Byte) : Except Trap (List Byte) := Writer.result do
  writeTableName kDocumentMutationsTable
  writeUserId user_id

def pathKeyPrefix (user_id : List Byte) (resource_path : ResourcePath) :
    Except Trap (List Byte) := Writer.result do
  writeTableName kDocumentMutationsTable
  writeUserId user_id
  writeResourcePath resource_path

def key (row : LevelDbDocumentMutationKey) : Except Trap (List Byte) := Writer.result do
  writeTableName kDocumentMutationsTable
  writeUserId row.user_id
  writeResourcePath row.document_key.path
  writeBatchId row.batch_id
  writeTerminator

def decode (key : List Byte) : Except Trap (Option LevelDbDocumentMutationKey) := parse (do
  readTableNameMatching kDocumentMutationsTable
  let user_id ← readUserId
  let document_key ← readDocumentKey
  let batch_id ← readBatchId
  readTerminator
  return ⟨user_id, document_key, batch_id⟩) key

end LevelDbDocumentMutationKey

structure LevelDbMutationQueueKey where
  user_id : List Byte
  deriving DecidableEq

namespace LevelDbMutationQueueKey

def key (row : LevelDbMutationQueueKey) : Except Trap (List Byte) := Writer.result do
  writeTableName kMutationQueuesTable
  writeUserId row.user_id
  writeTerminator

def decode (key : List Byte) : Except Trap (Option LevelDbMutationQueueKey) := parse (do
  readTableNameMatching kMutationQueuesTable
  let user_id ← readUserId
  readTerminator
  return ⟨user_id⟩) key

end LevelDbMutationQueueKey

structure LevelDbTargetKey where
  target_id : Int32
  deriving DecidableEq

namespace LevelDbTargetKey

def key (row : LevelDbTargetKey) : Except Trap (List Byte) := Writer.result do
  writeTableName kTargetsTable
  writeTargetId row.target_id
  writeTerminator

def decode (key : List Byte) : Except Trap (Option LevelDbTargetKey) := parse (do
  readTableNameMatching kTargetsTable
  let target_id ← readTargetId
  readTerminator
  return ⟨target_id⟩) key

end LevelDbTargetKey

structure LevelDbQueryTargetKey where
  canonical_id : List Byte
  target_id : Int32
  deriving DecidableEq

namespace LevelDbQueryTargetKey

def key (row : LevelDbQueryTargetKey) : Except Trap (List Byte) := Writer.result do
  writeTableName kQueryTargetsTable
  writeCanonicalId row.canonical_id
  writeTargetId row.target_id
  writeTerminator

def decode (key : List Byte) : Except Trap (Option LevelDbQueryTargetKey) := parse (do
  readTableNameMatching kQueryTargetsTable
  let canonical_id ← readCanonicalId
  let target_id ← readTargetId
  readTerminator
  return ⟨canonical_id, target_id⟩) key

end LevelDbQueryTargetKey

structure LevelDbTargetDocumentKey where
  target_id : Int32
  document_key : DocumentKey
  deriving DecidableEq

namespace LevelDbTargetDocumentKey

def key (row : LevelDbTargetDocumentKey) : Except Trap (List Byte) := Writer.result do
  writeTableName kTargetDocumentsTable
  writeTargetId row.target_id
  writeResourcePath row.document_key.path
  writeTerminator

def decode (key : List Byte) : Except Trap (Option LevelDbTargetDocumentKey) := parse (do
  readTableNameMatching kTargetDocumentsTable
  let target_id ← readTargetId
  let document_key ← readDocumentKey
  readTerminator
  return ⟨target_id, document_key⟩) key

end LevelDbTargetDocumentKey

structure LevelDbDocumentTargetKey where
  document_key : DocumentKey
  target_id : Int32
  deriving DecidableEq

namespace LevelDbDocumentTargetKey

def key (row : LevelDbDocumentTargetKey) : Except Trap (List Byte) := Writer.result do
  writeTableName kDocumentTargetsTable
  writeResourcePath row.document_key.path
  writeTargetId row.target_id
  writeTerminator

def decode (key : List Byte) : Except Trap (Option LevelDbDocumentTargetKey) := parse (do
  readTableNameMatching kDocumentTargetsTable
  let document_key ← readDocumentKey
  let target_id ← readTargetId
  readTerminator
  return ⟨document_key, target_id⟩) key

end LevelDbDocumentTargetKey

structure LevelDbRemoteDocumentKey where
  document_key : DocumentKey
  deriving DecidableEq

namespace LevelDbRemoteDocumentKey

def key (row : LevelDbRemoteDocumentKey) : Except Trap (List Byte) := Writer.result do
  writeTableName kRemoteDocumentsTable
  writeResourcePath row.document_key.path
  writeTerminator

def decode (key : List Byte) : Except Trap (Option LevelDbRemoteDocumentKey) := parse (do
  readTableNameMatching kRemoteDocumentsTable
  let document_key ← readDocumentKey
  readTerminator
  return ⟨document_key⟩) key

end LevelDbRemoteDocumentKey

structure LevelDbCollectionParentKey where
  collection_id : List Byte
  parent : ResourcePath
  deriving DecidableEq

namespace LevelDbCollectionParentKey

def key (row : LevelDbCollectionParentKey) : Except Trap (List Byte) := Writer.result do
  writeTableName kCollectionParentsTable
  writeCollectionId row.collection_id
  writeResourcePath row.parent
  writeTerminator

def decode (key : List Byte) : Except Trap (Option LevelDbCollectionParentKey) := parse (do
  readTableNameMatching kCollectionParentsTable
  let collection_id ← readCollectionId
  let parent ← readResourcePath
  readTerminator
  return ⟨collection_id, parent⟩) key

end LevelDbCollectionParentKey

structure LevelDbRemoteDocumentReadTimeKey where
  collection_path : ResourcePath
  read_time : SnapshotVersion
  document_id : List Byte
  deriving DecidableEq

namespace LevelDbRemoteDocumentReadTimeKey

def key (row : LevelDbRemoteDocumentReadTimeKey) : Except Trap (List Byte) := Writer.result do
  writeTableName kRemoteDocumentReadTimeTable
  writeResourcePath row.collection_path
  writeSnapshotVersion row.read_time
  writeDocumentId row.document_id
  writeTerminator

def decode (key : List Byte) : Except Trap (Option LevelDbRemoteDocumentReadTimeKey) := parse (do
  readTableNameMatching kRemoteDocumentReadTimeTable
  let collection_path ← readResourcePath
  let read_time ← readSnapshotVersion
  let document_id ← readDocumentId
  readTerminator
  return ⟨collection_path, read_time, document_id⟩) key

end LevelDbRemoteDocumentReadTimeKey

/-- A table with its writer, its decoder and the order of its rows. -/
structure KeyClass where
  Row : Type
  table : List Byte
  /-- The columns of a row and the terminator. -/
  columns : Row → List Byte
  /-- A row whose key is decoded: its document has a name. -/
  IsRow : Row → Prop
  lt : Row → Row → Prop
  key : Row → Except Trap (List Byte)
  decode : List Byte → Except Trap (Option Row)
  trichotomous : Std.Trichotomous lt
  ordered : Ordered lt columns
  key_eq : ∀ row, key row = .ok (textCode .tableName table ++ columns row)
  decode_eq_some : ∀ src row, decode src = .ok (some row) ↔
    IsRow row ∧ ∃ rest, src = textCode .tableName table ++ (columns row ++ rest)
  decode_other : ∀ table' rest, table' ≠ table →
    decode (textCode .tableName table' ++ rest) = .ok none

def LevelDbMutationKey.keyClass : KeyClass where
  Row := LevelDbMutationKey
  table := kMutationsTable
  columns row := (textCode .userId row.user_id ++ int32Code .batchId row.batch_id) ++
    labelCode .terminator
  IsRow _ := True
  lt row row' := Prod.Lex (· < ·) (· < ·) (row.user_id, row.batch_id) (row'.user_id, row'.batch_id)
  key := key
  decode := decode
  trichotomous := by
    apply InvImage.trichotomous (r := Prod.Lex (· < ·) (· < ·))
    rintro ⟨u, b⟩ ⟨u', b'⟩ h
    cases h
    rfl
  ordered := (((ordered_textCode _).prod (ordered_int32Code _)).append_right _).comap _
  key_eq row := by
    have hwrites := (writes_labeledString .tableName kMutationsTable).seq
      ((writes_labeledString .userId row.user_id).seq
        ((writes_labeledInt32 .batchId row.batch_id).seq writes_terminator))
    refine hwrites.result.trans ?_
    simp [int32Code]
  decode_eq_some src row := by
    obtain ⟨user_id, batch_id⟩ := row
    simp [decode, parse_eq_some, int32Code, and_comm]
  decode_other _ _ h := parse_otherTable h

def LevelDbDocumentMutationKey.keyClass : KeyClass where
  Row := LevelDbDocumentMutationKey
  table := kDocumentMutationsTable
  columns row := (textCode .userId row.user_id ++
    ((pathCode row.document_key.path ++ labelCode .batchId) ++ numberCode row.batch_id.toInt64)) ++
    labelCode .terminator
  IsRow row := row.document_key.path ≠ []
  lt row row' := Prod.Lex (· < ·) (Prod.Lex (· < ·) (· < ·))
    (row.user_id, row.document_key.path, row.batch_id)
    (row'.user_id, row'.document_key.path, row'.batch_id)
  key := key
  decode := decode
  trichotomous := by
    apply InvImage.trichotomous (r := Prod.Lex (· < ·) (Prod.Lex (· < ·) (· < ·)))
    rintro ⟨u, ⟨p, hp⟩, b⟩ ⟨u', ⟨p', hp'⟩, b'⟩ h
    cases h
    rfl
  ordered := (((ordered_textCode _).prod ((ordered_pathCode (by decide)).prod
    ordered_numberCode32)).append_right _).comap _
  key_eq row := by
    have hwrites := (writes_labeledString .tableName kDocumentMutationsTable).seq
      ((writes_labeledString .userId row.user_id).seq
        ((writes_resourcePath row.document_key.path).seq
          ((writes_labeledInt32 .batchId row.batch_id).seq writes_terminator)))
    refine hwrites.result.trans ?_
    simp [int32Code]
  decode_eq_some src row := by
    obtain ⟨user_id, document_key, batch_id⟩ := row
    simp [decode, parse_eq_some, int32Code, and_comm]
  decode_other _ _ h := parse_otherTable h

def LevelDbMutationQueueKey.keyClass : KeyClass where
  Row := LevelDbMutationQueueKey
  table := kMutationQueuesTable
  columns row := textCode .userId row.user_id ++ labelCode .terminator
  IsRow _ := True
  lt row row' := row.user_id < row'.user_id
  key := key
  decode := decode
  trichotomous := by
    apply InvImage.trichotomous (r := fun u u' : List Byte => u < u')
    rintro ⟨u⟩ ⟨u'⟩ h
    cases h
    rfl
  ordered := ((ordered_textCode _).append_right _).comap _
  key_eq row := by
    have hwrites := (writes_labeledString .tableName kMutationQueuesTable).seq
      ((writes_labeledString .userId row.user_id).seq writes_terminator)
    refine hwrites.result.trans ?_
    simp
  decode_eq_some src row := by
    obtain ⟨user_id⟩ := row
    simp [decode, parse_eq_some, and_comm]
  decode_other _ _ h := parse_otherTable h

def LevelDbTargetKey.keyClass : KeyClass where
  Row := LevelDbTargetKey
  table := kTargetsTable
  columns row := int32Code .targetId row.target_id ++ labelCode .terminator
  IsRow _ := True
  lt row row' := row.target_id < row'.target_id
  key := key
  decode := decode
  trichotomous := by
    apply InvImage.trichotomous (r := fun i i' : Int32 => i < i')
    rintro ⟨i⟩ ⟨i'⟩ h
    cases h
    rfl
  ordered := ((ordered_int32Code _).append_right _).comap _
  key_eq row := by
    have hwrites := (writes_labeledString .tableName kTargetsTable).seq
      ((writes_labeledInt32 .targetId row.target_id).seq writes_terminator)
    refine hwrites.result.trans ?_
    simp [int32Code]
  decode_eq_some src row := by
    obtain ⟨target_id⟩ := row
    simp [decode, parse_eq_some, int32Code, and_comm]
  decode_other _ _ h := parse_otherTable h

def LevelDbQueryTargetKey.keyClass : KeyClass where
  Row := LevelDbQueryTargetKey
  table := kQueryTargetsTable
  columns row := (textCode .canonicalId row.canonical_id ++ int32Code .targetId row.target_id) ++
    labelCode .terminator
  IsRow _ := True
  lt row row' := Prod.Lex (· < ·) (· < ·)
    (row.canonical_id, row.target_id) (row'.canonical_id, row'.target_id)
  key := key
  decode := decode
  trichotomous := by
    apply InvImage.trichotomous (r := Prod.Lex (· < ·) (· < ·))
    rintro ⟨c, i⟩ ⟨c', i'⟩ h
    cases h
    rfl
  ordered := (((ordered_textCode _).prod (ordered_int32Code _)).append_right _).comap _
  key_eq row := by
    have hwrites := (writes_labeledString .tableName kQueryTargetsTable).seq
      ((writes_labeledString .canonicalId row.canonical_id).seq
        ((writes_labeledInt32 .targetId row.target_id).seq writes_terminator))
    refine hwrites.result.trans ?_
    simp [int32Code]
  decode_eq_some src row := by
    obtain ⟨canonical_id, target_id⟩ := row
    simp [decode, parse_eq_some, int32Code, and_comm]
  decode_other _ _ h := parse_otherTable h

def LevelDbTargetDocumentKey.keyClass : KeyClass where
  Row := LevelDbTargetDocumentKey
  table := kTargetDocumentsTable
  columns row := int32Code .targetId row.target_id ++
    (pathCode row.document_key.path ++ labelCode .terminator)
  IsRow row := row.document_key.path ≠ []
  lt row row' := Prod.Lex (· < ·) (· < ·)
    (row.target_id, row.document_key.path) (row'.target_id, row'.document_key.path)
  key := key
  decode := decode
  trichotomous := by
    apply InvImage.trichotomous (r := Prod.Lex (· < ·) (· < ·))
    rintro ⟨i, ⟨p, hp⟩⟩ ⟨i', ⟨p', hp'⟩⟩ h
    cases h
    rfl
  ordered := ((ordered_int32Code _).prod (ordered_pathCode (by decide))).comap _
  key_eq row := by
    have hwrites := (writes_labeledString .tableName kTargetDocumentsTable).seq
      ((writes_labeledInt32 .targetId row.target_id).seq
        ((writes_resourcePath row.document_key.path).seq writes_terminator))
    refine hwrites.result.trans ?_
    simp [int32Code]
  decode_eq_some src row := by
    obtain ⟨target_id, document_key⟩ := row
    simp [decode, parse_eq_some, int32Code, and_comm]
  decode_other _ _ h := parse_otherTable h

def LevelDbDocumentTargetKey.keyClass : KeyClass where
  Row := LevelDbDocumentTargetKey
  table := kDocumentTargetsTable
  columns row := ((pathCode row.document_key.path ++ labelCode .targetId) ++
    numberCode row.target_id.toInt64) ++ labelCode .terminator
  IsRow row := row.document_key.path ≠ []
  lt row row' := Prod.Lex (· < ·) (· < ·)
    (row.document_key.path, row.target_id) (row'.document_key.path, row'.target_id)
  key := key
  decode := decode
  trichotomous := by
    apply InvImage.trichotomous (r := Prod.Lex (· < ·) (· < ·))
    rintro ⟨⟨p, hp⟩, i⟩ ⟨⟨p', hp'⟩, i'⟩ h
    cases h
    rfl
  ordered := (((ordered_pathCode (by decide)).prod ordered_numberCode32).append_right _).comap _
  key_eq row := by
    have hwrites := (writes_labeledString .tableName kDocumentTargetsTable).seq
      ((writes_resourcePath row.document_key.path).seq
        ((writes_labeledInt32 .targetId row.target_id).seq writes_terminator))
    refine hwrites.result.trans ?_
    simp [int32Code]
  decode_eq_some src row := by
    obtain ⟨document_key, target_id⟩ := row
    simp [decode, parse_eq_some, int32Code, and_comm]
  decode_other _ _ h := parse_otherTable h

def LevelDbRemoteDocumentKey.keyClass : KeyClass where
  Row := LevelDbRemoteDocumentKey
  table := kRemoteDocumentsTable
  columns row := pathCode row.document_key.path ++ labelCode .terminator
  IsRow row := row.document_key.path ≠ []
  lt row row' := row.document_key.path < row'.document_key.path
  key := key
  decode := decode
  trichotomous := by
    apply InvImage.trichotomous (r := fun p p' : ResourcePath => p < p')
    rintro ⟨⟨p, hp⟩⟩ ⟨⟨p', hp'⟩⟩ h
    cases h
    rfl
  ordered := (ordered_pathCode (by decide)).comap _
  key_eq row := by
    have hwrites := (writes_labeledString .tableName kRemoteDocumentsTable).seq
      ((writes_resourcePath row.document_key.path).seq writes_terminator)
    refine hwrites.result.trans ?_
    simp
  decode_eq_some src row := by
    obtain ⟨document_key⟩ := row
    simp [decode, parse_eq_some, and_comm]
  decode_other _ _ h := parse_otherTable h

def LevelDbCollectionParentKey.keyClass : KeyClass where
  Row := LevelDbCollectionParentKey
  table := kCollectionParentsTable
  columns row := textCode .collectionId row.collection_id ++
    (pathCode row.parent ++ labelCode .terminator)
  IsRow _ := True
  lt row row' := Prod.Lex (· < ·) (· < ·)
    (row.collection_id, row.parent) (row'.collection_id, row'.parent)
  key := key
  decode := decode
  trichotomous := by
    apply InvImage.trichotomous (r := Prod.Lex (· < ·) (· < ·))
    rintro ⟨c, p⟩ ⟨c', p'⟩ h
    cases h
    rfl
  ordered := ((ordered_textCode _).prod (ordered_pathCode (by decide))).comap _
  key_eq row := by
    have hwrites := (writes_labeledString .tableName kCollectionParentsTable).seq
      ((writes_labeledString .collectionId row.collection_id).seq
        ((writes_resourcePath row.parent).seq writes_terminator))
    refine hwrites.result.trans ?_
    simp
  decode_eq_some src row := by
    obtain ⟨collection_id, parent⟩ := row
    simp [decode, parse_eq_some, and_comm]
  decode_other _ _ h := parse_otherTable h

def LevelDbRemoteDocumentReadTimeKey.keyClass : KeyClass where
  Row := LevelDbRemoteDocumentReadTimeKey
  table := kRemoteDocumentReadTimeTable
  columns row := ((pathCode row.collection_path ++ labelCode .snapshotVersion) ++
    ((numberCode row.read_time.seconds ++ numberCode row.read_time.nanoseconds.toInt64) ++
      textCode .documentId row.document_id)) ++ labelCode .terminator
  IsRow _ := True
  lt row row' := Prod.Lex (· < ·) (Prod.Lex (Prod.Lex (· < ·) (· < ·)) (· < ·))
    (row.collection_path, (row.read_time.seconds, row.read_time.nanoseconds), row.document_id)
    (row'.collection_path, (row'.read_time.seconds, row'.read_time.nanoseconds), row'.document_id)
  key := key
  decode := decode
  trichotomous := by
    apply InvImage.trichotomous
      (r := Prod.Lex (· < ·) (Prod.Lex (Prod.Lex (· < ·) (· < ·)) (· < ·)))
    rintro ⟨p, ⟨s, n⟩, d⟩ ⟨p', ⟨s', n'⟩, d'⟩ h
    cases h
    rfl
  ordered := (((ordered_pathCode (by decide)).prod
    ((ordered_numberCode.prod ordered_numberCode32).prod (ordered_textCode _))).append_right
      _).comap _
  key_eq row := by
    have hwrites := (writes_labeledString .tableName kRemoteDocumentReadTimeTable).seq
      ((writes_resourcePath row.collection_path).seq
        ((writes_snapshotVersion row.read_time).seq
          ((writes_labeledString .documentId row.document_id).seq writes_terminator)))
    refine hwrites.result.trans ?_
    simp [versionCode]
  decode_eq_some src row := by
    obtain ⟨collection_path, read_time, document_id⟩ := row
    simp [decode, parse_eq_some, versionCode, and_comm]
  decode_other _ _ h := parse_otherTable h

/-- The tables of the client, less the two of one row each. -/
def keyClasses : List KeyClass :=
  [LevelDbMutationKey.keyClass, LevelDbDocumentMutationKey.keyClass,
    LevelDbMutationQueueKey.keyClass, LevelDbTargetKey.keyClass, LevelDbQueryTargetKey.keyClass,
    LevelDbTargetDocumentKey.keyClass, LevelDbDocumentTargetKey.keyClass,
    LevelDbRemoteDocumentKey.keyClass, LevelDbCollectionParentKey.keyClass,
    LevelDbRemoteDocumentReadTimeKey.keyClass]

theorem KeyClass.key_lt_iff (K : KeyClass) {row row' : K.Row} {s t : List Byte} :
    textCode .tableName K.table ++ (K.columns row ++ s) <
        textCode .tableName K.table ++ (K.columns row' ++ t) ↔
      K.lt row row' ∨ row = row' ∧ s < t := by
  have htrichotomous := K.trichotomous
  rw [append_left_lt_iff (textCode .tableName K.table)]
  exact K.ordered.append_lt_append_iff

/-- **Rows are sorted by their columns**: whatever is behind them, the keys of two rows of a class
compare as their columns do, one column after another. -/
theorem key_sorted :
    ∀ K ∈ keyClasses, ∀ row row' : K.Row, ∃ code code', K.key row = .ok code ∧
      K.key row' = .ok code' ∧
      ∀ s t, code ++ s < code' ++ t ↔ K.lt row row' ∨ row = row' ∧ s < t := by
  intro K _ row row'
  refine ⟨_, _, K.key_eq row, K.key_eq row', fun s t => ?_⟩
  rw [List.append_assoc, List.append_assoc]
  exact K.key_lt_iff

theorem key_sorted_batches : ∃ code code', LevelDbMutationKey.key ⟨[97], 9⟩ = .ok code ∧
    LevelDbMutationKey.key ⟨[97], 100⟩ = .ok code' ∧ code < code' := by
  obtain ⟨code, code', hcode, hcode', hlt⟩ :=
    key_sorted LevelDbMutationKey.keyClass (by simp [keyClasses]) ⟨[97], 9⟩ ⟨[97], 100⟩
  have hless : Prod.Lex (· < ·) (· < ·) (([97] : List Byte), (9 : Int32)) ([97], 100) :=
    .right _ (by decide)
  have hcodes := (hlt [] []).mpr (.inl hless)
  rw [List.append_nil, List.append_nil] at hcodes
  exact ⟨code, code', hcode, hcode', hcodes⟩

end LevelDb

end GasNow
