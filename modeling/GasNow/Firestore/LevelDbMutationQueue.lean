import GasNow.Firestore.LevelDbKey
import GasNow.Firestore.TableScan

/-!
# `LevelDbMutationQueue`: the writes that the backend has not acknowledged yet

A batch of mutations has a row in the mutations table of its user, and for each document that it
writes a row in the document mutations table, by which the batches of a document are found.

## Main definitions

- `Message`, what the values of rows are parsed to: that parsing gives back what was written is
  taken for granted, and so is that the database reports no error
- `LevelDbPersistence`, the tables in a transaction with what its delegates keep in memory
- `LevelDbMutationQueue` and its operations
-/

namespace GasNow

namespace LevelDb

open OrderedCode Stores

variable {μ : Type}

/-- A document that the backend has sent or confirmed, or what is known of it. -/
structure MaybeDocument where
  key : DocumentKey
  version : SnapshotVersion
  contents : List Byte
  deriving DecidableEq

/-- What is to be done to one document; the document has a name. -/
structure Mutation (μ : Type) where
  key : DocumentKey
  content : μ
  named : key.path ≠ []

structure MutationBatch (μ : Type) where
  batch_id : Int32
  local_write_time : Timestamp
  base_mutations : List (Mutation μ)
  mutations : List (Mutation μ)
  nonempty : mutations ≠ []

def MutationBatch.create (batch_id : Int32) (local_write_time : Timestamp)
    (base_mutations mutations : List (Mutation μ)) : Except Trap (MutationBatch μ) :=
  if h : mutations = [] then .error .hardAssert
  else .ok ⟨batch_id, local_write_time, base_mutations, mutations, h⟩

theorem MutationBatch.batch_id_of_create {batch_id : Int32} {local_write_time : Timestamp}
    {base_mutations mutations : List (Mutation μ)} {batch : MutationBatch μ}
    (h : create batch_id local_write_time base_mutations mutations = .ok batch) :
    batch.batch_id = batch_id := by
  unfold create at h
  split at h
  · cases h
  · cases h
    rfl

inductive Message (μ : Type) where
  | writeBatch (batch : MutationBatch μ)
  | mutationQueue (last_stream_token : List Byte)
  | empty
  | sequenceNumber (sequence_number : Int64)
  | remoteDocument (document : MaybeDocument)
  /-- A message that no function here reads. -/
  | other (bytes : List Byte)

def Message.batch? : Message μ → Option (MutationBatch μ)
  | writeBatch batch => some batch
  | _ => none

abbrev Transaction (μ : Type) := LevelDbTransaction (Message μ)

/-- `n++`; signed overflow is undefined, and no run continues behind it here. -/
def increment (n : Int32) : Except Trap Int32 :=
  if n = Int32.maxValue then .error .overflow else .ok (n + 1)

/-- `std::set<BatchId>` -/
abbrev BatchIds := SortedMap Int32 Unit

abbrev DocumentKeySet := SortedMap DocumentKey Unit

def MutationBatch.keys (batch : MutationBatch μ) : DocumentKeySet :=
  batch.mutations.foldl (fun set mutation => set.insert mutation.key ()) .empty

/-- `kBatchIdUnknown` -/
def kBatchIdUnknown : Int32 := -1

/-- What the mutation queue looks at of a query. -/
structure Query where
  path : ResourcePath
  /-- The id of the collections, if they may have any parent. -/
  collection_group : Option (List Byte)
  /-- The canonical ids of the filters. -/
  filters : List (List Byte)

namespace Query

def isDocumentQuery (query : Query) : Bool :=
  isDocumentKey query.path && query.collection_group.isNone && query.filters.isEmpty

def isCollectionGroupQuery (query : Query) : Bool := query.collection_group.isSome

end Query

theorem increment_le_iff {n n' m : Int32} (h : increment n = .ok n') : n' ≤ m ↔ n < m := by
  unfold increment at h
  split at h
  · cases h
  · next hmax =>
    cases h
    have hne : n.toInt ≠ 2147483647 := fun heq => hmax (Int32.toInt_inj.mp heq)
    have hle := n.toInt_lt
    rw [Int32.le_iff_toInt_le, Int32.lt_iff_toInt_lt, toInt_add_one (by omega)]
    omega

section Paths

def ResourcePath.popLast (path : ResourcePath) : Except Trap ResourcePath := do
  hardAssert (path ≠ [])
  return path.dropLast

def ResourcePath.lastSegment (path : ResourcePath) : Except Trap (List Byte) := do
  hardAssert (path ≠ [])
  unwrap path.getLast?

variable {path : ResourcePath}

theorem ResourcePath.popLast_eq (h : path ≠ []) :
    ResourcePath.popLast path = .ok path.dropLast := by
  rw [ResourcePath.popLast, decide_eq_true h]
  rfl

theorem ResourcePath.lastSegment_eq (h : path ≠ []) :
    ResourcePath.lastSegment path = .ok (path.getLast h) := by
  rw [ResourcePath.lastSegment, decide_eq_true h, List.getLast?_eq_some_getLast h]
  rfl

/-- The collection of a document. -/
theorem DocumentKey.odd_dropLast (key : DocumentKey) (h : key.path ≠ []) :
    key.path.dropLast.length % 2 = 1 := by
  have heven : key.path.length % 2 = 0 := of_decide_eq_true key.even
  have hpos := List.length_pos_iff.mpr h
  rw [List.length_dropLast]
  omega

end Paths

/-- The database in a transaction, with what is kept in memory of it. -/
structure LevelDbPersistence (μ : Type) where
  transaction : Transaction μ
  /-- The ids of collections, each with the paths of which it is known to be below. -/
  collection_parents_cache : List (List Byte × ResourcePath)
  current_sequence_number : Int64

namespace LevelDbPersistence

def put (db : LevelDbPersistence μ) (key : Key) (value : Message μ) : LevelDbPersistence μ :=
  { db with transaction := db.transaction.put key value }

def delete (db : LevelDbPersistence μ) (key : Key) : LevelDbPersistence μ :=
  { db with transaction := db.transaction.delete key }

/-- `LevelDbIndexManager::AddToCollectionParentIndex`, with the cache's `Add`. -/
def addToCollectionParentIndex (db : LevelDbPersistence μ) (collection_path : ResourcePath) :
    Except Trap (LevelDbPersistence μ) := do
  hardAssert (collection_path.length % 2 = 1)
  let collection_id ← ResourcePath.lastSegment collection_path
  let parent_path ← ResourcePath.popLast collection_path
  if (collection_id, parent_path) ∈ db.collection_parents_cache then return db
  else
    let db := { db with
      collection_parents_cache := (collection_id, parent_path) :: db.collection_parents_cache }
    let key ← LevelDbCollectionParentKey.key ⟨collection_id, parent_path⟩
    return db.put key .empty

/-- `LevelDbLruReferenceDelegate::WriteSentinel`; no target has the number 0. -/
def writeSentinel (db : LevelDbPersistence μ) (key : DocumentKey) :
    Except Trap (LevelDbPersistence μ) := do
  let sentinel_key ← LevelDbDocumentTargetKey.key ⟨key, 0⟩
  return db.put sentinel_key (.sequenceNumber db.current_sequence_number)

def removeMutationReference (db : LevelDbPersistence μ) (key : DocumentKey) :
    Except Trap (LevelDbPersistence μ) :=
  db.writeSentinel key

end LevelDbPersistence

structure LevelDbMutationQueue where
  user_id : List Byte
  next_batch_id : Int32
  last_stream_token : List Byte

namespace LevelDbMutationQueue

variable (queue : LevelDbMutationQueue)

def mutationQueueKey : Except Trap Key := LevelDbMutationQueueKey.key ⟨queue.user_id⟩

def mutationBatchKey (batch_id : Int32) : Except Trap Key :=
  LevelDbMutationKey.key ⟨queue.user_id, batch_id⟩

def parseMutationBatch (encoded : Message μ) : Except Trap (MutationBatch μ) :=
  match encoded.batch? with
  | some batch => .ok batch
  | none => .error .hardAssert

/-- The last stream token of the metadata that is stored under a key, if there is any. -/
def metadataForKey (txn : Transaction μ) (key : Key) : Except Trap (List Byte) :=
  match txn.get key with
  | none => .ok []
  | some (.mutationQueue last_stream_token) => .ok last_stream_token
  | some _ => .error .hardAssert

def isEmpty (txn : Transaction μ) : Except Trap Bool := do
  let user_key ← LevelDbMutationKey.userKeyPrefix queue.user_id
  let it ← (LevelDbTransaction.Iterator.create txn).seek txn user_key
  if it.is_valid then return !user_key.isPrefixOf (← it.currentKey)
  else return true

def setLastStreamToken (db : LevelDbPersistence μ) (stream_token : List Byte) :
    Except Trap (LevelDbMutationQueue × LevelDbPersistence μ) := do
  let key ← queue.mutationQueueKey
  let db := db.put key (.mutationQueue stream_token)
  return ({ queue with last_stream_token := stream_token }, db)

def acknowledgeBatch (db : LevelDbPersistence μ) (stream_token : List Byte) :
    Except Trap (LevelDbMutationQueue × LevelDbPersistence μ) :=
  queue.setLastStreamToken db stream_token

/-- The index row of one mutation, and the collection in which its document is. -/
def addMutation (batch_id : Int32) (db : LevelDbPersistence μ) (mutation : Mutation μ) :
    Except Trap (LevelDbPersistence μ) := do
  let key ← LevelDbDocumentMutationKey.key ⟨queue.user_id, mutation.key, batch_id⟩
  let db := db.put key .empty
  db.addToCollectionParentIndex (← ResourcePath.popLast mutation.key.path)

def addMutationBatch (db : LevelDbPersistence μ) (local_write_time : Timestamp)
    (base_mutations mutations : List (Mutation μ)) :
    Except Trap (MutationBatch μ × LevelDbMutationQueue × LevelDbPersistence μ) := do
  let batch_id := queue.next_batch_id
  let next_batch_id ← increment queue.next_batch_id
  let batch ← MutationBatch.create batch_id local_write_time base_mutations mutations
  let key ← queue.mutationBatchKey batch_id
  let db := db.put key (.writeBatch batch)
  let db ← batch.mutations.foldlM (queue.addMutation batch_id) db
  return (batch, { queue with next_batch_id }, db)

def removeMutation (batch_id : Int32) (db : LevelDbPersistence μ) (mutation : Mutation μ) :
    Except Trap (LevelDbPersistence μ) := do
  let key ← LevelDbDocumentMutationKey.key ⟨queue.user_id, mutation.key, batch_id⟩
  (db.delete key).removeMutationReference mutation.key

def removeMutationBatch (db : LevelDbPersistence μ) (batch : MutationBatch μ) :
    Except Trap (LevelDbPersistence μ) := do
  let key ← queue.mutationBatchKey batch.batch_id
  -- As a sanity check, verify that the mutation batch exists before deleting it.
  let check_iterator ← (LevelDbTransaction.Iterator.create db.transaction).seek db.transaction key
  hardAssert check_iterator.is_valid
  hardAssert (decide (key = (← check_iterator.currentKey)))
  batch.mutations.foldlM (queue.removeMutation batch.batch_id) (db.delete key)

def collectBatch (user_key : Key) (row : Key × Message μ) (result : List (MutationBatch μ)) :
    Except Trap (ForInStep (List (MutationBatch μ))) :=
  if user_key.isPrefixOf row.1 then do return .yield (result ++ [← parseMutationBatch row.2])
  else .ok (.done result)

def allMutationBatches (txn : Transaction μ) : Except Trap (List (MutationBatch μ)) := do
  let user_key ← LevelDbMutationKey.userKeyPrefix queue.user_id
  let (_, result) ← (LevelDbTransaction.Iterator.create txn).scan txn user_key []
    (collectBatch user_key)
  return result

def pushBatch (txn : Transaction μ) (mutation_iterator : LevelDbTransaction.Iterator (Message μ))
    (result : List (MutationBatch μ)) (batch_id : Int32) :
    Except Trap (LevelDbTransaction.Iterator (Message μ) × List (MutationBatch μ)) := do
  let mutation_key ← queue.mutationBatchKey batch_id
  let mutation_iterator ← mutation_iterator.seek txn mutation_key
  hardAssert mutation_iterator.is_valid
  let row ← unwrap mutation_iterator.current
  -- Otherwise a dangling document-mutation reference was found.
  hardAssert (decide (row.1 = mutation_key))
  return (mutation_iterator, result ++ [← parseMutationBatch row.2])

/-- A skipping scan over the main table for the batches with the given ids. -/
def allMutationBatchesWithIds (txn : Transaction μ) (batch_ids : BatchIds) :
    Except Trap (List (MutationBatch μ)) := do
  let (_, result) ← batch_ids.entries.foldlM (fun p entry => queue.pushBatch txn p.1 p.2 entry.1)
    (LevelDbTransaction.Iterator.create txn, [])
  return result

/-- Only rows that match exactly the document are considered, which are next to each other. -/
def collectDocument (indexPrefix : Key) (document_key : DocumentKey) (row : Key × Message μ)
    (batch_ids : BatchIds) : Except Trap (ForInStep BatchIds) :=
  if indexPrefix.isPrefixOf row.1 then do
    match ← LevelDbDocumentMutationKey.decode row.1 with
    | none => return .done batch_ids
    | some row_key =>
      if row_key.document_key = document_key then
        return .yield (batch_ids.insert row_key.batch_id ())
      else return .done batch_ids
  else .ok (.done batch_ids)

def collectDocuments (txn : Transaction μ)
    (index_iterator : LevelDbTransaction.Iterator (Message μ)) (batch_ids : BatchIds)
    (document_key : DocumentKey) :
    Except Trap (LevelDbTransaction.Iterator (Message μ) × BatchIds) := do
  let index_prefix ← LevelDbDocumentMutationKey.pathKeyPrefix queue.user_id document_key.path
  index_iterator.scan txn index_prefix batch_ids (collectDocument index_prefix document_key)

def allMutationBatchesAffectingDocumentKeys (txn : Transaction μ)
    (document_keys : List DocumentKey) : Except Trap (List (MutationBatch μ)) := do
  let (_, batch_ids) ← document_keys.foldlM (fun p document_key =>
      queue.collectDocuments txn p.1 p.2 document_key)
    (LevelDbTransaction.Iterator.create txn, SortedMap.empty)
  queue.allMutationBatchesWithIds txn batch_ids

/-- Rows of documents that are more than one segment below the query path cannot be matches. -/
def collectChildren (indexPrefix : Key) (immediate_children_path_length : Nat)
    (row : Key × Message μ) (batch_ids : BatchIds) : Except Trap (ForInStep BatchIds) :=
  if indexPrefix.isPrefixOf row.1 then do
    match ← LevelDbDocumentMutationKey.decode row.1 with
    | none => return .done batch_ids
    | some row_key =>
      if row_key.document_key.path.length ≠ immediate_children_path_length then
        return .yield batch_ids
      else return .yield (batch_ids.insert row_key.batch_id ())
  else .ok (.done batch_ids)

/-- The batches that write documents of a collection. -/
def allMutationBatchesAffectingQuery (txn : Transaction μ) (query : Query) :
    Except Trap (List (MutationBatch μ)) := do
  -- Document queries shouldn't go down this path, and collection group queries should be handled
  -- in the view of the local documents.
  hardAssert (!query.isDocumentQuery)
  hardAssert (!query.isCollectionGroupQuery)
  let query_path := query.path
  let index_prefix ← LevelDbDocumentMutationKey.pathKeyPrefix queue.user_id query_path
  let (_, unique_batch_ids) ← (LevelDbTransaction.Iterator.create txn).scan txn index_prefix
    SortedMap.empty (collectChildren index_prefix (query_path.length + 1))
  queue.allMutationBatchesWithIds txn unique_batch_ids

def lookupMutationBatch (txn : Transaction μ) (batch_id : Int32) :
    Except Trap (Option (MutationBatch μ)) := do
  let key ← queue.mutationBatchKey batch_id
  match txn.get key with
  | none => return none
  | some value => return some (← parseMutationBatch value)

def nextMutationBatchAfterBatchId (txn : Transaction μ) (batch_id : Int32) :
    Except Trap (Option (MutationBatch μ)) := do
  let next_batch_id ← increment batch_id
  let key ← queue.mutationBatchKey next_batch_id
  let it ← (LevelDbTransaction.Iterator.create txn).seek txn key
  if it.is_valid then do
    let row ← unwrap it.current
    match ← LevelDbMutationKey.decode row.1 with
    -- Out of the mutations table
    | none => return none
    | some row_key =>
      if row_key.user_id ≠ queue.user_id then
        -- Jumped past the last mutation for this user
        return none
      else do
        hardAssert (decide (next_batch_id ≤ row_key.batch_id))
        return some (← parseMutationBatch row.2)
  -- Past the last row in the DB
  else return none

/-- Reads the database itself, where an iterator past the last row cannot be moved back. -/
def getHighestUnacknowledgedBatchId (db : SortedMap Key (Message μ)) : Except Trap Int32 := do
  let next_user_key := prefixSuccessor (← LevelDbMutationKey.userKeyPrefix queue.user_id)
  match db.lowerBound next_user_key with
  | none => .error .hardAssert
  | some row =>
    match db.last fun key => key < row.1 with
    | none => return kBatchIdUnknown
    | some it =>
      match ← LevelDbMutationKey.decode it.1 with
      | none => return kBatchIdUnknown
      | some row_key =>
        if row_key.user_id = queue.user_id then return row_key.batch_id
        else return kBatchIdUnknown

def collectKey (indexPrefix : Key) (row : Key × Message μ) (keys : List Key) :
    Except Trap (ForInStep (List Key)) :=
  if indexPrefix.isPrefixOf row.1 then .ok (.yield (keys ++ [row.1])) else .ok (.done keys)

/-- There are no entries in the document mutation index if the queue is empty. -/
def performConsistencyCheck (txn : Transaction μ) : Except Trap Unit := do
  if ← queue.isEmpty txn then
    let index_prefix ← LevelDbDocumentMutationKey.userKeyPrefix queue.user_id
    let (_, dangling_mutation_references) ←
      (LevelDbTransaction.Iterator.create txn).scan txn index_prefix [] (collectKey index_prefix)
    hardAssert (decide (dangling_mutation_references = []))

/-- Where the rows behind a user's mutations start: the next user, if there is one, and the row in
front of that place. -/
def boundary (db : SortedMap Key (Message μ)) (user_end : Key) :
    Except Trap (Option (List Byte) × Option (Key × Message μ)) :=
  match db.lowerBound user_end with
  -- The iterator is past the last row altogether, and seeks to the last one.
  | none => .ok (none, db.last fun _ => true)
  | some row => do
    let it := db.last fun key => key < row.1
    match ← LevelDbMutationKey.decode row.1 with
    | some row_key => return (some row_key.user_id, it)
    -- The iterator is past the end of the mutations table but there are other rows.
    | none => return (none, it)

/-- The loop over the users; no user comes twice, so that there is always fuel left. -/
def loadMaxBatchId (db : SortedMap Key (Message μ)) :
    Nat → List Byte → Int32 → Except Trap Int32
  | 0, _, _ => .error .hardAssert
  | fuel + 1, next_user_id, max_batch_id => do
    let user_end := prefixSuccessor (← LevelDbMutationKey.userKeyPrefix next_user_id)
    let (more_user_ids, it) ← boundary db user_end
    let row ← unwrap it
    match ← LevelDbMutationKey.decode row.1 with
    | none => .error .hardAssert
    | some row_key =>
      let max_batch_id :=
        if max_batch_id < row_key.batch_id then row_key.batch_id else max_batch_id
      match more_user_ids with
      | none => return max_batch_id
      | some next_user_id => loadMaxBatchId db fuel next_user_id max_batch_id

/-- One more than the largest id of all users' batches. -/
def loadNextBatchIdFromDb (db : SortedMap Key (Message μ)) : Except Trap Int32 := do
  let table_key ← LevelDbMutationKey.keyPrefix
  match db.lowerBound table_key with
  | none => increment 0
  | some row =>
    match ← LevelDbMutationKey.decode row.1 with
    | none => increment 0
    | some row_key =>
      increment (← loadMaxBatchId db (db.entries.length + 1) row_key.user_id 0)

/-- The new queue of a user after `Start`, which reads the ids in the database itself. -/
def start (user_id : List Byte) (db : SortedMap Key (Message μ)) (txn : Transaction μ) :
    Except Trap LevelDbMutationQueue := do
  let next_batch_id ← loadNextBatchIdFromDb db
  let last_stream_token ← metadataForKey txn (← LevelDbMutationQueueKey.key ⟨user_id⟩)
  return { user_id, next_batch_id, last_stream_token }

end LevelDbMutationQueue

end LevelDb

end GasNow
