import GasNow.Firestore.NextBatchId
import GasNow.Firestore.RemoteDocuments

/-!
# The local store

The local store writes, acknowledges and rejects batches in transactions, and changes from user to
user. Its calls are given twice: over the tables, and over plain maps of what is in them.

The documents as they look with all pending batches are not computed here: of a call that returns
some of them, the answer has their keys only, and the base mutations of a write are given with it.

## Main definitions

- `LocalStore`, the database with the queue of the current user, and its calls
- `Pending`, the pending batches of all users with the remote documents, and the same calls on them
-/

namespace GasNow

namespace LevelDb

open Machine OrderedCode Stores

variable {μ : Type}

/-- What a call returns. -/
inductive Answer (μ : Type) where
  | batches (batches : List (MutationBatch μ))
  | batch (batch : Option (MutationBatch μ))
  | batchId (batch_id : Int32)
  | isEmpty (empty : Bool)
  | streamToken (token : List Byte)
  | document (document : Option MaybeDocument)
  /-- The keys of the documents that are returned. -/
  | changedKeys (keys : DocumentKeySet)

/-- What can be asked of the mutation queue, and of the cache of remote documents. -/
inductive Question where
  | isEmpty
  | allMutationBatches
  | allMutationBatchesAffectingDocumentKeys (document_keys : List DocumentKey)
  | allMutationBatchesAffectingQuery (query : Query)
  | lookupMutationBatch (batch_id : Int32)
  | nextMutationBatchAfterBatchId (batch_id : Int32)
  | getHighestUnacknowledgedBatchId
  | remoteDocument (key : DocumentKey)

/-- The calls of the local store that concern the mutation queue. -/
inductive StoreCall (μ : Type) where
  | handleUserChange (user_id : List Byte)
  | writeLocally (local_write_time : Timestamp) (base_mutations mutations : List (Mutation μ))
  | acknowledgeBatch (batch_result : MutationBatchResult μ)
  | rejectBatch (batch_id : Int32)
  | getLastStreamToken
  | setLastStreamToken (stream_token : List Byte)
  /-- A question in a transaction of its own. -/
  | ask (question : Question)

/-- The union of the keys of the batches. -/
def changedKeys (batches : List (MutationBatch μ)) : DocumentKeySet :=
  batches.foldl (fun changed_keys batch => batch.mutations.foldl (fun changed_keys mutation =>
    changed_keys.insert mutation.key ()) changed_keys) .empty

structure LocalStore (μ : Type) where
  db : SortedMap Key (Message μ)
  collection_parents_cache : List (List Byte × ResourcePath)
  previous_sequence_number : Int64
  mutation_queue : LevelDbMutationQueue
  /-- The answers so far, from the last one on. -/
  answers : List (Answer μ)

/-- What the migrations leave in an empty database: no targets, and the version of the schema. -/
def runMigrations : Except Trap (SortedMap Key (Message μ)) := do
  let target_global_key ← LevelDbTargetGlobalKey.key
  let version_key ← LevelDbVersionKey.key
  return (SortedMap.empty.insert target_global_key (.other [])).insert version_key
    (.other (cString "6"))

def freshDatabase : SortedMap Key (Message μ) :=
  (SortedMap.empty.insert targetGlobalKey (.other [])).insert versionKey (.other (cString "6"))

namespace LocalStore

/-- The database at the start of a transaction. -/
def begin (s : LocalStore μ) : LevelDbPersistence μ where
  transaction := LevelDbTransaction.create s.db
  collection_parents_cache := s.collection_parents_cache
  current_sequence_number := s.previous_sequence_number + 1

/-- `LevelDbPersistence::Run` -/
def run {β : Type} (s : LocalStore μ)
    (block : LevelDbPersistence μ → Except Trap (β × LevelDbPersistence μ)) :
    Except Trap (β × LocalStore μ) := do
  let (result, db) ← block s.begin
  return (result, { s with
    db := db.transaction.commit
    collection_parents_cache := db.collection_parents_cache
    previous_sequence_number := s.begin.current_sequence_number })

/-- What a block leaves: the mutation queue, what the call returns, and the database. -/
abbrev Left (μ : Type) := (LevelDbMutationQueue × Option (Answer μ)) × LevelDbPersistence μ

/-- A call that leaves the mutation queue in a new state. -/
def runQueue (s : LocalStore μ) (block : LevelDbPersistence μ → Except Trap (Left μ)) :
    Except Trap (LocalStore μ) := do
  let ((mutation_queue, returned), s) ← s.run block
  return { s with mutation_queue, answers := returned.toList ++ s.answers }

def answer (queue : LevelDbMutationQueue) (db : SortedMap Key (Message μ)) (txn : Transaction μ) :
    Question → Except Trap (Answer μ)
  | .isEmpty => return .isEmpty (← queue.isEmpty txn)
  | .allMutationBatches => return .batches (← queue.allMutationBatches txn)
  | .allMutationBatchesAffectingDocumentKeys document_keys =>
    return .batches (← queue.allMutationBatchesAffectingDocumentKeys txn document_keys)
  | .allMutationBatchesAffectingQuery query =>
    return .batches (← queue.allMutationBatchesAffectingQuery txn query)
  | .lookupMutationBatch batch_id => return .batch (← queue.lookupMutationBatch txn batch_id)
  | .nextMutationBatchAfterBatchId batch_id =>
    return .batch (← queue.nextMutationBatchAfterBatchId txn batch_id)
  | .getHighestUnacknowledgedBatchId =>
    return .batchId (← queue.getHighestUnacknowledgedBatchId db)
  | .remoteDocument key => return .document (← LevelDbRemoteDocumentCache.get txn key)

section Blocks

variable (s : LocalStore μ) (db : LevelDbPersistence μ)

def startMutationQueue (user_id : List Byte) : Except Trap (Left μ) := do
  return ((← LevelDbMutationQueue.start user_id s.db db.transaction, none), db)

def oldBatches : Except Trap (List (MutationBatch μ) × LevelDbPersistence μ) := do
  return (← s.mutation_queue.allMutationBatches db.transaction, db)

def newBatches (old_batches : List (MutationBatch μ)) : Except Trap (Left μ) := do
  let new_batches ← s.mutation_queue.allMutationBatches db.transaction
  return ((s.mutation_queue, some (.changedKeys (changedKeys (old_batches ++ new_batches)))), db)

def addBatch (local_write_time : Timestamp) (base_mutations mutations : List (Mutation μ)) :
    Except Trap (Left μ) := do
  let (batch, queue, db) ←
    s.mutation_queue.addMutationBatch db local_write_time base_mutations mutations
  return ((queue, some (.batchId batch.batch_id)), db)

def applyBatchResult [CommittedMutation μ] (queue : LevelDbMutationQueue)
    (batch_result : MutationBatchResult μ) : Except Trap (LevelDbPersistence μ) := do
  let doc_keys := batch_result.batch.keys.entries
  let db ← doc_keys.foldlM (fun db entry => db.applyToDocument batch_result entry.1) db
  queue.removeMutationBatch db batch_result.batch

def acknowledge [CommittedMutation μ] (batch_result : MutationBatchResult μ) :
    Except Trap (Left μ) := do
  let (queue, db) ← s.mutation_queue.acknowledgeBatch db batch_result.stream_token
  let db ← applyBatchResult db queue batch_result
  queue.performConsistencyCheck db.transaction
  return ((queue, some (.changedKeys batch_result.batch.keys)), db)

def reject (batch_id : Int32) : Except Trap (Left μ) := do
  let to_reject ← s.mutation_queue.lookupMutationBatch db.transaction batch_id
  hardAssert to_reject.isSome
  let batch ← unwrap to_reject
  let db ← s.mutation_queue.removeMutationBatch db batch
  s.mutation_queue.performConsistencyCheck db.transaction
  return ((s.mutation_queue, some (.changedKeys batch.keys)), db)

def setToken (stream_token : List Byte) : Except Trap (Left μ) := do
  let (queue, db) ← s.mutation_queue.setLastStreamToken db stream_token
  return ((queue, none), db)

def askQuestion (question : Question) : Except Trap (Left μ) := do
  return ((s.mutation_queue, some (← answer s.mutation_queue s.db db.transaction question)), db)

end Blocks

def handleUserChange (s : LocalStore μ) (user_id : List Byte) : Except Trap (LocalStore μ) := do
  let (old_batches, s) ← s.run fun db => s.oldBatches db
  let s ← s.runQueue fun db => s.startMutationQueue db user_id
  s.runQueue fun db => s.newBatches db old_batches

def call [CommittedMutation μ] (s : LocalStore μ) : StoreCall μ → Except Trap (LocalStore μ)
  | .handleUserChange user_id => s.handleUserChange user_id
  | .writeLocally local_write_time base_mutations mutations =>
    s.runQueue fun db => s.addBatch db local_write_time base_mutations mutations
  | .acknowledgeBatch batch_result => s.runQueue fun db => s.acknowledge db batch_result
  | .rejectBatch batch_id => s.runQueue fun db => s.reject db batch_id
  | .getLastStreamToken =>
    .ok { s with answers := .streamToken s.mutation_queue.last_stream_token :: s.answers }
  | .setLastStreamToken stream_token => s.runQueue fun db => s.setToken db stream_token
  | .ask question => s.runQueue fun db => s.askQuestion db question

def step [CommittedMutation μ] (s : LocalStore μ) (call : StoreCall μ) :
    Outcome Trap (LocalStore μ) := .ofExcept (s.call call)

/-- A store with a new queue of a user. -/
def created (db : SortedMap Key (Message μ)) (user_id : List Byte) : LocalStore μ where
  db := db
  collection_parents_cache := []
  previous_sequence_number := 0
  mutation_queue := ⟨user_id, 0, []⟩
  answers := []

/-- The store after it has started its queue on a fresh database. -/
def fresh (user_id : List Byte) : LocalStore μ where
  db := freshDatabase
  collection_parents_cache := []
  previous_sequence_number := 1
  mutation_queue := ⟨user_id, 1, []⟩
  answers := []

end LocalStore

/-- The pending batches of all users and the remote documents, with the current queue. -/
structure Pending (μ : Type) where
  batches : Batches μ
  tokens : Tokens
  documents : Documents
  queue : LevelDbMutationQueue
  answers : List (Answer μ)

namespace Pending

/-- The batches of the current user, from the oldest one on. -/
def current (p : Pending μ) : List (MutationBatch μ) := p.batches.ofUser p.queue.user_id

def answer (p : Pending μ) : Question → Except Trap (Answer μ)
  | .isEmpty => .ok (.isEmpty p.current.isEmpty)
  | .allMutationBatches => .ok (.batches p.current)
  | .allMutationBatchesAffectingDocumentKeys document_keys =>
    .ok (.batches (p.current.filter fun b =>
      b.mutations.any fun mutation => mutation.key ∈ document_keys))
  | .allMutationBatchesAffectingQuery query =>
    if query.isDocumentQuery || query.isCollectionGroupQuery then .error .hardAssert
    else .ok (.batches (p.current.filter fun b => b.mutations.any fun mutation =>
      query.path.isPrefixOf mutation.key.path &&
        decide (mutation.key.path.length = query.path.length + 1)))
  | .lookupMutationBatch batch_id =>
    .ok (.batch (p.batches.get (toLex (p.queue.user_id, batch_id))))
  | .nextMutationBatchAfterBatchId batch_id => do
    let _ ← increment batch_id
    return .batch (p.current.find? fun b => batch_id < b.batch_id)
  | .getHighestUnacknowledgedBatchId =>
    .ok (.batchId ((p.current.getLast?.map fun b => b.batch_id).getD kBatchIdUnknown))
  | .remoteDocument key => .ok (.document (p.documents.get key))

def remove (p : Pending μ) (batch_id : Int32) : Pending μ :=
  { p with batches := p.batches.erase (toLex (p.queue.user_id, batch_id)) }

def setToken (p : Pending μ) (stream_token : List Byte) : Pending μ :=
  { p with
    tokens := p.tokens.insert p.queue.user_id stream_token
    queue := { p.queue with last_stream_token := stream_token } }

def returning (p : Pending μ) (answer : Answer μ) : Pending μ :=
  { p with answers := answer :: p.answers }

/-- The queue of a user starts behind the batches of all users. -/
def start (p : Pending μ) (user_id : List Byte) : Except Trap (Pending μ) := do
  let next_batch_id ← increment p.batches.maxId
  let last_stream_token := (p.tokens.get user_id).getD []
  return { p with queue := { user_id, next_batch_id, last_stream_token } }

def call [CommittedMutation μ] (p : Pending μ) : StoreCall μ → Except Trap (Pending μ)
  | .handleUserChange user_id => do
    let q ← p.start user_id
    return q.returning (.changedKeys (changedKeys (p.current ++ q.current)))
  | .writeLocally local_write_time base_mutations mutations => do
    let next_batch_id ← increment p.queue.next_batch_id
    let batch ← MutationBatch.create p.queue.next_batch_id local_write_time base_mutations mutations
    let q := { p with
      batches := p.batches.insert (toLex (p.queue.user_id, p.queue.next_batch_id)) batch
      queue := { p.queue with next_batch_id } }
    return q.returning (.batchId p.queue.next_batch_id)
  | .acknowledgeBatch batch_result => do
    let batch := batch_result.batch
    let documents ← batch.keys.entries.foldlM (fun documents entry =>
      Documents.commit batch_result documents entry.1) p.documents
    let q := { (p.setToken batch_result.stream_token).remove batch.batch_id with documents }
    return q.returning (.changedKeys batch.keys)
  | .rejectBatch batch_id =>
    match p.batches.get (toLex (p.queue.user_id, batch_id)) with
    | some batch => .ok ((p.remove batch_id).returning (.changedKeys batch.keys))
    | none => .error .hardAssert
  | .getLastStreamToken => .ok (p.returning (.streamToken p.queue.last_stream_token))
  | .setLastStreamToken stream_token => .ok (p.setToken stream_token)
  | .ask question => do return p.returning (← p.answer question)

def step [CommittedMutation μ] (p : Pending μ) (call : StoreCall μ) : Outcome Trap (Pending μ) :=
  .ofExcept (p.call call)

/-- A batch that is acknowledged is one that has been read from the queue. -/
def Allows (p : Pending μ) : StoreCall μ → Prop
  | .acknowledgeBatch batch_result =>
    p.batches.get (toLex (p.queue.user_id, batch_result.batch.batch_id)) = some batch_result.batch
  | _ => True

def fresh (user_id : List Byte) : Pending μ := ⟨.empty, .empty, .empty, ⟨user_id, 1, []⟩, []⟩

end Pending

end LevelDb

end GasNow
