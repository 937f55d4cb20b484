import GasNow.Firestore.MutationWrites
import GasNow.Machine.Runs

/-!
# The remote documents

A batch that the backend has committed changes the documents that it writes in the cache of remote
documents, as long as these are not known there in later versions.

## Main definitions

- `CommittedMutation`, what a mutation that the backend has committed makes of a document
- `MutationBatchResult`, a batch with what the backend says of each of its mutations
- `LevelDbRemoteDocumentCache`, the table of remote documents
- `Documents.commit`, what a batch makes of a document in a plain map
-/

namespace GasNow

namespace LevelDb

open Machine OrderedCode Stores

variable {μ : Type}

structure MutationResult where
  version : SnapshotVersion
  /-- The values that the backend has given to the fields which a transform changes. -/
  transform_results : Option (List (List Byte))

/-- What a mutation that the backend has committed makes of a document, or of none. Mutations have
checks of their own, by which they may abort; none changes the document's key. -/
class CommittedMutation (μ : Type) where
  applyToRemoteDocument : Mutation μ → Option MaybeDocument → MutationResult →
    Except Trap MaybeDocument
  key_of_eq_ok : ∀ {mutation maybe_doc mutation_result doc},
    applyToRemoteDocument mutation maybe_doc mutation_result = .ok doc → doc.key = mutation.key

/-- A batch with the results of its mutations, one for each. -/
structure MutationBatchResult (μ : Type) where
  batch : MutationBatch μ
  commit_version : SnapshotVersion
  mutation_results : List MutationResult
  stream_token : List Byte
  sized : batch.mutations.length = mutation_results.length

namespace MutationBatchResult

variable (batch_result : MutationBatchResult μ) (doc_key : DocumentKey)

/-- `std::unordered_map<DocumentKey, SnapshotVersion>`, which the constructor fills. -/
def doc_versions : SortedMap DocumentKey SnapshotVersion :=
  (batch_result.batch.mutations.zip batch_result.mutation_results).foldl
    (fun doc_versions p => doc_versions.insert p.1.key p.2.version) .empty

/-- The mutations of one document, each with its result. -/
def writes : List (Mutation μ × MutationResult) :=
  (batch_result.batch.mutations.zip batch_result.mutation_results).filter fun p =>
    p.1.key = doc_key

/-- The document is not known in a version as late as the one after the batch. -/
def isNews (doc : Option MaybeDocument) : Bool :=
  doc.all fun doc => (batch_result.writes doc_key).getLast?.any fun p => doc.version < p.2.version

end MutationBatchResult

namespace LevelDbRemoteDocumentCache

def decodeMaybeDocument (encoded : Message μ) (key : DocumentKey) : Except Trap MaybeDocument :=
  match encoded with
  | .remoteDocument maybe_document => do
    hardAssert (decide (maybe_document.key = key))
    return maybe_document
  | _ => .error .hardAssert

def get (txn : Transaction μ) (key : DocumentKey) : Except Trap (Option MaybeDocument) := do
  let ldb_key ← LevelDbRemoteDocumentKey.key ⟨key⟩
  match txn.get ldb_key with
  | none => return none
  | some value => return some (← decodeMaybeDocument value key)

def add (db : LevelDbPersistence μ) (document : MaybeDocument) (read_time : SnapshotVersion) :
    Except Trap (LevelDbPersistence μ) := do
  let path := document.key.path
  let ldb_document_key ← LevelDbRemoteDocumentKey.key ⟨document.key⟩
  let db := db.put ldb_document_key (.remoteDocument document)
  let collection_path ← ResourcePath.popLast path
  let document_id ← ResourcePath.lastSegment path
  let ldb_read_time_key ←
    LevelDbRemoteDocumentReadTimeKey.key ⟨collection_path, read_time, document_id⟩
  let db := db.put ldb_read_time_key .empty
  db.addToCollectionParentIndex collection_path

end LevelDbRemoteDocumentCache

section Commit

variable [CommittedMutation μ]

open CommittedMutation

/-- One mutation with its result. -/
def applyWrite (doc : Option MaybeDocument) (p : Mutation μ × MutationResult) :
    Except Trap (Option MaybeDocument) := do
  return some (← applyToRemoteDocument p.1 doc p.2)

def MutationBatch.applyToRemoteDocument (batch : MutationBatch μ)
    (maybe_doc : Option MaybeDocument) (document_key : DocumentKey)
    (mutation_batch_result : MutationBatchResult μ) : Except Trap (Option MaybeDocument) := do
  hardAssert (maybe_doc.all fun doc => doc.key = document_key)
  let mutation_results := mutation_batch_result.mutation_results
  hardAssert (decide (mutation_results.length = batch.mutations.length))
  (batch.mutations.zip mutation_results).foldlM
    (fun maybe_doc p => if p.1.key = document_key then applyWrite maybe_doc p else return maybe_doc)
    maybe_doc

/-- The body of the loop of `ApplyBatchResult` over the documents of the batch. -/
def LevelDbPersistence.applyToDocument (batch_result : MutationBatchResult μ)
    (db : LevelDbPersistence μ) (doc_key : DocumentKey) : Except Trap (LevelDbPersistence μ) := do
  let remote_doc ← LevelDbRemoteDocumentCache.get db.transaction doc_key
  match batch_result.doc_versions.get doc_key with
  -- The versions should contain every document in the write.
  | none => .error .hardAssert
  | some ack_version =>
    if remote_doc.all fun doc => doc.version < ack_version then do
      match ← batch_result.batch.applyToRemoteDocument remote_doc doc_key batch_result with
      | none =>
        hardAssert remote_doc.isNone
        return db
      | some doc => LevelDbRemoteDocumentCache.add db doc batch_result.commit_version
    else return db

/-- What the mutations of a document make of it, one after another. -/
def MutationBatchResult.committed (batch_result : MutationBatchResult μ) (doc_key : DocumentKey)
    (doc : Option MaybeDocument) : Except Trap (Option MaybeDocument) :=
  (batch_result.writes doc_key).foldlM applyWrite doc

/-- A document becomes what the batch makes of it, unless it is known in a later version. -/
def Documents.commit (batch_result : MutationBatchResult μ) (documents : Documents)
    (doc_key : DocumentKey) : Except Trap Documents := do
  let doc := documents.get doc_key
  if batch_result.isNews doc_key doc then
    return (← batch_result.committed doc_key doc).elim documents (documents.insert doc_key)
  else return documents

variable {batch_result : MutationBatchResult μ} {doc_key : DocumentKey} {batches : Batches μ}
  {tokens : Tokens} {documents : Documents} {indexed : LevelDbDocumentMutationKey → Prop}
  {db : LevelDbPersistence μ}

theorem foldlM_filter {β γ : Type} (p : β → Prop) [DecidablePred p] (f : γ → β → Except Trap γ)
    (l : List β) (c : γ) :
    l.foldlM (fun c b => if p b then f c b else return c) c =
      (l.filter fun b => p b).foldlM f c := by
  induction l generalizing c with
  | nil => rfl
  | cons b l ih =>
    rw [List.foldlM_cons, List.filter_cons]
    by_cases hp : p b
    · rw [if_pos hp, if_pos (decide_eq_true hp), List.foldlM_cons]
      exact congrArg _ (funext ih)
    · rw [if_neg hp, if_neg (by simpa using hp)]
      exact ih c

omit [CommittedMutation μ] in
theorem get_doc_versions (batch_result : MutationBatchResult μ) (doc_key : DocumentKey) :
    batch_result.doc_versions.get doc_key =
      (batch_result.writes doc_key).getLast?.map fun p => p.2.version := by
  unfold MutationBatchResult.doc_versions MutationBatchResult.writes
  rw [SortedMap.get_foldl_insert (fun p : Mutation μ × MutationResult => p.1.key)
    fun p => p.2.version]
  exact Option.or_none

omit [CommittedMutation μ] in
theorem mem_keys {batch : MutationBatch μ} {e : DocumentKey × Unit} :
    e ∈ batch.keys.entries ↔ ∃ mutation ∈ batch.mutations, mutation.key = e.1 := by
  obtain ⟨d, u⟩ := e
  rw [SortedMap.mem_entries, MutationBatch.keys,
    SortedMap.get_foldl_insert (fun mutation : Mutation μ => mutation.key) fun _ => ()]
  show Option.or _ none = _ ↔ _
  rw [Option.or_none, Option.map_eq_some_iff]
  constructor
  · rintro ⟨mutation, hlast, -⟩
    obtain ⟨hmem, hkey⟩ := List.mem_filter.mp (List.mem_of_getLast? hlast)
    exact ⟨mutation, hmem, of_decide_eq_true hkey⟩
  · rintro ⟨mutation, hmem, hkey⟩
    have hne : (batch.mutations.filter fun mutation => mutation.key = d) ≠ [] :=
      List.ne_nil_of_mem (List.mem_filter.mpr ⟨hmem, decide_eq_true hkey⟩)
    exact ⟨_, List.getLast?_eq_some_getLast hne, rfl⟩

omit [CommittedMutation μ] in
/-- Every mutation of the batch has its result. -/
theorem writes_ne_nil (h : ∃ mutation ∈ batch_result.batch.mutations, mutation.key = doc_key) :
    batch_result.writes doc_key ≠ [] := by
  obtain ⟨mutation, hmem, hkey⟩ := h
  obtain ⟨i, hi, hget⟩ := List.mem_iff_getElem.mp hmem
  have hi' : i < batch_result.mutation_results.length := batch_result.sized ▸ hi
  have hpair : (mutation, batch_result.mutation_results[i]) ∈
      batch_result.batch.mutations.zip batch_result.mutation_results := by
    rw [List.mem_iff_getElem]
    refine ⟨i, by simp [hi, hi'], ?_⟩
    rw [List.getElem_zip, hget]
  exact List.ne_nil_of_mem (List.mem_filter.mpr ⟨hpair, decide_eq_true hkey⟩)

/-- After a mutation there is a document, which has the key of the mutation. -/
theorem key_of_foldlM_applyWrite {l : List (Mutation μ × MutationResult)}
    (hl : ∀ p ∈ l, p.1.key = doc_key) {doc o : Option MaybeDocument} (hne : l ≠ [] ∨ doc.isSome)
    (hdoc : ∀ d ∈ doc, d.key = doc_key) (h : l.foldlM applyWrite doc = .ok o) :
    ∃ d, o = some d ∧ d.key = doc_key := by
  induction l generalizing doc with
  | nil =>
    cases h
    obtain ⟨d, rfl⟩ := Option.isSome_iff_exists.mp (hne.resolve_left fun hnil => hnil rfl)
    exact ⟨d, rfl, hdoc d rfl⟩
  | cons p l ih =>
    rw [List.foldlM_cons, applyWrite] at h
    cases happly : CommittedMutation.applyToRemoteDocument p.1 doc p.2 with
    | error trap =>
      rw [happly] at h
      cases h
    | ok d =>
      rw [happly] at h
      refine ih (fun p' hp' => hl p' (List.mem_cons_of_mem p hp')) (.inr rfl) ?_ h
      intro d' hd'
      cases hd'
      exact (key_of_eq_ok happly).trans (hl p List.mem_cons_self)

theorem key_of_committed (hne : batch_result.writes doc_key ≠ []) {doc o : Option MaybeDocument}
    (hdoc : ∀ d ∈ doc, d.key = doc_key) (h : batch_result.committed doc_key doc = .ok o) :
    ∃ d, o = some d ∧ d.key = doc_key :=
  key_of_foldlM_applyWrite (fun _ hp => of_decide_eq_true (List.mem_filter.mp hp).2) (.inl hne)
    hdoc h

theorem applyToRemoteDocument_eq {doc : Option MaybeDocument} (hdoc : ∀ d ∈ doc, d.key = doc_key) :
    batch_result.batch.applyToRemoteDocument doc doc_key batch_result =
      batch_result.committed doc_key doc := by
  have hkey : (doc.all fun d => d.key = doc_key) = true := by
    cases doc with
    | none => rfl
    | some d => exact decide_eq_true (hdoc d rfl)
  unfold MutationBatch.applyToRemoteDocument
  dsimp only
  rw [hkey, decide_eq_true batch_result.sized.symm]
  exact foldlM_filter (fun p : Mutation μ × MutationResult => p.1.key = doc_key) applyWrite _ doc

omit [CommittedMutation μ] in
theorem LevelDbRemoteDocumentCache.get_eq
    (h : Holds db.transaction.commit batches tokens documents indexed) (doc_key : DocumentKey) :
    LevelDbRemoteDocumentCache.get db.transaction doc_key = .ok (documents.get doc_key) := by
  unfold LevelDbRemoteDocumentCache.get
  simp only [remoteDocumentKey_eq, Bind.bind, Except.bind]
  rw [← LevelDbTransaction.get_commit, h.document]
  cases hget : documents.get doc_key with
  | none => rfl
  | some doc =>
    dsimp only [Option.map_some, decodeMaybeDocument]
    rw [decide_eq_true (h.document_key _ _ hget)]
    rfl

omit [CommittedMutation μ] in
theorem LevelDbRemoteDocumentCache.exists_add
    (h : Holds db.transaction.commit batches tokens documents indexed) {doc : MaybeDocument}
    (hnamed : doc.key.path ≠ []) (read_time : SnapshotVersion) :
    ∃ db', LevelDbRemoteDocumentCache.add db doc read_time = .ok db' ∧
      Holds db'.transaction.commit batches tokens (documents.insert doc.key doc) indexed := by
  have hpop := ResourcePath.popLast_eq hnamed
  have hlast := ResourcePath.lastSegment_eq hnamed
  have htime : LevelDbRemoteDocumentReadTimeKey.key
      ⟨doc.key.path.dropLast, read_time, doc.key.path.getLast hnamed⟩ = .ok (tablePrefix _ ++ _) :=
    LevelDbRemoteDocumentReadTimeKey.keyClass.key_eq _
  have hodd := doc.key.odd_dropLast hnamed
  have hput := h.insert_document doc
  rw [← commit_persistence_put] at hput
  have hread := hput.insert_other
    (LevelDbRemoteDocumentReadTimeKey.keyClass.columns
      ⟨doc.key.path.dropLast, read_time, doc.key.path.getLast hnamed⟩)
    (show kRemoteDocumentReadTimeTable ≠ _ by decide) (by decide) (by decide) (by decide) .empty
  rw [← commit_persistence_put] at hread
  obtain ⟨db', hparents, hholds⟩ := exists_addToCollectionParentIndex hread hodd
  refine ⟨db', ?_, hholds⟩
  simp only [LevelDbRemoteDocumentCache.add, remoteDocumentKey_eq, hpop, hlast, htime, Bind.bind, Except.bind]
  exact hparents

/-- One document of a batch, in the table and in the plain map. -/
theorem related_applyToDocument
    (h : Holds db.transaction.commit batches tokens documents indexed)
    (hkey : ∃ mutation ∈ batch_result.batch.mutations, mutation.key = doc_key) :
    (Outcome.ofExcept (db.applyToDocument batch_result doc_key)).Related
      (fun db documents => Holds db.transaction.commit batches tokens documents indexed)
      (.ofExcept (documents.commit batch_result doc_key)) := by
  have hne := writes_ne_nil hkey
  have hget := LevelDbRemoteDocumentCache.get_eq h doc_key
  have hdoc : ∀ d ∈ documents.get doc_key, d.key = doc_key := fun d hd => h.document_key _ _ hd
  have hversions := get_doc_versions batch_result doc_key
  rw [List.getLast?_eq_some_getLast hne] at hversions
  have hnews : batch_result.isNews doc_key (documents.get doc_key) =
      (documents.get doc_key).all fun doc =>
        doc.version < ((batch_result.writes doc_key).getLast hne).2.version := by
    unfold MutationBatchResult.isNews
    rw [List.getLast?_eq_some_getLast hne]
    rfl
  simp only [LevelDbPersistence.applyToDocument, Documents.commit, hget, hversions, hnews,
    Option.map_some, applyToRemoteDocument_eq hdoc, Bind.bind, Except.bind]
  split
  · cases hcommitted : batch_result.committed doc_key (documents.get doc_key) with
    | error trap => exact .trap trap
    | ok o =>
      obtain ⟨doc, rfl, rfl⟩ := key_of_committed hne hdoc hcommitted
      obtain ⟨mutation, -, hmutation⟩ := hkey
      obtain ⟨db', hadd, hholds⟩ := LevelDbRemoteDocumentCache.exists_add h
        (hmutation ▸ mutation.named) batch_result.commit_version
      dsimp only
      rw [hadd]
      exact .next hholds
  · exact .next h

/-- All documents of a batch, in the order of their keys. -/
theorem related_documents (batch_result : MutationBatchResult μ)
    (h : Holds db.transaction.commit batches tokens documents indexed) :
    (Outcome.ofExcept (batch_result.batch.keys.entries.foldlM
        (fun db entry => db.applyToDocument batch_result entry.1) db)).Related
      (fun db documents => Holds db.transaction.commit batches tokens documents indexed)
      (.ofExcept (batch_result.batch.keys.entries.foldlM
        (fun documents entry => Documents.commit batch_result documents entry.1) documents)) := by
  refine related_foldlM ?_ ?_
  · intro db documents h entry hentry
    exact related_applyToDocument h (mem_keys.mp hentry)
  · exact h

end Commit

end LevelDb

end GasNow
