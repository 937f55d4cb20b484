import GasNow.Firestore.MutationQueries

/-!
# What the mutation queue writes

Adding and removing a batch keep the tables of mutations in step with each other.
-/

namespace GasNow

namespace LevelDb

open Codes OrderedCode Stores

variable {μ : Type} {m : SortedMap Key (Message μ)} {batches : Batches μ} {tokens : Tokens}
  {documents : Documents} {indexed indexed' : LevelDbDocumentMutationKey → Prop} {u : List Byte}
  {id : Int32} {b : MutationBatch μ} {row : LevelDbDocumentMutationKey} {d : DocumentKey}

section Tables

/-- Keys of different tables. -/
theorem tablePrefix_append_ne {table table' : List Byte} (h : table ≠ table')
    (rest rest' : List Byte) : tablePrefix table ++ rest ≠ tablePrefix table' ++ rest' :=
  fun heq => h (textCode_append_inj heq).1

theorem documentMutationKey_ne : documentMutationKey row ≠ mutationKey u id :=
  tablePrefix_append_ne (by decide) _ _

theorem mutationQueueKey_ne {u' : List Byte} : mutationQueueKey u' ≠ mutationKey u id :=
  tablePrefix_append_ne (by decide) _ _

theorem mutationQueueKey_ne_document : mutationQueueKey u ≠ documentMutationKey row :=
  tablePrefix_append_ne (by decide) _ _

theorem remoteDocumentKey_ne : remoteDocumentKey d ≠ mutationKey u id :=
  tablePrefix_append_ne (by decide) _ _

theorem remoteDocumentKey_ne_document : remoteDocumentKey d ≠ documentMutationKey row :=
  tablePrefix_append_ne (by decide) _ _

theorem remoteDocumentKey_ne_queue : remoteDocumentKey d ≠ mutationQueueKey u :=
  tablePrefix_append_ne (by decide) _ _

theorem remoteDocumentKey_inj {d' : DocumentKey} :
    remoteDocumentKey d = remoteDocumentKey d' ↔ d = d' := by
  constructor
  · intro h
    have hrow := LevelDbRemoteDocumentKey.keyClass.code_injective h
    cases hrow
    rfl
  · rintro rfl
    rfl

theorem versionKey_ne : versionKey ≠ mutationKey u id :=
  tablePrefix_append_ne (by decide) _ _

theorem versionKey_ne_document : versionKey ≠ documentMutationKey row :=
  tablePrefix_append_ne (by decide) _ _

theorem isSome_insert {k k' : Key} (h : (m.get k).isSome) (v : Message μ) :
    ((m.insert k' v).get k).isSome := by
  rw [SortedMap.get_insert]
  split
  · rfl
  · exact h

theorem mutationQueueKey_inj {u' : List Byte} :
    mutationQueueKey u = mutationQueueKey u' ↔ u = u' := by
  constructor
  · intro h
    have hrow := LevelDbMutationQueueKey.keyClass.code_injective h
    cases hrow
    rfl
  · rintro rfl
    rfl

theorem documentMutationKey_inj {row' : LevelDbDocumentMutationKey} :
    documentMutationKey row = documentMutationKey row' ↔ row = row' :=
  LevelDbDocumentMutationKey.keyClass.code_injective.eq_iff

theorem properKey_mutationKey (u : List Byte) (id : Int32) : ProperKey (mutationKey u id) where
  table := ⟨_, _, rfl⟩
  mutation _ := ⟨u, id, rfl⟩
  documentMutation h := absurd (textCode_prefix_iff.mp h) (by decide)

theorem properKey_of_other {table : List Byte} (hmutations : table ≠ kMutationsTable)
    (hdocument : table ≠ kDocumentMutationsTable) (rest : List Byte) :
    ProperKey (tablePrefix table ++ rest) where
  table := ⟨table, rest, rfl⟩
  mutation h := absurd (textCode_prefix_iff.mp h).symm hmutations
  documentMutation h := absurd (textCode_prefix_iff.mp h).symm hdocument

theorem properKey_documentMutationKey (row : LevelDbDocumentMutationKey) :
    ProperKey (documentMutationKey row) where
  table := ⟨_, _, rfl⟩
  mutation h := absurd (textCode_prefix_iff.mp h) (by decide)
  documentMutation _ := ⟨row, rfl⟩

theorem proper_insert (h : ∀ k v, m.get k = some v → ProperKey k) {k' : Key} {v' : Message μ}
    (hk' : ProperKey k') : ∀ k v, (m.insert k' v').get k = some v → ProperKey k := by
  intro k v hget
  rw [SortedMap.get_insert] at hget
  split at hget
  · next hk => exact hk ▸ hk'
  · exact h k v hget

theorem proper_erase (h : ∀ k v, m.get k = some v → ProperKey k) {k' : Key} :
    ∀ k v, (m.erase k').get k = some v → ProperKey k := by
  intro k v hget
  rw [SortedMap.get_erase] at hget
  split at hget
  · cases hget
  · exact h k v hget

namespace Holds

theorem congr (h : Holds m batches tokens documents indexed)
    (hindexed : ∀ row, indexed row ↔ indexed' row) :
    Holds m batches tokens documents indexed' where
  batch := h.batch
  batch_id := h.batch_id
  index row := (h.index row).trans (hindexed row)
  token := h.token
  document := h.document
  document_key := h.document_key
  version := h.version
  proper := h.proper

/-- Rows of other tables do not matter. -/
theorem insert_other (h : Holds m batches tokens documents indexed) {table : List Byte}
    (rest : List Byte)
    (hmutations : table ≠ kMutationsTable) (hdocument : table ≠ kDocumentMutationsTable)
    (hqueue : table ≠ kMutationQueuesTable) (hremote : table ≠ kRemoteDocumentsTable)
    (v : Message μ) :
    Holds (m.insert (tablePrefix table ++ rest) v) batches tokens documents indexed where
  batch u id := by
    have hne : mutationKey u id ≠ tablePrefix table ++ rest :=
      tablePrefix_append_ne hmutations.symm _ _
    rw [SortedMap.get_insert, if_neg hne, h.batch]
  batch_id := h.batch_id
  index row := by
    have hne : documentMutationKey row ≠ tablePrefix table ++ rest :=
      tablePrefix_append_ne hdocument.symm _ _
    rw [SortedMap.get_insert, if_neg hne, h.index]
  token u := by
    have hne : mutationQueueKey u ≠ tablePrefix table ++ rest :=
      tablePrefix_append_ne hqueue.symm _ _
    rw [SortedMap.get_insert, if_neg hne, h.token]
  document d := by
    have hne : remoteDocumentKey d ≠ tablePrefix table ++ rest :=
      tablePrefix_append_ne hremote.symm _ _
    rw [SortedMap.get_insert, if_neg hne, h.document]
  document_key := h.document_key
  version := isSome_insert h.version v
  proper := proper_insert h.proper (properKey_of_other hmutations hdocument rest)

theorem insert_index (h : Holds m batches tokens documents indexed)
    (row : LevelDbDocumentMutationKey)
    (v : Message μ) : Holds (m.insert (documentMutationKey row) v) batches tokens documents
      (fun r => r = row ∨ indexed r) where
  batch u id := by
    rw [SortedMap.get_insert, if_neg documentMutationKey_ne.symm, h.batch]
  batch_id := h.batch_id
  index r := by
    rw [SortedMap.get_insert]
    by_cases hr : r = row
    · simp [hr]
    · rw [if_neg fun heq => hr (documentMutationKey_inj.mp heq), h.index]
      simp [hr]
  token u := by
    rw [SortedMap.get_insert, if_neg mutationQueueKey_ne_document, h.token]
  document d := by
    rw [SortedMap.get_insert, if_neg remoteDocumentKey_ne_document, h.document]
  document_key := h.document_key
  version := isSome_insert h.version v
  proper := proper_insert h.proper (properKey_documentMutationKey row)

theorem erase_index (h : Holds m batches tokens documents indexed)
    (row : LevelDbDocumentMutationKey) :
    Holds (m.erase (documentMutationKey row)) batches tokens documents
      (fun r => r ≠ row ∧ indexed r) where
  batch u id := by
    rw [SortedMap.get_erase, if_neg documentMutationKey_ne.symm, h.batch]
  batch_id := h.batch_id
  index r := by
    rw [SortedMap.get_erase]
    by_cases hr : r = row
    · simp [hr]
    · rw [if_neg fun heq => hr (documentMutationKey_inj.mp heq), h.index]
      simp [hr]
  token u := by
    rw [SortedMap.get_erase, if_neg mutationQueueKey_ne_document, h.token]
  document d := by
    rw [SortedMap.get_erase, if_neg remoteDocumentKey_ne_document, h.document]
  document_key := h.document_key
  version := by
    rw [SortedMap.get_erase, if_neg versionKey_ne_document]
    exact h.version
  proper := proper_erase h.proper

theorem insert_token (h : Holds m batches tokens documents indexed) (u token : List Byte) :
    Holds (m.insert (mutationQueueKey u) (.mutationQueue token)) batches (tokens.insert u token)
      documents indexed where
  batch u' id := by
    rw [SortedMap.get_insert, if_neg mutationQueueKey_ne.symm, h.batch]
  batch_id := h.batch_id
  index row := by
    rw [SortedMap.get_insert, if_neg mutationQueueKey_ne_document.symm, h.index]
  token u' := by
    rw [SortedMap.get_insert, SortedMap.get_insert]
    by_cases hu : u' = u
    · rw [hu, if_pos rfl, if_pos rfl]
      rfl
    · rw [if_neg fun heq => hu (mutationQueueKey_inj.mp heq), if_neg hu, h.token]
  document d := by
    rw [SortedMap.get_insert, if_neg remoteDocumentKey_ne_queue, h.document]
  document_key := h.document_key
  version := isSome_insert h.version _
  proper := proper_insert h.proper (properKey_of_other (by decide) (by decide) _)

theorem insert_document (h : Holds m batches tokens documents indexed) (doc : MaybeDocument) :
    Holds (m.insert (remoteDocumentKey doc.key) (.remoteDocument doc)) batches tokens
      (documents.insert doc.key doc) indexed where
  batch u id := by
    rw [SortedMap.get_insert, if_neg remoteDocumentKey_ne.symm, h.batch]
  batch_id := h.batch_id
  index row := by
    rw [SortedMap.get_insert, if_neg remoteDocumentKey_ne_document.symm, h.index]
  token u := by
    rw [SortedMap.get_insert, if_neg remoteDocumentKey_ne_queue.symm, h.token]
  document d := by
    rw [SortedMap.get_insert, SortedMap.get_insert]
    by_cases hd : d = doc.key
    · rw [hd, if_pos rfl, if_pos rfl]
      rfl
    · rw [if_neg fun heq => hd (remoteDocumentKey_inj.mp heq), if_neg hd, h.document]
  document_key d doc' hget := by
    rw [SortedMap.get_insert] at hget
    split at hget
    · next hd =>
      cases hget
      exact hd.symm
    · exact h.document_key d doc' hget
  version := isSome_insert h.version _
  proper := proper_insert h.proper (properKey_of_other (by decide) (by decide) _)

theorem mutationKey_eq_iff {u' : List Byte} {id' : Int32} :
    toLex (u', id') = toLex (u, id) ↔ mutationKey u' id' = mutationKey u id := by
  rw [mutationKey_inj, toLex_inj, Prod.mk_inj]

theorem insert_batch (h : Holds m batches tokens documents indexed) (hid : b.batch_id = id) :
    Holds (m.insert (mutationKey u id) (.writeBatch b)) (batches.insert (toLex (u, id)) b)
      tokens documents indexed where
  batch u' id' := by
    rw [SortedMap.get_insert, SortedMap.get_insert]
    by_cases hkey : mutationKey u' id' = mutationKey u id
    · rw [if_pos hkey, if_pos (mutationKey_eq_iff.mpr hkey)]
      rfl
    · rw [if_neg hkey, if_neg fun heq => hkey (mutationKey_eq_iff.mp heq), h.batch]
  batch_id u' id' b' hget := by
    rw [SortedMap.get_insert] at hget
    split at hget
    · next heq =>
      cases toLex.injective heq
      cases hget
      exact hid
    · exact h.batch_id u' id' b' hget
  index row := by
    rw [SortedMap.get_insert, if_neg documentMutationKey_ne, h.index]
  token u := by
    rw [SortedMap.get_insert, if_neg mutationQueueKey_ne, h.token]
  document d := by
    rw [SortedMap.get_insert, if_neg remoteDocumentKey_ne, h.document]
  document_key := h.document_key
  version := isSome_insert h.version _
  proper := proper_insert h.proper (properKey_mutationKey u id)

theorem erase_batch (h : Holds m batches tokens documents indexed) (u : List Byte) (id : Int32) :
    Holds (m.erase (mutationKey u id)) (batches.erase (toLex (u, id))) tokens documents
      indexed where
  batch u' id' := by
    rw [SortedMap.get_erase, SortedMap.get_erase]
    by_cases hkey : mutationKey u' id' = mutationKey u id
    · rw [if_pos hkey, if_pos (mutationKey_eq_iff.mpr hkey)]
      rfl
    · rw [if_neg hkey, if_neg fun heq => hkey (mutationKey_eq_iff.mp heq), h.batch]
  batch_id u' id' b' hget := by
    rw [SortedMap.get_erase] at hget
    split at hget
    · cases hget
    · exact h.batch_id u' id' b' hget
  index row := by
    rw [SortedMap.get_erase, if_neg documentMutationKey_ne, h.index]
  token u := by
    rw [SortedMap.get_erase, if_neg mutationQueueKey_ne, h.token]
  document d := by
    rw [SortedMap.get_erase, if_neg remoteDocumentKey_ne, h.document]
  document_key := h.document_key
  version := by
    rw [SortedMap.get_erase, if_neg versionKey_ne]
    exact h.version
  proper := proper_erase h.proper

end Holds

end Tables

section Persistence

variable {db : LevelDbPersistence μ}

theorem commit_persistence_put (db : LevelDbPersistence μ) (key : Key) (value : Message μ) :
    (db.put key value).transaction.commit = db.transaction.commit.insert key value :=
  LevelDbTransaction.commit_put _ _ _

theorem commit_persistence_delete (db : LevelDbPersistence μ) (key : Key) :
    (db.delete key).transaction.commit = db.transaction.commit.erase key :=
  LevelDbTransaction.commit_delete _ _

/-- The index of collections is in a table of its own. -/
theorem exists_addToCollectionParentIndex
    (h : Holds db.transaction.commit batches tokens documents indexed)
    {collection_path : ResourcePath} (hodd : collection_path.length % 2 = 1) :
    ∃ db', db.addToCollectionParentIndex collection_path = .ok db' ∧
      Holds db'.transaction.commit batches tokens documents indexed := by
  have hne : collection_path ≠ [] := by
    rintro rfl
    cases hodd
  unfold LevelDbPersistence.addToCollectionParentIndex
  rw [decide_eq_true hodd, ResourcePath.lastSegment_eq hne, ResourcePath.popLast_eq hne]
  simp only [hardAssert, if_true, Bind.bind, Except.bind]
  split
  · exact ⟨db, rfl, h⟩
  · have hkey : LevelDbCollectionParentKey.key
        ⟨collection_path.getLast hne, collection_path.dropLast⟩ = .ok (tablePrefix _ ++ _) :=
      LevelDbCollectionParentKey.keyClass.key_eq _
    rw [hkey]
    refine ⟨_, rfl, ?_⟩
    rw [commit_persistence_put]
    exact h.insert_other _ (by decide) (by decide) (by decide) (by decide) _

theorem exists_writeSentinel (h : Holds db.transaction.commit batches tokens documents indexed)
    (key : DocumentKey) : ∃ db', db.writeSentinel key = .ok db' ∧
      Holds db'.transaction.commit batches tokens documents indexed := by
  have hkey : LevelDbDocumentTargetKey.key ⟨key, 0⟩ = .ok (tablePrefix _ ++ _) :=
    LevelDbDocumentTargetKey.keyClass.key_eq _
  unfold LevelDbPersistence.writeSentinel
  rw [hkey]
  refine ⟨_, rfl, ?_⟩
  rw [commit_persistence_put]
  exact h.insert_other _ (by decide) (by decide) (by decide) (by decide) _

namespace LevelDbMutationQueue

variable {queue : LevelDbMutationQueue}

theorem exists_addMutation (queue : LevelDbMutationQueue)
    (h : Holds db.transaction.commit batches tokens documents indexed) (id : Int32)
    (mutation : Mutation μ) :
    ∃ db', queue.addMutation id db mutation = .ok db' ∧
      Holds db'.transaction.commit batches tokens documents
        (fun r => r = ⟨queue.user_id, mutation.key, id⟩ ∨ indexed r) := by
  have hpop := ResourcePath.popLast_eq mutation.named
  have hodd := mutation.key.odd_dropLast mutation.named
  have hindex := h.insert_index ⟨queue.user_id, mutation.key, id⟩ .empty
  rw [← commit_persistence_put] at hindex
  obtain ⟨db', hparents, hholds⟩ := exists_addToCollectionParentIndex hindex hodd
  refine ⟨db', ?_, hholds⟩
  simp only [addMutation, documentMutationKey_eq, hpop, Bind.bind, Except.bind]
  exact hparents

theorem exists_foldlM_addMutation (queue : LevelDbMutationQueue)
    (h : Holds db.transaction.commit batches tokens documents indexed) (id : Int32)
    (mutations : List (Mutation μ)) :
    ∃ db', mutations.foldlM (queue.addMutation id) db = .ok db' ∧
      Holds db'.transaction.commit batches tokens documents fun r =>
        (∃ mutation ∈ mutations, r = ⟨queue.user_id, mutation.key, id⟩) ∨ indexed r := by
  induction mutations generalizing db indexed with
  | nil => exact ⟨db, rfl, h.congr fun r => by simp⟩
  | cons mutation mutations ih =>
    obtain ⟨db', hadd, hholds⟩ := exists_addMutation queue h id mutation
    obtain ⟨db'', hfold, hholds'⟩ := ih hholds
    refine ⟨db'', ?_, hholds'.congr fun r => ?_⟩
    · rw [List.foldlM_cons, hadd]
      exact hfold
    · rw [List.exists_mem_cons_iff, or_left_comm, or_assoc]

/-- A new batch is put into the tables. -/
theorem exists_addMutationBatch (h : Represents db.transaction.commit batches tokens documents)
    {next : Int32} (hnext : increment queue.next_batch_id = .ok next)
    (hfresh : batches.get (toLex (queue.user_id, queue.next_batch_id)) = none)
    {local_write_time : Timestamp} {base_mutations mutations : List (Mutation μ)}
    (hb : MutationBatch.create queue.next_batch_id local_write_time base_mutations mutations =
      .ok b) :
    ∃ db', queue.addMutationBatch db local_write_time base_mutations mutations =
        .ok (b, { queue with next_batch_id := next }, db') ∧
      Represents db'.transaction.commit
        (batches.insert (toLex (queue.user_id, queue.next_batch_id)) b) tokens documents := by
  have hid := MutationBatch.batch_id_of_create hb
  have hput := h.insert_batch (u := queue.user_id) hid
  rw [← commit_persistence_put] at hput
  obtain ⟨db', hfold, hholds⟩ :=
    exists_foldlM_addMutation queue hput queue.next_batch_id b.mutations
  refine ⟨db', ?_, hholds.congr fun r => ?_⟩
  · simp only [addMutationBatch, hnext, hb, mutationBatchKey_eq, Bind.bind, Except.bind]
    rw [hfold]
    rfl
  · obtain ⟨u, doc, id⟩ := r
    unfold Batches.Indexed
    rw [SortedMap.get_insert]
    by_cases heq : toLex (u, id) = toLex (queue.user_id, queue.next_batch_id)
    · cases toLex.injective heq
      rw [if_pos rfl, hfresh]
      simp [eq_comm]
    · rw [if_neg heq]
      apply or_iff_right
      rintro ⟨mutation, -, hrow⟩
      cases hrow
      exact heq rfl

theorem exists_removeMutation (queue : LevelDbMutationQueue)
    (h : Holds db.transaction.commit batches tokens documents indexed) (id : Int32)
    (mutation : Mutation μ) :
    ∃ db', queue.removeMutation id db mutation = .ok db' ∧
      Holds db'.transaction.commit batches tokens documents
        (fun r => r ≠ ⟨queue.user_id, mutation.key, id⟩ ∧ indexed r) := by
  have hindex := h.erase_index ⟨queue.user_id, mutation.key, id⟩
  rw [← commit_persistence_delete] at hindex
  obtain ⟨db', hsentinel, hholds⟩ := exists_writeSentinel hindex mutation.key
  refine ⟨db', ?_, hholds⟩
  simp only [removeMutation, documentMutationKey_eq, Bind.bind, Except.bind]
  exact hsentinel

theorem exists_foldlM_removeMutation (queue : LevelDbMutationQueue)
    (h : Holds db.transaction.commit batches tokens documents indexed) (id : Int32)
    (mutations : List (Mutation μ)) :
    ∃ db', mutations.foldlM (queue.removeMutation id) db = .ok db' ∧
      Holds db'.transaction.commit batches tokens documents fun r =>
        (∀ mutation ∈ mutations, r ≠ ⟨queue.user_id, mutation.key, id⟩) ∧ indexed r := by
  induction mutations generalizing db indexed with
  | nil => exact ⟨db, rfl, h.congr fun r => by simp⟩
  | cons mutation mutations ih =>
    obtain ⟨db', hremove, hholds⟩ := exists_removeMutation queue h id mutation
    obtain ⟨db'', hfold, hholds'⟩ := ih hholds
    refine ⟨db'', ?_, hholds'.congr fun r => ?_⟩
    · rw [List.foldlM_cons, hremove]
      exact hfold
    · rw [List.forall_mem_cons, and_left_comm, and_assoc]

/-- The batch and its index rows are deleted. -/
theorem exists_removeMutationBatch (queue : LevelDbMutationQueue)
    (h : Represents db.transaction.commit batches tokens documents)
    (hb : batches.get (toLex (queue.user_id, b.batch_id)) = some b) :
    ∃ db', queue.removeMutationBatch db b = .ok db' ∧
      Represents db'.transaction.commit (batches.erase (toLex (queue.user_id, b.batch_id))) tokens
        documents := by
  have hget : db.transaction.commit.get (mutationKey queue.user_id b.batch_id) =
      some (.writeBatch b) := by
    rw [h.batch, hb]
    rfl
  have hlower : db.transaction.commit.lowerBound (mutationKey queue.user_id b.batch_id) =
      some (mutationKey queue.user_id b.batch_id, .writeBatch b) :=
    SortedMap.first_of_get hget (by simp) (by simp)
  obtain ⟨it, hseek, hlands⟩ := LevelDbTransaction.Iterator.seek_lands db.transaction
    (LevelDbTransaction.Iterator.create db.transaction) (mutationKey queue.user_id b.batch_id)
  rw [hlower] at hlands
  obtain ⟨hvalid, hcurrent⟩ := LevelDbTransaction.Iterator.shown_eq_some hlands.shown
  have hdelete := h.erase_batch queue.user_id b.batch_id
  rw [← commit_persistence_delete] at hdelete
  obtain ⟨db', hfold, hholds⟩ :=
    exists_foldlM_removeMutation queue hdelete b.batch_id b.mutations
  refine ⟨db', ?_, hholds.congr fun r => ?_⟩
  · have hcurrentKey := LevelDbTransaction.Iterator.currentKey_eq hcurrent
    simp only [removeMutationBatch, mutationBatchKey_eq, hseek, hvalid, hcurrentKey, Bind.bind,
      Except.bind, decide_true]
    exact hfold
  · obtain ⟨u, doc, id⟩ := r
    unfold Batches.Indexed
    rw [SortedMap.get_erase]
    by_cases heq : toLex (u, id) = toLex (queue.user_id, b.batch_id)
    · cases toLex.injective heq
      rw [if_pos rfl, hb]
      constructor
      · rintro ⟨hnone, b', hb', mutation, hmutation, hkey⟩
        cases hb'
        exact absurd (by rw [hkey]) (hnone mutation hmutation)
      · rintro ⟨b', hb', -⟩
        cases hb'
    · rw [if_neg heq]
      apply and_iff_right
      intro mutation _ hrow
      cases hrow
      exact heq rfl

end LevelDbMutationQueue

end Persistence

end LevelDb

end GasNow
