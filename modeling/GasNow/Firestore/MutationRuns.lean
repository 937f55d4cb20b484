import GasNow.Firestore.LocalStore

/-!
# Runs of the local store on the mutation queue

Whatever the calls of the local store are, they return what the same calls on plain maps of the
pending batches and the remote documents return.
-/

namespace GasNow

namespace LevelDb

open Machine OrderedCode Stores

variable {μ : Type}

section Simulation

variable {s s' : LocalStore μ} {p p' : Pending μ}

/-- The tables hold the pending batches, of which none has an id that is still to be used. -/
structure Refines (s : LocalStore μ) (p : Pending μ) : Prop where
  represents : Represents s.db p.batches p.tokens p.documents
  queue : s.mutation_queue = p.queue
  answers : s.answers = p.answers
  maxId : p.batches.maxId < p.queue.next_batch_id

theorem Refines.begin (h : Refines s p) :
    Represents s.begin.transaction.commit p.batches p.tokens p.documents := by
  unfold LocalStore.begin
  rw [LevelDbTransaction.commit_create]
  exact h.represents

theorem lt_of_increment {n n' : Int32} (h : increment n = .ok n') : n < n' :=
  (increment_le_iff h).mp le_rfl

theorem Batches.maxId_le {batches : Batches μ} {n : Int32} (hzero : 0 ≤ n)
    (hle : ∀ u id b, batches.get (toLex (u, id)) = some b → id ≤ n) : batches.maxId ≤ n := by
  rcases maxId_eq_zero_or batches with hmax | ⟨u, id, b, hget, hmax⟩
  · rw [hmax]
    exact hzero
  · rw [hmax]
    exact hle u id b hget

theorem Batches.maxId_insert_le {batches : Batches μ} {u : List Byte} {n : Int32}
    (h : batches.maxId < n) (b : MutationBatch μ) :
    Batches.maxId (batches.insert (toLex (u, n)) b) ≤ n := by
  apply Batches.maxId_le ((zero_le_maxId batches).trans h.le)
  intro u' id b' hget
  rw [SortedMap.get_insert] at hget
  split at hget
  · next heq =>
    cases toLex.injective heq
    exact le_rfl
  · exact (le_maxId hget).trans h.le

theorem Batches.maxId_erase_le (batches : Batches μ) (k : List Byte ×ₗ Int32) :
    Batches.maxId (batches.erase k) ≤ batches.maxId := by
  apply Batches.maxId_le (zero_le_maxId batches)
  intro u id b hget
  rw [SortedMap.get_erase] at hget
  split at hget
  · cases hget
  · exact le_maxId hget

/-- A transaction that only reads. -/
theorem exists_run (h : Refines s p) {β : Type} {result : β}
    {block : LevelDbPersistence μ → Except Trap (β × LevelDbPersistence μ)}
    (hblock : block s.begin = .ok (result, s.begin)) :
    ∃ s', s.run block = .ok (result, s') ∧ Refines s' p := by
  simp only [LocalStore.run, hblock, Bind.bind, Except.bind]
  exact ⟨_, rfl, h.begin, h.queue, h.answers, h.maxId⟩

section Queue

variable {block : LevelDbPersistence μ → Except Trap (LocalStore.Left μ)} {trap : Trap}
  {queue : LevelDbMutationQueue} {returned : Option (Answer μ)} {db : LevelDbPersistence μ}

theorem exists_runQueue (hblock : block s.begin = .ok ((queue, returned), db))
    (hrepresents : Represents db.transaction.commit p'.batches p'.tokens p'.documents)
    (hqueue : queue = p'.queue) (hanswers : returned.toList ++ s.answers = p'.answers)
    (hmax : p'.batches.maxId < p'.queue.next_batch_id) :
    ∃ s', s.runQueue block = .ok s' ∧ Refines s' p' := by
  simp only [LocalStore.runQueue, LocalStore.run, hblock, Bind.bind, Except.bind]
  exact ⟨_, rfl, hrepresents, hqueue, hanswers, hmax⟩

theorem runQueue_eq_error (hblock : block s.begin = .error trap) :
    s.runQueue block = .error trap := by
  simp only [LocalStore.runQueue, LocalStore.run, hblock, Bind.bind, Except.bind]

end Queue

theorem metadataForKey_eq {t : Transaction μ} {batches : Batches μ} {tokens : Tokens}
    {documents : Documents} (h : Represents t.commit batches tokens documents) (u : List Byte) :
    LevelDbMutationQueue.metadataForKey t (mutationQueueKey u) = .ok ((tokens.get u).getD []) := by
  rw [LevelDbMutationQueue.metadataForKey, ← LevelDbTransaction.get_commit, h.token]
  cases tokens.get u <;> rfl

theorem start_eq (h : Refines s p) (u : List Byte) :
    LevelDbMutationQueue.start u s.db s.begin.transaction =
      (p.start u).map fun q => q.queue := by
  have hload := LevelDbMutationQueue.loadNextBatchIdFromDb_eq h.represents
  have htoken := metadataForKey_eq h.begin u
  simp only [LevelDbMutationQueue.start, Pending.start, hload, Bind.bind, Except.bind]
  cases increment p.batches.maxId with
  | error trap => rfl
  | ok next =>
    simp only [mutationQueueKey_eq, htoken]
    rfl

theorem start_eq_ok {u : List Byte} {q : Pending μ} (h : p.start u = .ok q) :
    ∃ next, increment p.batches.maxId = .ok next ∧
      q = { p with queue := ⟨u, next, (p.tokens.get u).getD []⟩ } := by
  cases hnext : increment p.batches.maxId with
  | error trap =>
    simp only [Pending.start, hnext, Bind.bind, Except.bind] at h
    cases h
  | ok next =>
    simp only [Pending.start, hnext, Bind.bind, Except.bind] at h
    cases h
    exact ⟨next, rfl, rfl⟩

section UserChange

variable {u : List Byte} {q : Pending μ}

theorem allMutationBatches_eq_current (h : Refines s p) :
    s.mutation_queue.allMutationBatches s.begin.transaction = .ok p.current := by
  rw [h.queue]
  exact LevelDbMutationQueue.allMutationBatches_eq h.begin

theorem exists_oldBatches (h : Refines s p) :
    ∃ s', s.run (fun db => s.oldBatches db) = .ok (p.current, s') ∧ Refines s' p := by
  apply exists_run h
  simp only [LocalStore.oldBatches, allMutationBatches_eq_current h, Bind.bind, Except.bind]
  rfl

theorem startMutationQueue_eq_error (h : Refines s p) {trap : Trap}
    (hstart : p.start u = .error trap) :
    s.runQueue (fun db => s.startMutationQueue db u) = .error trap := by
  have hqueue := start_eq h u
  rw [hstart] at hqueue
  apply runQueue_eq_error
  simp only [LocalStore.startMutationQueue, hqueue, Except.map, Bind.bind, Except.bind]

theorem exists_startMutationQueue (h : Refines s p) (hstart : p.start u = .ok q) :
    ∃ s', s.runQueue (fun db => s.startMutationQueue db u) = .ok s' ∧ Refines s' q := by
  have hqueue := start_eq h u
  rw [hstart] at hqueue
  obtain ⟨next, hnext, rfl⟩ := start_eq_ok hstart
  have hblock : s.startMutationQueue s.begin u =
      .ok ((⟨u, next, (p.tokens.get u).getD []⟩, none), s.begin) := by
    simp only [LocalStore.startMutationQueue, hqueue, Except.map, Bind.bind, Except.bind]
    rfl
  exact exists_runQueue hblock h.begin rfl h.answers (lt_of_increment hnext)

theorem exists_newBatches (h : Refines s p) (old_batches : List (MutationBatch μ)) :
    ∃ s', s.runQueue (fun db => s.newBatches db old_batches) = .ok s' ∧
      Refines s' (p.returning (.changedKeys (changedKeys (old_batches ++ p.current)))) := by
  have hblock : s.newBatches s.begin old_batches = .ok ((s.mutation_queue,
      some (.changedKeys (changedKeys (old_batches ++ p.current)))), s.begin) := by
    simp only [LocalStore.newBatches, allMutationBatches_eq_current h, Bind.bind, Except.bind]
    rfl
  exact exists_runQueue hblock h.begin h.queue (congrArg _ h.answers) h.maxId

end UserChange

theorem setLastStreamToken_eq (h : Refines s p) (token : List Byte) :
    s.mutation_queue.setLastStreamToken s.begin token =
      .ok ((p.setToken token).queue,
        s.begin.put (mutationQueueKey p.queue.user_id) (.mutationQueue token)) := by
  rw [h.queue, LevelDbMutationQueue.setLastStreamToken, LevelDbMutationQueue.mutationQueueKey,
    mutationQueueKey_eq]
  rfl

theorem represents_setToken (h : Refines s p) (token : List Byte) :
    Represents (s.begin.put (mutationQueueKey p.queue.user_id) (.mutationQueue token)
      ).transaction.commit p.batches (p.setToken token).tokens p.documents := by
  rw [commit_persistence_put]
  exact h.begin.insert_token _ _

theorem answer_eq (h : Refines s p) (question : Question) :
    LocalStore.answer s.mutation_queue s.db s.begin.transaction question = p.answer question := by
  have hbegin := h.begin
  rw [h.queue]
  cases question with
  | isEmpty =>
    rw [LocalStore.answer, LevelDbMutationQueue.isEmpty_eq hbegin]
    rfl
  | allMutationBatches =>
    rw [LocalStore.answer, LevelDbMutationQueue.allMutationBatches_eq hbegin]
    rfl
  | allMutationBatchesAffectingDocumentKeys document_keys =>
    rw [LocalStore.answer,
      LevelDbMutationQueue.allMutationBatchesAffectingDocumentKeys_eq hbegin document_keys]
    rfl
  | allMutationBatchesAffectingQuery query =>
    rw [LocalStore.answer, Pending.answer]
    split
    · next hquery =>
      rw [LevelDbMutationQueue.allMutationBatchesAffectingQuery_eq_error hquery]
      rfl
    · next hquery =>
      rw [LevelDbMutationQueue.allMutationBatchesAffectingQuery_eq hbegin (by simpa using hquery)]
      rfl
  | lookupMutationBatch batch_id =>
    rw [LocalStore.answer, LevelDbMutationQueue.lookupMutationBatch_eq p.queue hbegin batch_id]
    rfl
  | nextMutationBatchAfterBatchId batch_id =>
    rw [LocalStore.answer, Pending.answer]
    cases hnext : increment batch_id with
    | error trap =>
      simp only [LevelDbMutationQueue.nextMutationBatchAfterBatchId, hnext, Bind.bind, Except.bind]
    | ok next =>
      rw [LevelDbMutationQueue.nextMutationBatchAfterBatchId_eq hbegin hnext]
      rfl
  | getHighestUnacknowledgedBatchId =>
    rw [LocalStore.answer,
      LevelDbMutationQueue.getHighestUnacknowledgedBatchId_eq p.queue h.represents]
    rfl
  | remoteDocument key =>
    rw [LocalStore.answer, LevelDbRemoteDocumentCache.get_eq hbegin key]
    rfl

section Calls

variable [CommittedMutation μ] {call : StoreCall μ}

theorem related_of_eq_error (trap : Trap) (hs : s.call call = .error trap)
    (hp : p.call call = .error trap) : (s.step call).Related Refines (p.step call) := by
  rw [LocalStore.step, Pending.step, hs, hp]
  exact .trap trap

theorem related_of_eq_ok (hs : s.call call = .ok s') (hp : p.call call = .ok p')
    (h : Refines s' p') : (s.step call).Related Refines (p.step call) := by
  rw [LocalStore.step, Pending.step, hs, hp]
  exact .next h

/-- A call that runs a block on the queue. -/
theorem related_runQueue {block : LevelDbPersistence μ → Except Trap (LocalStore.Left μ)}
    {queue : LevelDbMutationQueue} {returned : Option (Answer μ)} {db : LevelDbPersistence μ}
    (hs : s.call call = s.runQueue block) (hblock : block s.begin = .ok ((queue, returned), db))
    (hp : p.call call = .ok p')
    (hrepresents : Represents db.transaction.commit p'.batches p'.tokens p'.documents)
    (hqueue : queue = p'.queue) (hanswers : returned.toList ++ s.answers = p'.answers)
    (hmax : p'.batches.maxId < p'.queue.next_batch_id) :
    (s.step call).Related Refines (p.step call) := by
  obtain ⟨s', hrun, hrefines⟩ := exists_runQueue hblock hrepresents hqueue hanswers hmax
  exact related_of_eq_ok (hs.trans hrun) hp hrefines

theorem related_handleUserChange (h : Refines s p) (u : List Byte) :
    (s.step (.handleUserChange u)).Related Refines (p.step (.handleUserChange u)) := by
  obtain ⟨old, hold, hrefines⟩ := exists_oldBatches h
  cases hstart : p.start u with
  | error trap =>
    have hrun := startMutationQueue_eq_error hrefines hstart
    apply related_of_eq_error trap
    · simp only [LocalStore.call, LocalStore.handleUserChange, hold, hrun, Bind.bind, Except.bind]
    · simp only [Pending.call, hstart, Bind.bind, Except.bind]
  | ok q =>
    obtain ⟨started, hrun, hstarted⟩ := exists_startMutationQueue hrefines hstart
    obtain ⟨s', hrun', hrefines'⟩ := exists_newBatches hstarted p.current
    apply related_of_eq_ok _ _ hrefines'
    · simp only [LocalStore.call, LocalStore.handleUserChange, hold, hrun, hrun', Bind.bind,
        Except.bind]
    · simp only [Pending.call, hstart, Bind.bind, Except.bind]
      rfl

theorem related_writeLocally (h : Refines s p) (local_write_time : Timestamp)
    (base_mutations mutations : List (Mutation μ)) :
    (s.step (.writeLocally local_write_time base_mutations mutations)).Related Refines
      (p.step (.writeLocally local_write_time base_mutations mutations)) := by
  have hqueue := h.queue
  cases hnext : increment p.queue.next_batch_id with
  | error trap =>
    apply related_of_eq_error trap
    · apply runQueue_eq_error
      simp only [LocalStore.addBatch, LevelDbMutationQueue.addMutationBatch, hqueue, hnext,
        Bind.bind, Except.bind]
    · simp only [Pending.call, hnext, Bind.bind, Except.bind]
  | ok next =>
    cases hb : MutationBatch.create p.queue.next_batch_id local_write_time base_mutations
      mutations with
    | error trap =>
      apply related_of_eq_error trap
      · apply runQueue_eq_error
        simp only [LocalStore.addBatch, LevelDbMutationQueue.addMutationBatch, hqueue, hnext, hb,
          Bind.bind, Except.bind]
      · simp only [Pending.call, hnext, hb, Bind.bind, Except.bind]
    | ok b =>
      have hfresh : p.batches.get (toLex (p.queue.user_id, p.queue.next_batch_id)) = none := by
        by_contra hsome
        obtain ⟨b', hb'⟩ := Option.ne_none_iff_exists'.mp hsome
        exact (le_maxId hb').not_gt h.maxId
      obtain ⟨db, hadd, hrepresents⟩ :=
        LevelDbMutationQueue.exists_addMutationBatch h.begin hnext hfresh hb
      apply related_runQueue rfl
      · simp only [LocalStore.addBatch, hqueue, hadd, Bind.bind, Except.bind]
        rfl
      · simp only [Pending.call, hnext, hb, Bind.bind, Except.bind]
        rfl
      · exact hrepresents
      · rfl
      · rw [MutationBatch.batch_id_of_create hb]
        exact congrArg _ h.answers
      · exact (Batches.maxId_insert_le h.maxId b).trans_lt (lt_of_increment hnext)

theorem related_setLastStreamToken (h : Refines s p) (token : List Byte) :
    (s.step (.setLastStreamToken token)).Related Refines (p.step (.setLastStreamToken token)) := by
  have hset := setLastStreamToken_eq h token
  apply related_runQueue rfl
  · simp only [LocalStore.setToken, hset, Bind.bind, Except.bind]
    rfl
  · rfl
  · exact represents_setToken h token
  · rfl
  · exact h.answers
  · exact h.maxId

theorem related_acknowledgeBatch (h : Refines s p) {batch_result : MutationBatchResult μ}
    (hb : p.batches.get (toLex (p.queue.user_id, batch_result.batch.batch_id)) =
      some batch_result.batch) :
    (s.step (.acknowledgeBatch batch_result)).Related Refines
      (p.step (.acknowledgeBatch batch_result)) := by
  have hset := setLastStreamToken_eq h batch_result.stream_token
  have htoken := represents_setToken h batch_result.stream_token
  have hdocuments := related_documents batch_result htoken
  cases hfold : batch_result.batch.keys.entries.foldlM
      (fun documents e => Documents.commit batch_result documents e.1) p.documents with
  | error trap =>
    rw [hfold] at hdocuments
    have hconcrete := hdocuments.eq_error
    apply related_of_eq_error trap
    · apply runQueue_eq_error
      simp only [LocalStore.acknowledge, LevelDbMutationQueue.acknowledgeBatch, hset,
        LocalStore.applyBatchResult, hconcrete, Bind.bind, Except.bind]
    · simp only [Pending.call, hfold, Bind.bind, Except.bind]
  | ok documents =>
    rw [hfold] at hdocuments
    obtain ⟨db, hconcrete, hrepresents⟩ := hdocuments.exists_of_ok
    obtain ⟨db', hremove, hrepresents'⟩ := LevelDbMutationQueue.exists_removeMutationBatch
      (p.setToken batch_result.stream_token).queue hrepresents hb
    have hcheck := LevelDbMutationQueue.performConsistencyCheck_eq
      (p.setToken batch_result.stream_token).queue hrepresents'
    apply related_runQueue rfl
    · simp only [LocalStore.acknowledge, LevelDbMutationQueue.acknowledgeBatch, hset,
        LocalStore.applyBatchResult, hconcrete, hremove, hcheck, Bind.bind, Except.bind]
      rfl
    · simp only [Pending.call, hfold, Bind.bind, Except.bind]
      rfl
    · exact hrepresents'
    · rfl
    · exact congrArg _ h.answers
    · exact (Batches.maxId_erase_le _ _).trans_lt h.maxId

theorem related_rejectBatch (h : Refines s p) (id : Int32) :
    (s.step (.rejectBatch id)).Related Refines (p.step (.rejectBatch id)) := by
  have hqueue := h.queue
  have hlookup := LevelDbMutationQueue.lookupMutationBatch_eq p.queue h.begin id
  cases hb : p.batches.get (toLex (p.queue.user_id, id)) with
  | none =>
    rw [hb] at hlookup
    apply related_of_eq_error .hardAssert
    · apply runQueue_eq_error
      simp only [LocalStore.reject, hqueue, hlookup, Bind.bind, Except.bind]
      rfl
    · simp only [Pending.call, hb]
  | some b =>
    rw [hb] at hlookup
    have hid := h.begin.batch_id _ _ _ hb
    obtain ⟨db, hremove, hrepresents⟩ :=
      LevelDbMutationQueue.exists_removeMutationBatch p.queue h.begin (hid.symm ▸ hb)
    have hcheck := LevelDbMutationQueue.performConsistencyCheck_eq p.queue hrepresents
    rw [hid] at hrepresents
    apply related_runQueue rfl
    · simp only [LocalStore.reject, hqueue, hlookup, unwrap, hremove, hcheck, Bind.bind,
        Except.bind]
      rfl
    · simp only [Pending.call, hb]
      rfl
    · exact hrepresents
    · rfl
    · exact congrArg _ h.answers
    · exact (Batches.maxId_erase_le _ _).trans_lt h.maxId

theorem related_ask (h : Refines s p) (question : Question) :
    (s.step (.ask question)).Related Refines (p.step (.ask question)) := by
  have hanswer := answer_eq h question
  cases ha : p.answer question with
  | error trap =>
    rw [ha] at hanswer
    apply related_of_eq_error trap
    · apply runQueue_eq_error
      simp only [LocalStore.askQuestion, hanswer, Bind.bind, Except.bind]
    · simp only [Pending.call, ha, Bind.bind, Except.bind]
  | ok a =>
    rw [ha] at hanswer
    apply related_runQueue rfl
    · simp only [LocalStore.askQuestion, hanswer, Bind.bind, Except.bind]
      rfl
    · simp only [Pending.call, ha, Bind.bind, Except.bind]
      rfl
    · exact h.begin
    · exact h.queue
    · exact congrArg _ h.answers
    · exact h.maxId

theorem related_getLastStreamToken (h : Refines s p) :
    (s.step .getLastStreamToken).Related Refines (p.step .getLastStreamToken) := by
  apply related_of_eq_ok rfl rfl
  refine ⟨h.represents, h.queue, ?_, h.maxId⟩
  rw [h.queue, h.answers]
  rfl

theorem related_step (h : Refines s p) (call : StoreCall μ) (hok : p.Allows call) :
    (s.step call).Related Refines (p.step call) := by
  cases call with
  | handleUserChange user_id => exact related_handleUserChange h user_id
  | writeLocally local_write_time base_mutations mutations =>
    exact related_writeLocally h local_write_time base_mutations mutations
  | acknowledgeBatch batch_result => exact related_acknowledgeBatch h hok
  | rejectBatch batch_id => exact related_rejectBatch h batch_id
  | getLastStreamToken => exact related_getLastStreamToken h
  | setLastStreamToken stream_token => exact related_setLastStreamToken h stream_token
  | ask question => exact related_ask h question

end Calls

theorem represents_freshDatabase :
    Represents (freshDatabase : SortedMap Key (Message μ)) .empty .empty .empty where
  batch u id := by
    have htarget : mutationKey u id ≠ targetGlobalKey :=
      tablePrefix_append_ne (by decide) _ _
    rw [freshDatabase, SortedMap.get_insert, if_neg versionKey_ne.symm, SortedMap.get_insert,
      if_neg htarget]
    rfl
  batch_id _ _ _ hget := by cases hget
  index row := by
    have htarget : documentMutationKey row ≠ targetGlobalKey :=
      tablePrefix_append_ne (by decide) _ _
    rw [freshDatabase, SortedMap.get_insert, if_neg versionKey_ne_document.symm,
      SortedMap.get_insert, if_neg htarget]
    apply iff_of_false
    · intro hsome
      cases hsome
    · rintro ⟨b, hb, -⟩
      cases hb
  token u := by
    have htarget : mutationQueueKey u ≠ targetGlobalKey :=
      tablePrefix_append_ne (by decide) _ _
    have hversion : mutationQueueKey u ≠ versionKey :=
      tablePrefix_append_ne (by decide) _ _
    rw [freshDatabase, SortedMap.get_insert, if_neg hversion, SortedMap.get_insert, if_neg htarget]
    rfl
  document d := by
    have htarget : remoteDocumentKey d ≠ targetGlobalKey :=
      tablePrefix_append_ne (by decide) _ _
    have hversion : remoteDocumentKey d ≠ versionKey :=
      tablePrefix_append_ne (by decide) _ _
    rw [freshDatabase, SortedMap.get_insert, if_neg hversion, SortedMap.get_insert, if_neg htarget]
    rfl
  document_key _ _ hget := by cases hget
  version := by
    rw [freshDatabase, SortedMap.get_insert, if_pos rfl]
    rfl
  proper := by
    apply proper_insert _ (properKey_of_other (by decide) (by decide) _)
    apply proper_insert _ (properKey_of_other (by decide) (by decide) _)
    intro k v hget
    cases hget

theorem refines_fresh (user_id : List Byte) :
    Refines (LocalStore.fresh user_id : LocalStore μ) (Pending.fresh user_id) where
  represents := represents_freshDatabase
  queue := rfl
  answers := rfl
  maxId := by
    show (0 : Int32) < 1
    decide

/-- A fresh store is one that has started its queue on an empty database after the migrations. -/
theorem start_created (user_id : List Byte) : (do
      let s := LocalStore.created (← runMigrations) user_id
      s.runQueue fun db => s.startMutationQueue db user_id) =
    .ok (LocalStore.fresh user_id : LocalStore μ) := by
  have hmigrations : runMigrations = .ok (freshDatabase : SortedMap Key (Message μ)) := by
    simp only [runMigrations, targetGlobalKey_eq, versionKey_eq, Bind.bind, Except.bind]
    rfl
  have hload := LevelDbMutationQueue.loadNextBatchIdFromDb_eq (represents_freshDatabase (μ := μ))
  have hmax : (Batches.maxId (.empty : Batches μ)) = 0 := by
    apply le_antisymm _ (zero_le_maxId _)
    apply Batches.maxId_le le_rfl
    intro u id b hget
    cases hget
  have hnext : increment 0 = .ok 1 := by decide
  have hdb : (LocalStore.created freshDatabase user_id : LocalStore μ).db = freshDatabase := rfl
  have hcommit :
      (LocalStore.created freshDatabase user_id : LocalStore μ).begin.transaction.commit =
        freshDatabase := LevelDbTransaction.commit_create _
  have htoken := metadataForKey_eq (hcommit.symm ▸ represents_freshDatabase (μ := μ)) user_id
  rw [hmax, hnext] at hload
  simp only [hmigrations, LocalStore.runQueue, LocalStore.run, LocalStore.startMutationQueue,
    LevelDbMutationQueue.start, hdb, hload, mutationQueueKey_eq, htoken, Bind.bind, Except.bind]
  rfl

end Simulation

/-- **The queue keeps what is pending**: whatever the calls are, in whatever order and for whatever
users, the local store answers and aborts as it would over plain maps of the pending batches and
the remote documents, as long as the batches that are acknowledged are pending. -/
theorem exec_pending [CommittedMutation μ] (user_id : List Byte) (calls : List (StoreCall μ))
    (hok : Attempts Pending.step (fun p call _ => p.Allows call) (Pending.fresh user_id) calls) :
    (exec LocalStore.step (LocalStore.fresh user_id) calls).map
        (fun s => (s.mutation_queue, s.answers)) =
      (exec Pending.step (Pending.fresh user_id) calls).map (fun p => (p.queue, p.answers)) := by
  have hrelated : (exec LocalStore.step (LocalStore.fresh user_id) calls).Related Refines
      (exec Pending.step (Pending.fresh user_id) calls) := by
    refine exec_related (fun p call => p.Allows call) ?_ (refines_fresh user_id) hok
    intro s p call h hallows
    apply related_step h call (hallows ?_)
    rw [Pending.step]
    cases p.call call <;> simp [Outcome.ofExcept]
  exact hrelated.map_eq fun s p h => by rw [h.queue, h.answers]

/-- Deletes of documents, which leave none of their contents. -/
instance deletes : CommittedMutation Unit where
  applyToRemoteDocument mutation _ mutation_result :=
    .ok ⟨mutation.key, mutation_result.version, []⟩
  key_of_eq_ok h := by
    cases h
    rfl

def firstOrder : Mutation Unit where
  key := ⟨[[111], [49]], rfl⟩
  content := ()
  named := List.cons_ne_nil _ _

def secondOrder : Mutation Unit where
  key := ⟨[[111], [50]], rfl⟩
  content := ()
  named := List.cons_ne_nil _ _

def bothOrders : MutationBatch Unit where
  batch_id := 1
  local_write_time := ⟨0, 0, rfl⟩
  base_mutations := []
  mutations := [secondOrder, firstOrder]
  nonempty := List.cons_ne_nil _ _

def oneOrder : MutationBatch Unit where
  batch_id := 2
  local_write_time := ⟨0, 0, rfl⟩
  base_mutations := []
  mutations := [firstOrder]
  nonempty := List.cons_ne_nil _ _

def bothOrdersResult : MutationBatchResult Unit where
  batch := bothOrders
  commit_version := ⟨1, 0, rfl⟩
  mutation_results := [⟨⟨1, 0, rfl⟩, none⟩, ⟨⟨1, 0, rfl⟩, none⟩]
  stream_token := [7]
  sized := rfl

def orderCalls : List (StoreCall Unit) :=
  [.writeLocally ⟨0, 0, rfl⟩ [] [secondOrder, firstOrder],
    .writeLocally ⟨0, 0, rfl⟩ [] [firstOrder],
    .ask (.allMutationBatchesAffectingQuery ⟨[[111]], none, []⟩),
    .acknowledgeBatch bothOrdersResult, .ask (.remoteDocument firstOrder.key),
    .ask .getHighestUnacknowledgedBatchId, .handleUserChange [98], .getLastStreamToken]

/-- Two writes of one document, of which the first is acknowledged before the user changes. -/
theorem exec_pending_orders :
    (exec LocalStore.step (LocalStore.fresh [97]) orderCalls).map
        (fun s => (s.mutation_queue, s.answers)) =
      .next (⟨[98], 3, []⟩,
        [.streamToken [], .changedKeys oneOrder.keys, .batchId 2,
          .document (some ⟨firstOrder.key, ⟨1, 0, rfl⟩, []⟩), .changedKeys bothOrders.keys,
          .batches [bothOrders, oneOrder], .batchId 2, .batchId 1]) := by
  rw [exec_pending]
  · rfl
  · simp only [orderCalls, attempts_cons]
    refine ⟨fun _ => trivial, fun t ht => ?_⟩
    cases ht
    refine ⟨fun _ => trivial, fun t ht => ?_⟩
    cases ht
    refine ⟨fun _ => trivial, fun t ht => ?_⟩
    cases ht
    refine ⟨fun _ => rfl, fun t ht => ?_⟩
    cases ht
    refine ⟨fun _ => trivial, fun t ht => ?_⟩
    cases ht
    refine ⟨fun _ => trivial, fun t ht => ?_⟩
    cases ht
    refine ⟨fun _ => trivial, fun t ht => ?_⟩
    cases ht
    exact ⟨fun _ => trivial, fun _ _ => attempts_nil⟩

end LevelDb

end GasNow
