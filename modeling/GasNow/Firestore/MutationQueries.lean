import GasNow.Firestore.MutationRows

/-!
# What the mutation queue reads

Over tables that represent the batches of the users, every read of a queue is what a list of the
user's batches gives.
-/

namespace GasNow

namespace LevelDb

open Codes OrderedCode Stores

variable {μ : Type} {t : Transaction μ} {batches : Batches μ} {tokens : Tokens}
  {documents : Documents} {queue : LevelDbMutationQueue}

namespace LevelDbMutationQueue

theorem get_mutationKey {m : SortedMap Key (Message μ)} {u : List Byte} {id : Int32}
    {b : MutationBatch μ} (h : Represents m batches tokens documents)
    (hb : batches.get (toLex (u, id)) = some b) :
    m.get (mutationKey u id) = some (.writeBatch b) := by
  rw [h.batch, hb]
  rfl

/-- The rows of a user, parsed. -/
theorem filterMap_user_rows (h : Represents t.commit batches tokens documents) (u : List Byte) :
    (t.commit.entries.filter fun row => (userPrefix kMutationsTable u).isPrefixOf row.1).filterMap
      (fun row => row.2.batch?) = batches.ofUser u := by
  have hmem : ∀ row, row ∈ t.commit.entries.filter (fun row =>
      (userPrefix kMutationsTable u).isPrefixOf row.1) ↔ ∃ id b,
        row = (mutationKey u id, .writeBatch b) ∧ batches.get (toLex (u, id)) = some b := by
    intro row
    rw [List.mem_filter, List.isPrefixOf_iff_prefix, mem_user_rows h]
  apply eq_of_pairwise_lt (f := fun b => b.batch_id) _ (pairwise_ofUser h u)
  · intro b
    rw [List.mem_filterMap, mem_ofUser]
    constructor
    · rintro ⟨row, hrow, hb⟩
      obtain ⟨id, b', rfl, hget⟩ := (hmem row).mp hrow
      cases hb
      exact ⟨id, hget⟩
    · rintro ⟨id, hget⟩
      exact ⟨_, (hmem _).mpr ⟨id, b, rfl, hget⟩, rfl⟩
  · rw [List.pairwise_filterMap]
    refine (t.commit.sorted.filter _).imp_of_mem ?_
    intro row row' hrow hrow' hlt b hb b' hb'
    obtain ⟨id, b, rfl, hget⟩ := (hmem row).mp hrow
    obtain ⟨id', b', rfl, hget'⟩ := (hmem row').mp hrow'
    cases hb
    cases hb'
    rw [h.batch_id _ _ _ hget, h.batch_id _ _ _ hget']
    have hkeys := mutationKey_lt_iff.mp hlt
    rcases Prod.Lex.lt_iff.mp hkeys with hlt | ⟨-, hlt⟩
    · exact absurd hlt (lt_irrefl u)
    · exact hlt

theorem foldl_batch (rows : List (Key × Message μ)) (result : List (MutationBatch μ)) :
    rows.foldl (fun result row => result ++ row.2.batch?.toList) result =
      result ++ rows.filterMap fun row => row.2.batch? := by
  induction rows generalizing result with
  | nil => simp
  | cons row rows ih =>
    rw [List.foldl_cons, ih, List.filterMap_cons]
    cases row.2.batch? <;> simp

theorem collectBatch_eq (h : Represents t.commit batches tokens documents) {u : List Byte}
    {row : Key × Message μ} (hrow : row ∈ t.commit.entries) (result : List (MutationBatch μ)) :
    collectBatch (userPrefix kMutationsTable u) row result =
      .ok (if (userPrefix kMutationsTable u).isPrefixOf row.1 then
        .yield (result ++ row.2.batch?.toList) else .done result) := by
  unfold collectBatch
  split
  · next hstarts =>
    obtain ⟨id, b, rfl, -⟩ := (mem_user_rows h).mp ⟨hrow, List.isPrefixOf_iff_prefix.mp hstarts⟩
    rfl
  · rfl

theorem allMutationBatches_eq (h : Represents t.commit batches tokens documents) :
    queue.allMutationBatches t = .ok (batches.ofUser queue.user_id) := by
  obtain ⟨it, hscan⟩ := LevelDbTransaction.Iterator.scan_filter (s := [])
    (LevelDbTransaction.Iterator.create t)
    (fun row hrow result => collectBatch_eq h hrow result (u := queue.user_id))
    (fun row _ hstarts => List.isPrefixOf_iff_prefix.mp hstarts)
    (fun row _ row' _ hstarts _ _ => List.isPrefixOf_iff_prefix.mpr hstarts)
  rw [foldl_batch, filterMap_user_rows h, List.nil_append] at hscan
  unfold allMutationBatches
  rw [userKeyPrefix_eq]
  show (LevelDbTransaction.Iterator.scan _ _ _ _ _ >>= _) = _
  rw [hscan]
  rfl

theorem isEmpty_eq (h : Represents t.commit batches tokens documents) :
    queue.isEmpty t = .ok (batches.ofUser queue.user_id).isEmpty := by
  have hrows : (batches.ofUser queue.user_id).isEmpty = false ↔
      ∃ e, t.commit.lowerBound (userPrefix kMutationsTable queue.user_id) = some e ∧
        userPrefix kMutationsTable queue.user_id <+: e.1 := by
    rw [← exists_prefix_iff, List.isEmpty_eq_false_iff_exists_mem]
    constructor
    · rintro ⟨b, hb⟩
      obtain ⟨id, hget⟩ := mem_ofUser.mp hb
      exact ⟨mutationKey queue.user_id id, .writeBatch b, get_mutationKey h hget,
        userPrefix_mutationKey.mpr rfl⟩
    · rintro ⟨k, v, hget, hstarts⟩
      obtain ⟨id, b, -, hb⟩ :=
        (mem_user_rows h).mp ⟨SortedMap.get_eq_some_iff.mp hget, hstarts⟩
      exact ⟨b, mem_ofUser.mpr ⟨id, hb⟩⟩
  obtain ⟨it, hseek, hlands⟩ := LevelDbTransaction.Iterator.seek_lands t
    (LevelDbTransaction.Iterator.create t) (userPrefix kMutationsTable queue.user_id)
  unfold isEmpty
  rw [userKeyPrefix_eq]
  show (LevelDbTransaction.Iterator.seek _ _ _ >>= _) = _
  rw [hseek]
  cases hlower : t.commit.lowerBound (userPrefix kMutationsTable queue.user_id) with
  | none =>
    rw [hlower] at hlands hrows
    have hempty : (batches.ofUser queue.user_id).isEmpty = true := by
      rw [← Bool.not_eq_false, hrows]
      rintro ⟨e, he, -⟩
      cases he
    rw [hempty]
    show (if it.is_valid = true then _ else _) = _
    rw [hlands.not_is_valid]
    rfl
  | some e =>
    rw [hlower] at hlands hrows
    obtain ⟨hvalid, hcurrent⟩ := LevelDbTransaction.Iterator.shown_eq_some hlands.shown
    have hempty : (batches.ofUser queue.user_id).isEmpty =
        !(userPrefix kMutationsTable queue.user_id).isPrefixOf e.1 := by
      rw [Bool.eq_iff_iff, ← not_iff_not, Bool.not_eq_true, hrows]
      simp
    rw [hempty]
    show (if it.is_valid = true then _ else _) = _
    rw [if_pos hvalid, LevelDbTransaction.Iterator.currentKey_eq hcurrent]
    rfl

theorem lookupMutationBatch_eq (queue : LevelDbMutationQueue)
    (h : Represents t.commit batches tokens documents) (batch_id : Int32) :
    queue.lookupMutationBatch t batch_id =
      .ok (batches.get (toLex (queue.user_id, batch_id))) := by
  unfold lookupMutationBatch
  rw [mutationBatchKey_eq]
  simp only [Bind.bind, Except.bind]
  rw [← LevelDbTransaction.get_commit, h.batch]
  cases batches.get (toLex (queue.user_id, batch_id)) <;> rfl

section NextBatch

variable {u : List Byte} {id id' next : Int32} {b : MutationBatch μ}

/-- The batches behind an id have rows from the key of the next id on. -/
theorem mutationKey_le_of_lt (h : Represents t.commit batches tokens documents)
    (hnext : increment id = .ok next) (hb : b ∈ batches.ofUser u) (hlt : id < b.batch_id) :
    mutationKey u next ≤ mutationKey u b.batch_id ∧
      t.commit.get (mutationKey u b.batch_id) = some (.writeBatch b) := by
  obtain ⟨id', hget⟩ := mem_ofUser.mp hb
  obtain rfl := h.batch_id _ _ _ hget
  refine ⟨?_, get_mutationKey h hget⟩
  rw [← not_lt, mutationKey_lt_iff, Prod.Lex.lt_iff]
  rintro (hlt' | ⟨-, hlt'⟩)
  · exact lt_irrefl u hlt'
  · exact hlt'.not_ge ((increment_le_iff hnext).mpr hlt)

/-- The first row from the key of the next id on is not one of the user. -/
theorem find?_eq_none_of_lowerBound (h : Represents t.commit batches tokens documents)
    (hnext : increment id = .ok next)
    (hrow : ∀ e, t.commit.lowerBound (mutationKey u next) = some e →
      ¬userPrefix kMutationsTable u <+: e.1) :
    (batches.ofUser u).find? (fun b => id < b.batch_id) = none := by
  rw [List.find?_eq_none]
  intro b hb hlt
  obtain ⟨hle, hget⟩ := mutationKey_le_of_lt h hnext hb (of_decide_eq_true hlt)
  cases hlower : t.commit.lowerBound (mutationKey u next) with
  | none => exact hle.not_gt (SortedMap.lt_of_lowerBound_eq_none hlower hget)
  | some e =>
    have hfirst := SortedMap.le_of_lowerBound_eq_some hlower hget hle
    have hle' := (userPrefix_le_mutationKey u next).trans
      (SortedMap.lowerBound_eq_some_iff.mp hlower).2.1
    exact hrow e hlower (prefix_of_le_of_le hle' hfirst (userPrefix_mutationKey.mpr rfl))

/-- The first row from the key of the next id on is one of the user. -/
theorem find?_of_lowerBound (h : Represents t.commit batches tokens documents)
    (hnext : increment id = .ok next) {message : Message μ}
    (hlower : t.commit.lowerBound (mutationKey u next) = some (mutationKey u id', message))
    (hb : batches.get (toLex (u, id')) = some b) :
    next ≤ id' ∧ (batches.ofUser u).find? (fun b => id < b.batch_id) = some b := by
  have hlt_iff : ∀ {n n' : Int32}, n < n' → mutationKey u n < mutationKey u n' := fun hlt =>
    mutationKey_lt_iff.mpr (Prod.Lex.lt_iff.mpr (.inr ⟨rfl, hlt⟩))
  have hid := h.batch_id _ _ _ hb
  have hle : next ≤ id' := by
    rw [← not_lt]
    intro hlt
    exact (SortedMap.lowerBound_eq_some_iff.mp hlower).2.1.not_gt (hlt_iff hlt)
  refine ⟨hle, find?_of_pairwise_lt (pairwise_ofUser h u) (mem_ofUser.mpr ⟨id', hb⟩) ?_ ?_⟩
  · rw [hid]
    exact decide_eq_true ((increment_le_iff hnext).mp hle)
  · intro b' hb' hlt
    obtain ⟨hle', hget⟩ := mutationKey_le_of_lt h hnext hb' (of_decide_eq_true hlt)
    rw [hid, ← not_lt]
    intro hlt'
    exact (SortedMap.le_of_lowerBound_eq_some hlower hget hle').not_gt (hlt_iff hlt')

theorem nextMutationBatchAfterBatchId_eq (h : Represents t.commit batches tokens documents)
    (hnext : increment id = .ok next) :
    queue.nextMutationBatchAfterBatchId t id =
      .ok ((batches.ofUser queue.user_id).find? fun b => id < b.batch_id) := by
  have hkey := queue.mutationBatchKey_eq next
  generalize hu : queue.user_id = u at hkey ⊢
  obtain ⟨it, hseek, hlands⟩ := LevelDbTransaction.Iterator.seek_lands t
    (LevelDbTransaction.Iterator.create t) (mutationKey u next)
  simp only [nextMutationBatchAfterBatchId, hnext, hkey, hseek, hu, Bind.bind, Except.bind]
  cases hlower : t.commit.lowerBound (mutationKey u next) with
  | none =>
    rw [hlower] at hlands
    rw [hlands.not_is_valid, find?_eq_none_of_lowerBound h hnext (by simp [hlower])]
    rfl
  | some e =>
    rw [hlower] at hlands
    obtain ⟨hvalid, hcurrent⟩ := LevelDbTransaction.Iterator.shown_eq_some hlands.shown
    have hget := (SortedMap.lowerBound_eq_some_iff.mp hlower).1
    rw [if_pos hvalid, hcurrent]
    simp only [unwrap]
    rcases exists_decode h hget with ⟨hdecode, hother⟩ | ⟨u', id', b, hdecode, rfl, hb⟩
    · rw [hdecode, find?_eq_none_of_lowerBound h hnext (by simpa [hlower] using hother u)]
      rfl
    · rw [hdecode]
      dsimp only
      by_cases huser : u' = u
      · subst huser
        obtain ⟨hle, hfound⟩ := find?_of_lowerBound h hnext hlower hb
        rw [if_neg (by simp), decide_eq_true hle, hfound]
        rfl
      · have hstarts : ¬userPrefix kMutationsTable u <+: mutationKey u' id' := fun hstarts =>
          huser (userPrefix_mutationKey.mp hstarts).symm
        rw [if_pos huser, find?_eq_none_of_lowerBound h hnext (by simpa [hlower] using hstarts)]
        rfl

end NextBatch

theorem exists_pushBatch (h : Represents t.commit batches tokens documents) {id : Int32}
    {b : MutationBatch μ} (hb : batches.get (toLex (queue.user_id, id)) = some b)
    (it : LevelDbTransaction.Iterator (Message μ)) (result : List (MutationBatch μ)) :
    ∃ it', queue.pushBatch t it result id = .ok (it', result ++ [b]) := by
  have hget := get_mutationKey h hb
  have hlower : t.commit.lowerBound (mutationKey queue.user_id id) =
      some (mutationKey queue.user_id id, .writeBatch b) :=
    SortedMap.first_of_get hget (by simp) (by simp)
  obtain ⟨it', hseek, hlands⟩ :=
    LevelDbTransaction.Iterator.seek_lands t it (mutationKey queue.user_id id)
  rw [hlower] at hlands
  obtain ⟨hvalid, hcurrent⟩ := LevelDbTransaction.Iterator.shown_eq_some hlands.shown
  refine ⟨it', ?_⟩
  simp only [pushBatch, mutationBatchKey_eq, hseek, hvalid, hcurrent, unwrap, Bind.bind, Except.bind]
  rw [decide_true]
  rfl

theorem exists_foldlM_pushBatch (h : Represents t.commit batches tokens documents)
    {ids : List (Int32 × Unit)}
    (hids : ∀ e ∈ ids, ∃ b, batches.get (toLex (queue.user_id, e.1)) = some b)
    (it : LevelDbTransaction.Iterator (Message μ)) (result : List (MutationBatch μ)) :
    ∃ it', ids.foldlM (fun p entry => queue.pushBatch t p.1 p.2 entry.1) (it, result) =
      .ok (it', result ++ ids.filterMap fun e => batches.get (toLex (queue.user_id, e.1))) := by
  induction ids generalizing it result with
  | nil => exact ⟨it, by simp; rfl⟩
  | cons e ids ih =>
    obtain ⟨b, hb⟩ := hids e List.mem_cons_self
    obtain ⟨it', hpush⟩ := exists_pushBatch h hb it result
    obtain ⟨it'', hfold⟩ :=
      ih (fun e' he' => hids e' (List.mem_cons_of_mem e he')) it' (result ++ [b])
    refine ⟨it'', ?_⟩
    rw [List.foldlM_cons, hpush, List.filterMap_cons, hb]
    show List.foldlM _ (it', result ++ [b]) ids = _
    rw [hfold, List.append_assoc]
    rfl

theorem allMutationBatchesWithIds_eq (h : Represents t.commit batches tokens documents)
    {ids : BatchIds}
    (hids : ∀ id, (ids.get id).isSome → ∃ b, batches.get (toLex (queue.user_id, id)) = some b) :
    queue.allMutationBatchesWithIds t ids =
      .ok ((batches.ofUser queue.user_id).filter fun b => (ids.get b.batch_id).isSome) := by
  have hentries : ∀ e ∈ ids.entries, ∃ b, batches.get (toLex (queue.user_id, e.1)) = some b := by
    intro e he
    exact hids e.1 (by rw [SortedMap.mem_entries.mp he]; rfl)
  obtain ⟨it, hfold⟩ := exists_foldlM_pushBatch h hentries (LevelDbTransaction.Iterator.create t) []
  have hlist : ids.entries.filterMap (fun e => batches.get (toLex (queue.user_id, e.1))) =
      (batches.ofUser queue.user_id).filter fun b => (ids.get b.batch_id).isSome := by
    apply eq_of_pairwise_lt (f := fun b => b.batch_id) _ ((pairwise_ofUser h _).filter _)
    · intro b
      rw [List.mem_filterMap, List.mem_filter, mem_ofUser]
      constructor
      · rintro ⟨e, he, hb⟩
        rw [h.batch_id _ _ _ hb, SortedMap.mem_entries.mp he]
        exact ⟨⟨e.1, hb⟩, rfl⟩
      · rintro ⟨⟨id, hb⟩, hid⟩
        obtain rfl := h.batch_id _ _ _ hb
        obtain ⟨u, hu⟩ := Option.isSome_iff_exists.mp hid
        exact ⟨(b.batch_id, u), SortedMap.get_eq_some_iff.mp hu, hb⟩
    · rw [List.pairwise_filterMap]
      refine ids.sorted.imp ?_
      intro e e' hlt b hb b' hb'
      rw [h.batch_id _ _ _ hb, h.batch_id _ _ _ hb']
      exact hlt
  rw [hlist, List.nil_append] at hfold
  simp only [allMutationBatchesWithIds, hfold, Bind.bind, Except.bind]
  rfl

/-- The columns of an index row. -/
def rowOf (key : Key) : Option LevelDbDocumentMutationKey :=
  (LevelDbDocumentMutationKey.decode key).toOption.join

theorem rowOf_documentMutationKey {r : LevelDbDocumentMutationKey} (h : r.document_key.path ≠ []) :
    rowOf (documentMutationKey r) = some r := by
  have hdecode : LevelDbDocumentMutationKey.decode (documentMutationKey r) = .ok (some r) :=
    LevelDbDocumentMutationKey.keyClass.decode_code r h
  rw [rowOf, hdecode]
  rfl

theorem exists_index_row (h : Represents t.commit batches tokens documents) {row : Key × Message μ}
    (hrow : row ∈ t.commit.entries) (hstarts : tablePrefix kDocumentMutationsTable <+: row.1) :
    ∃ r b, row.1 = documentMutationKey r ∧
      LevelDbDocumentMutationKey.decode row.1 = .ok (some r) ∧
      batches.get (toLex (r.user_id, r.batch_id)) = some b ∧
      ∃ mutation ∈ b.mutations, mutation.key = r.document_key := by
  have hget : t.commit.get row.1 = some row.2 := SortedMap.mem_entries.mp hrow
  obtain ⟨r, hr⟩ := (h.proper _ _ hget).documentMutation hstarts
  obtain ⟨b, hb, mutation, hmem, hkey⟩ := (h.index r).mp (by rw [← hr, hget]; rfl)
  have hnamed : r.document_key.path ≠ [] := hkey ▸ mutation.named
  have hdecode := LevelDbDocumentMutationKey.keyClass.decode_code r hnamed
  refine ⟨r, b, hr, ?_, hb, mutation, hmem, hkey⟩
  rw [hr]
  exact hdecode

/-- The id of an index row is collected if the row is selected. -/
def addId (select : LevelDbDocumentMutationKey → Bool) (ids : BatchIds) (row : Key × Message μ) :
    BatchIds :=
  (rowOf row.1).elim ids fun r => if select r then ids.insert r.batch_id () else ids

theorem isSome_addId {select : LevelDbDocumentMutationKey → Bool} {ids : BatchIds} {id : Int32}
    {row : Key × Message μ} : ((addId select ids row).get id).isSome ↔
      (ids.get id).isSome ∨ ∃ r, rowOf row.1 = some r ∧ select r = true ∧ r.batch_id = id := by
  unfold addId
  cases rowOf row.1 with
  | none => simp
  | some r =>
    dsimp only [Option.elim]
    split
    · next hselect =>
      rw [SortedMap.get_insert]
      by_cases hid : r.batch_id = id
      · simp [hid, hselect]
      · rw [if_neg fun heq => hid heq.symm]
        simp [hid]
    · next hselect => simp [hselect]

theorem isSome_foldl_addId {select : LevelDbDocumentMutationKey → Bool} {id : Int32}
    (rows : List (Key × Message μ)) (ids : BatchIds) :
    ((rows.foldl (addId select) ids).get id).isSome ↔ (ids.get id).isSome ∨
      ∃ row ∈ rows, ∃ r, rowOf row.1 = some r ∧ select r = true ∧ r.batch_id = id := by
  induction rows generalizing ids with
  | nil => simp
  | cons row rows ih =>
    rw [List.foldl_cons, ih, isSome_addId, or_assoc, List.exists_mem_cons_iff]

/-- Index rows of one document of a user. -/
def isDocument (u : List Byte) (doc : DocumentKey) (key : Key) : Bool :=
  (documentPrefix u doc.path).isPrefixOf key && (rowOf key).any fun r => r.document_key = doc

theorem isDocument_documentMutationKey {u : List Byte} {doc : DocumentKey}
    {r : LevelDbDocumentMutationKey} (h : r.document_key.path ≠ []) :
    isDocument u doc (documentMutationKey r) = true ↔ r.user_id = u ∧ r.document_key = doc := by
  rw [isDocument, rowOf_documentMutationKey h, Bool.and_eq_true, List.isPrefixOf_iff_prefix,
    documentPrefix_iff, Option.any_some, decide_eq_true_eq]
  constructor
  · rintro ⟨⟨rfl, -⟩, rfl⟩
    exact ⟨rfl, rfl⟩
  · rintro ⟨rfl, rfl⟩
    exact ⟨⟨rfl, List.prefix_rfl⟩, rfl⟩

theorem userPrefix_of_isDocument {u : List Byte} {doc : DocumentKey} {key : Key}
    (h : isDocument u doc key = true) : userPrefix kDocumentMutationsTable u <+: key := by
  rw [isDocument, Bool.and_eq_true, List.isPrefixOf_iff_prefix] at h
  exact (List.prefix_append _ _).trans h.1

/-- The index rows of one document are the first ones with its prefix. -/
theorem isDocument_of_lt (h : Represents t.commit batches tokens documents) {u : List Byte}
    {doc : DocumentKey}
    {row row' : Key × Message μ} (hrow : row ∈ t.commit.entries) (hrow' : row' ∈ t.commit.entries)
    (hstarts : documentPrefix u doc.path <+: row.1) (hlt : row.1 < row'.1)
    (hdoc : isDocument u doc row'.1 = true) : isDocument u doc row.1 = true := by
  have htable := (tablePrefix_userPrefix (u := u) kDocumentMutationsTable).trans
    ((List.prefix_append _ _).trans hstarts)
  have htable' := (tablePrefix_userPrefix _).trans (userPrefix_of_isDocument hdoc)
  obtain ⟨r, b, hkey, -, -, mutation, -, hmutation⟩ := exists_index_row h hrow htable
  obtain ⟨r', b', hkey', -, -, mutation', -, hmutation'⟩ := exists_index_row h hrow' htable'
  rw [hkey'] at hdoc hlt
  rw [hkey] at hstarts hlt ⊢
  rw [isDocument_documentMutationKey (hmutation' ▸ mutation'.named)] at hdoc
  obtain ⟨huser, hpath⟩ := documentPrefix_iff.mp hstarts
  rw [isDocument_documentMutationKey (hmutation ▸ mutation.named)]
  refine ⟨huser.symm, ?_⟩
  rw [document_eq_of_lt (huser.symm.trans hdoc.1.symm) (hdoc.2 ▸ hpath) hlt]
  exact hdoc.2

theorem collectDocument_eq (u : List Byte) (doc : DocumentKey)
    (h : Represents t.commit batches tokens documents) {row : Key × Message μ}
    (hrow : row ∈ t.commit.entries) (ids : BatchIds) :
    collectDocument (documentPrefix u doc.path) doc row ids =
      .ok (if isDocument u doc row.1 then .yield (addId (fun _ => true) ids row)
        else .done ids) := by
  unfold collectDocument isDocument
  by_cases hstarts : (documentPrefix u doc.path).isPrefixOf row.1 = true
  · have htable := (tablePrefix_userPrefix (u := u) kDocumentMutationsTable).trans
      ((List.prefix_append _ _).trans (List.isPrefixOf_iff_prefix.mp hstarts))
    obtain ⟨r, b, -, hdecode, -⟩ := exists_index_row h hrow htable
    have hr : rowOf row.1 = some r := by
      rw [rowOf, hdecode]
      rfl
    rw [if_pos hstarts, hstarts, hdecode, addId, hr]
    by_cases hdoc : r.document_key = doc
    · simp [hdoc, Bind.bind, Except.bind, Pure.pure, Except.pure]
    · simp [hdoc, Bind.bind, Except.bind, Pure.pure, Except.pure]
  · rw [if_neg hstarts, if_neg (by simp [hstarts])]

theorem collectChildren_eq (u : List Byte) (path : ResourcePath) (n : Nat)
    (h : Represents t.commit batches tokens documents) {row : Key × Message μ}
    (hrow : row ∈ t.commit.entries) (ids : BatchIds) :
    collectChildren (documentPrefix u path) n row ids =
      .ok (if (documentPrefix u path).isPrefixOf row.1 then
        .yield (addId (fun r => r.document_key.path.length = n) ids row) else .done ids) := by
  unfold collectChildren
  by_cases hstarts : (documentPrefix u path).isPrefixOf row.1 = true
  · have htable := (tablePrefix_userPrefix (u := u) kDocumentMutationsTable).trans
      ((List.prefix_append _ _).trans (List.isPrefixOf_iff_prefix.mp hstarts))
    obtain ⟨r, b, -, hdecode, -⟩ := exists_index_row h hrow htable
    have hr : rowOf row.1 = some r := by
      rw [rowOf, hdecode]
      rfl
    rw [if_pos hstarts, if_pos hstarts, hdecode, addId, hr]
    by_cases hlength : r.document_key.path.length = n
    · simp [hlength, Bind.bind, Except.bind, Pure.pure, Except.pure]
    · simp [hlength, Bind.bind, Except.bind, Pure.pure, Except.pure]
  · rw [if_neg hstarts, if_neg hstarts]

/-- The batches of which index rows are collected. -/
theorem isSome_collected (h : Represents t.commit batches tokens documents) {c : Key → Bool}
    {u : List Byte} {select : LevelDbDocumentMutationKey → Bool} {ids : BatchIds} {id : Int32}
    (hc : ∀ key, c key = true → userPrefix kDocumentMutationsTable u <+: key) :
    (((t.commit.entries.filter fun row => c row.1).foldl (addId select) ids).get id).isSome ↔
      (ids.get id).isSome ∨ ∃ b, batches.get (toLex (u, id)) = some b ∧
        ∃ mutation ∈ b.mutations, c (documentMutationKey ⟨u, mutation.key, id⟩) = true ∧
          select ⟨u, mutation.key, id⟩ = true := by
  rw [isSome_foldl_addId]
  apply or_congr_right
  constructor
  · rintro ⟨row, hrow, r, hr, hselect, rfl⟩
    obtain ⟨hmem, hcrow⟩ := List.mem_filter.mp hrow
    obtain ⟨r', b, hkey, -, hb, mutation, hmutation, hdoc⟩ :=
      exists_index_row h hmem ((tablePrefix_userPrefix _).trans (hc _ hcrow))
    have hnamed : r'.document_key.path ≠ [] := hdoc ▸ mutation.named
    rw [hkey, rowOf_documentMutationKey hnamed] at hr
    cases hr
    have huser := hc _ hcrow
    rw [hkey, userPrefix_documentMutationKey] at huser
    subst huser
    rw [hkey] at hcrow
    exact ⟨b, hb, mutation, hmutation, by rw [hdoc]; exact hcrow, by rw [hdoc]; exact hselect⟩
  · rintro ⟨b, hb, mutation, hmutation, hckey, hselect⟩
    have hindex := (h.index ⟨u, mutation.key, id⟩).mpr ⟨b, hb, mutation, hmutation, rfl⟩
    obtain ⟨v, hv⟩ := Option.isSome_iff_exists.mp hindex
    refine ⟨(documentMutationKey ⟨u, mutation.key, id⟩, v), ?_, _,
      rowOf_documentMutationKey mutation.named, hselect, rfl⟩
    exact List.mem_filter.mpr ⟨SortedMap.get_eq_some_iff.mp hv, hckey⟩

/-- The ids of the batches that write a document are added. -/
theorem exists_scan_document (h : Represents t.commit batches tokens documents) (u : List Byte)
    (doc : DocumentKey) (it : LevelDbTransaction.Iterator (Message μ)) (ids : BatchIds) :
    ∃ it' ids', it.scan t (documentPrefix u doc.path) ids
        (collectDocument (documentPrefix u doc.path) doc) = .ok (it', ids') ∧
      ∀ id, (ids'.get id).isSome ↔ (ids.get id).isSome ∨ ∃ b,
        batches.get (toLex (u, id)) = some b ∧ ∃ mutation ∈ b.mutations, mutation.key = doc := by
  obtain ⟨it', hscan⟩ := LevelDbTransaction.Iterator.scan_filter (s := ids) it
    (fun row hrow ids => collectDocument_eq u doc h hrow ids)
    (fun row _ hrow => by
      rw [isDocument, Bool.and_eq_true] at hrow
      exact List.isPrefixOf_iff_prefix.mp hrow.1)
    (fun row hrow row' hrow' => isDocument_of_lt h hrow hrow')
  refine ⟨it', _, hscan, fun id => ?_⟩
  rw [isSome_collected h fun key hkey => userPrefix_of_isDocument hkey]
  apply or_congr_right
  apply exists_congr
  intro b
  apply and_congr_right
  intro _
  apply exists_congr
  intro mutation
  apply and_congr_right
  intro _
  rw [isDocument_documentMutationKey mutation.named]
  simp

/-- The ids of the batches that write documents at a path, with a number of segments. -/
theorem exists_scan_children (h : Represents t.commit batches tokens documents) (u : List Byte)
    (path : ResourcePath) (n : Nat) (it : LevelDbTransaction.Iterator (Message μ))
    (ids : BatchIds) :
    ∃ it' ids', it.scan t (documentPrefix u path) ids
        (collectChildren (documentPrefix u path) n) = .ok (it', ids') ∧
      ∀ id, (ids'.get id).isSome ↔ (ids.get id).isSome ∨ ∃ b,
        batches.get (toLex (u, id)) = some b ∧ ∃ mutation ∈ b.mutations,
          path <+: mutation.key.path ∧ mutation.key.path.length = n := by
  obtain ⟨it', hscan⟩ := LevelDbTransaction.Iterator.scan_filter (s := ids) it
    (fun row hrow ids => collectChildren_eq u path n h hrow ids)
    (fun row _ hrow => List.isPrefixOf_iff_prefix.mp hrow)
    (fun row _ row' _ hstarts _ _ => List.isPrefixOf_iff_prefix.mpr hstarts)
  refine ⟨it', _, hscan, fun id => ?_⟩
  rw [isSome_collected h (u := u) (c := (documentPrefix u path).isPrefixOf) fun key hkey =>
    (List.prefix_append _ _).trans (List.isPrefixOf_iff_prefix.mp hkey)]
  apply or_congr_right
  apply exists_congr
  intro b
  apply and_congr_right
  intro _
  apply exists_congr
  intro mutation
  apply and_congr_right
  intro _
  rw [List.isPrefixOf_iff_prefix, documentPrefix_iff]
  simp

/-- What is read of the batches with the collected ids. -/
theorem withIds_eq (h : Represents t.commit batches tokens documents) {ids : BatchIds}
    {p : MutationBatch μ → Bool}
    (hids : ∀ id, (ids.get id).isSome ↔
      ∃ b, batches.get (toLex (queue.user_id, id)) = some b ∧ p b = true) :
    queue.allMutationBatchesWithIds t ids = .ok ((batches.ofUser queue.user_id).filter p) := by
  rw [allMutationBatchesWithIds_eq h fun id hid => ((hids id).mp hid).imp fun _ hb => hb.1]
  congr 1
  apply List.filter_congr
  intro b hb
  obtain ⟨id, hget⟩ := mem_ofUser.mp hb
  obtain rfl := h.batch_id _ _ _ hget
  rw [Bool.eq_iff_iff, hids]
  constructor
  · rintro ⟨b', hb', hp⟩
    rw [hget] at hb'
    cases hb'
    exact hp
  · intro hp
    exact ⟨b, hget, hp⟩

theorem exists_collectDocuments (queue : LevelDbMutationQueue)
    (h : Represents t.commit batches tokens documents) (keys : List DocumentKey)
    (it : LevelDbTransaction.Iterator (Message μ)) (ids : BatchIds) :
    ∃ it' ids', keys.foldlM (fun p key => queue.collectDocuments t p.1 p.2 key) (it, ids) =
        .ok (it', ids') ∧
      ∀ id, (ids'.get id).isSome ↔ (ids.get id).isSome ∨ ∃ b,
        batches.get (toLex (queue.user_id, id)) = some b ∧
          ∃ mutation ∈ b.mutations, mutation.key ∈ keys := by
  induction keys generalizing it ids with
  | nil => exact ⟨it, ids, rfl, by simp⟩
  | cons key keys ih =>
    obtain ⟨it', ids', hscan, hids'⟩ := exists_scan_document h queue.user_id key it ids
    obtain ⟨it'', ids'', hfold, hids''⟩ := ih it' ids'
    refine ⟨it'', ids'', ?_, fun id => ?_⟩
    · have hcollect : queue.collectDocuments t it ids key = .ok (it', ids') := by
        unfold collectDocuments
        rw [pathKeyPrefix_eq]
        exact hscan
      rw [List.foldlM_cons, hcollect]
      exact hfold
    · rw [hids'', hids', or_assoc]
      apply or_congr_right
      constructor
      · rintro (⟨b, hb, mutation, hmutation, hkey⟩ | ⟨b, hb, mutation, hmutation, hkey⟩)
        · exact ⟨b, hb, mutation, hmutation, by simp [hkey]⟩
        · exact ⟨b, hb, mutation, hmutation, by simp [hkey]⟩
      · rintro ⟨b, hb, mutation, hmutation, hkey⟩
        rcases List.mem_cons.mp hkey with hkey | hkey
        · exact .inl ⟨b, hb, mutation, hmutation, hkey⟩
        · exact .inr ⟨b, hb, mutation, hmutation, hkey⟩

theorem allMutationBatchesAffectingDocumentKeys_eq
    (h : Represents t.commit batches tokens documents) (keys : List DocumentKey) :
    queue.allMutationBatchesAffectingDocumentKeys t keys =
      .ok ((batches.ofUser queue.user_id).filter fun b =>
        b.mutations.any fun mutation => mutation.key ∈ keys) := by
  obtain ⟨it, ids, hfold, hids⟩ :=
    exists_collectDocuments queue h keys (LevelDbTransaction.Iterator.create t) SortedMap.empty
  simp only [allMutationBatchesAffectingDocumentKeys, hfold, Bind.bind, Except.bind]
  apply withIds_eq h
  intro id
  rw [hids]
  have hempty : (SortedMap.get (SortedMap.empty : BatchIds) id).isSome = false := rfl
  simp [hempty]

theorem allMutationBatchesAffectingQuery_eq (h : Represents t.commit batches tokens documents)
    {query : Query} (hquery : (query.isDocumentQuery || query.isCollectionGroupQuery) = false) :
    queue.allMutationBatchesAffectingQuery t query =
      .ok ((batches.ofUser queue.user_id).filter fun b => b.mutations.any fun mutation =>
        query.path.isPrefixOf mutation.key.path &&
          decide (mutation.key.path.length = query.path.length + 1)) := by
  obtain ⟨hdocument, hgroup⟩ := Bool.or_eq_false_iff.mp hquery
  obtain ⟨it, ids, hscan, hids⟩ := exists_scan_children h queue.user_id query.path
    (query.path.length + 1) (LevelDbTransaction.Iterator.create t) SortedMap.empty
  simp only [allMutationBatchesAffectingQuery, hdocument, hgroup, hardAssert, Bool.not_false,
    if_true, pathKeyPrefix_eq, hscan, Bind.bind, Except.bind]
  apply withIds_eq h
  intro id
  rw [hids]
  have hempty : (SortedMap.get (SortedMap.empty : BatchIds) id).isSome = false := rfl
  simp [hempty]

/-- A query for one document, or for the collections with an id, is not answered. -/
theorem allMutationBatchesAffectingQuery_eq_error {query : Query}
    (hquery : (query.isDocumentQuery || query.isCollectionGroupQuery) = true) :
    queue.allMutationBatchesAffectingQuery t query = .error .hardAssert := by
  rcases Bool.eq_false_or_eq_true query.isDocumentQuery with hdocument | hdocument
  · simp only [allMutationBatchesAffectingQuery, hdocument, hardAssert]
    rfl
  · rw [hdocument, Bool.false_or] at hquery
    simp only [allMutationBatchesAffectingQuery, hdocument, hquery, hardAssert]
    rfl

theorem performConsistencyCheck_eq (queue : LevelDbMutationQueue)
    (h : Represents t.commit batches tokens documents) :
    queue.performConsistencyCheck t = .ok () := by
  have hstarts : LevelDbDocumentMutationKey.userKeyPrefix queue.user_id =
      .ok (userPrefix kDocumentMutationsTable queue.user_id) :=
    ((writes_labeledString .tableName _).seq (writes_labeledString .userId _)).result
  simp only [performConsistencyCheck, isEmpty_eq h, Bind.bind, Except.bind]
  cases hempty : (batches.ofUser queue.user_id).isEmpty with
  | false => rfl
  | true =>
    obtain ⟨it, hscan⟩ := LevelDbTransaction.Iterator.scan_filter (s := [])
      (LevelDbTransaction.Iterator.create t) (t := t)
      (p := userPrefix kDocumentMutationsTable queue.user_id)
      (c := fun row => (userPrefix kDocumentMutationsTable queue.user_id).isPrefixOf row.1)
      (f := fun keys row => keys ++ [row.1])
      (fun row _ keys => by
        show collectKey (userPrefix kDocumentMutationsTable queue.user_id) row keys = _
        unfold collectKey
        split <;> rfl)
      (fun row _ hrow => List.isPrefixOf_iff_prefix.mp hrow)
      (fun row _ row' _ hrow _ _ => List.isPrefixOf_iff_prefix.mpr hrow)
    have hnone : t.commit.entries.filter (fun row =>
        (userPrefix kDocumentMutationsTable queue.user_id).isPrefixOf row.1) = [] := by
      rw [List.filter_eq_nil_iff]
      intro row hrow huser
      rw [List.isPrefixOf_iff_prefix] at huser
      obtain ⟨r, b, hkey, -, hb, -⟩ :=
        exists_index_row h hrow ((tablePrefix_userPrefix _).trans huser)
      rw [hkey, userPrefix_documentMutationKey] at huser
      have hmem : b ∈ batches.ofUser queue.user_id := mem_ofUser.mpr ⟨r.batch_id, huser ▸ hb⟩
      rw [List.isEmpty_iff] at hempty
      rw [hempty] at hmem
      cases hmem
    rw [hnone] at hscan
    simp only [hstarts, if_true, hscan]
    rfl

end LevelDbMutationQueue

end LevelDb

end GasNow
