import GasNow.Firestore.LevelDbMutationQueue

/-!
# The rows of the mutation queues

## Main definitions

- `KeyClass.code`, the key of a row
- `Holds`, what is said of the batches, tokens and documents in a table
- `Represents`, a table in which each mutation has its row in the index
-/

namespace GasNow

namespace LevelDb

open Codes OrderedCode Reader Stores

section Keys

/-- The key of a row. -/
def KeyClass.code (K : KeyClass) (row : K.Row) : Key :=
  textCode .tableName K.table ++ K.columns row

variable {K : KeyClass} {row row' : K.Row} {label : ComponentLabel} {a b s t : List Byte}

theorem KeyClass.key_eq_code (K : KeyClass) (row : K.Row) : K.key row = .ok (K.code row) :=
  K.key_eq row

theorem KeyClass.code_lt_iff : K.code row < K.code row' ↔ K.lt row row' := by
  have h : textCode .tableName K.table ++ (K.columns row ++ []) <
      textCode .tableName K.table ++ (K.columns row' ++ []) ↔ _ := K.key_lt_iff (s := []) (t := [])
  simpa [KeyClass.code] using h

theorem KeyClass.code_injective (K : KeyClass) : Function.Injective K.code := by
  have htrichotomous := K.trichotomous
  exact (K.ordered.append_left _).injective

theorem KeyClass.decode_code (K : KeyClass) (row : K.Row) (h : K.IsRow row) :
    K.decode (K.code row) = .ok (some row) :=
  (K.decode_eq_some _ _).mpr ⟨h, [], by simp [KeyClass.code]⟩

/-- The end of a string can be seen in it. -/
theorem textCode_append_inj (h : textCode label a ++ s = textCode label b ++ t) :
    a = b ∧ s = t := by
  have hleft : Reads (readLabeledString label) (textCode label a ++ s) a s :=
    reads_readLabeledString.mpr rfl
  have hright : Reads (readLabeledString label) (textCode label a ++ s) b t :=
    reads_readLabeledString.mpr h
  cases hleft.symm.trans hright
  exact ⟨rfl, rfl⟩

theorem textCode_append_prefix_iff :
    textCode label a ++ s <+: textCode label b ++ t ↔ a = b ∧ s <+: t := by
  constructor
  · rintro ⟨u, h⟩
    rw [List.append_assoc] at h
    obtain ⟨rfl, rfl⟩ := textCode_append_inj h
    exact ⟨rfl, List.prefix_append s u⟩
  · rintro ⟨rfl, h⟩
    exact (List.prefix_append_right_inj _).mpr h

theorem textCode_prefix_iff : textCode label a <+: textCode label b ++ t ↔ a = b := by
  have h : textCode label a ++ [] <+: textCode label b ++ t ↔ _ := textCode_append_prefix_iff
  rw [List.append_nil] at h
  rw [h]
  exact and_iff_left List.nil_prefix

theorem labelCode_append_inj {label label' : ComponentLabel}
    (h : labelCode label ++ s = labelCode label' ++ t) : label = label' ∧ s = t := by
  have hleft := readSignedNumIncreasing_numberCode label.value s
  have hright := readSignedNumIncreasing_numberCode label'.value t
  rw [labelCode, labelCode] at h
  rw [h, hright] at hleft
  have hpair := Option.some.inj (Except.ok.inj hleft)
  exact ⟨ComponentLabel.value_injective (congrArg Prod.fst hpair).symm,
    (congrArg Prod.snd hpair).symm⟩

/-- The segments of a path can be seen in what is written of it. -/
theorem pathCode_prefix_iff {label : ComponentLabel} (hlabel : label ≠ .pathSegment)
    (path path' : ResourcePath) (next : List Byte) :
    pathCode path <+: pathCode path' ++ (labelCode label ++ next) ↔ path <+: path' := by
  induction path generalizing path' with
  | nil => exact iff_of_true List.nil_prefix List.nil_prefix
  | cons segment path ih =>
    have hcode : pathCode (segment :: path) = textCode .pathSegment segment ++ pathCode path := by
      simp [pathCode]
    rw [hcode]
    cases path' with
    | nil =>
      refine iff_of_false ?_ (by simp)
      rintro ⟨u, h⟩
      have hsame : labelCode .pathSegment ++ (stringCode segment ++ pathCode path ++ u) =
          labelCode label ++ next := by
        have hnil : pathCode [] = [] := rfl
        rw [hnil, List.nil_append] at h
        rw [← h, textCode]
        simp
      exact hlabel (labelCode_append_inj hsame).1.symm
    | cons segment' path' =>
      have hcode' : pathCode (segment' :: path') =
          textCode .pathSegment segment' ++ pathCode path' := by
        simp [pathCode]
      rw [hcode', List.append_assoc, textCode_append_prefix_iff, ih, List.cons_prefix_cons]

end Keys

section Tables

variable {μ : Type}

def mutationKey (user_id : List Byte) (batch_id : Int32) : Key :=
  LevelDbMutationKey.keyClass.code ⟨user_id, batch_id⟩

def documentMutationKey (row : LevelDbDocumentMutationKey) : Key :=
  LevelDbDocumentMutationKey.keyClass.code row

def mutationQueueKey (user_id : List Byte) : Key :=
  LevelDbMutationQueueKey.keyClass.code ⟨user_id⟩

def remoteDocumentKey (document_key : DocumentKey) : Key :=
  LevelDbRemoteDocumentKey.keyClass.code ⟨document_key⟩

theorem LevelDbMutationQueue.mutationBatchKey_eq (queue : LevelDbMutationQueue)
    (batch_id : Int32) :
    queue.mutationBatchKey batch_id = .ok (mutationKey queue.user_id batch_id) :=
  LevelDbMutationKey.keyClass.key_eq_code ⟨queue.user_id, batch_id⟩

theorem documentMutationKey_eq (row : LevelDbDocumentMutationKey) :
    LevelDbDocumentMutationKey.key row = .ok (documentMutationKey row) :=
  LevelDbDocumentMutationKey.keyClass.key_eq_code row

theorem mutationQueueKey_eq (user_id : List Byte) :
    LevelDbMutationQueueKey.key ⟨user_id⟩ = .ok (mutationQueueKey user_id) :=
  LevelDbMutationQueueKey.keyClass.key_eq_code ⟨user_id⟩

theorem remoteDocumentKey_eq (document_key : DocumentKey) :
    LevelDbRemoteDocumentKey.key ⟨document_key⟩ = .ok (remoteDocumentKey document_key) :=
  LevelDbRemoteDocumentKey.keyClass.key_eq_code ⟨document_key⟩

/-- The start of the keys of a table. -/
def tablePrefix (table : List Byte) : Key := textCode .tableName table

/-- The start of the keys of a user in a table. -/
def userPrefix (table user_id : List Byte) : Key :=
  tablePrefix table ++ textCode .userId user_id

/-- The key of the row with the version of the schema. -/
def versionKey : Key := tablePrefix kVersionGlobalTable ++ labelCode .terminator

theorem versionKey_eq : LevelDbVersionKey.key = .ok versionKey :=
  ((writes_labeledString .tableName kVersionGlobalTable).seq writes_terminator).result

/-- The key of the row with what is known of all targets. -/
def targetGlobalKey : Key := tablePrefix kTargetGlobalTable ++ labelCode .terminator

theorem targetGlobalKey_eq : LevelDbTargetGlobalKey.key = .ok targetGlobalKey :=
  ((writes_labeledString .tableName kTargetGlobalTable).seq writes_terminator).result

/-- The batches of all users, each under its user and its id. -/
abbrev Batches (μ : Type) := SortedMap (List Byte ×ₗ Int32) (MutationBatch μ)

/-- The batches of a user, from the oldest one on. -/
def Batches.ofUser (batches : Batches μ) (user_id : List Byte) : List (MutationBatch μ) :=
  (batches.entries.filter fun e => (ofLex e.1).1 = user_id).map Prod.snd

/-- The key starts with the name of a table, and is written for a row if the table is one of
mutations. -/
structure ProperKey (k : Key) : Prop where
  table : ∃ table rest, k = tablePrefix table ++ rest
  mutation : tablePrefix kMutationsTable <+: k → ∃ u id, k = mutationKey u id
  documentMutation : tablePrefix kDocumentMutationsTable <+: k → ∃ row, k = documentMutationKey row

/-- The last stream tokens of the users that have any. -/
abbrev Tokens := SortedMap (List Byte) (List Byte)

/-- The documents as the backend has sent or confirmed them. -/
abbrev Documents := SortedMap DocumentKey MaybeDocument

/-- The mutations table holds precisely the given batches, its index the given rows, the table of
queues the given tokens, and the table of remote documents the given documents. -/
structure Holds (m : SortedMap Key (Message μ)) (batches : Batches μ) (tokens : Tokens)
    (documents : Documents) (indexed : LevelDbDocumentMutationKey → Prop) : Prop where
  batch : ∀ u id, m.get (mutationKey u id) = (batches.get (toLex (u, id))).map .writeBatch
  batch_id : ∀ u id b, batches.get (toLex (u, id)) = some b → b.batch_id = id
  index : ∀ row, (m.get (documentMutationKey row)).isSome ↔ indexed row
  token : ∀ u, m.get (mutationQueueKey u) = (tokens.get u).map .mutationQueue
  document : ∀ d, m.get (remoteDocumentKey d) = (documents.get d).map .remoteDocument
  document_key : ∀ d doc, documents.get d = some doc → doc.key = d
  version : (m.get versionKey).isSome
  proper : ∀ k v, m.get k = some v → ProperKey k

/-- A batch of the row's user with the row's id writes the row's document. -/
def Batches.Indexed (batches : Batches μ) (row : LevelDbDocumentMutationKey) : Prop :=
  ∃ b, batches.get (toLex (row.user_id, row.batch_id)) = some b ∧
    ∃ mutation ∈ b.mutations, mutation.key = row.document_key

/-- The two tables of mutations hold precisely the given batches, and an index of them. -/
abbrev Represents (m : SortedMap Key (Message μ)) (batches : Batches μ) (tokens : Tokens)
    (documents : Documents) : Prop :=
  Holds m batches tokens documents batches.Indexed

variable {m : SortedMap Key (Message μ)} {batches : Batches μ} {tokens : Tokens}
  {documents : Documents} {u u' : List Byte} {id id' : Int32}

theorem mutationKey_lt_iff : mutationKey u id < mutationKey u' id' ↔
    toLex (u, id) < toLex (u', id') :=
  KeyClass.code_lt_iff (K := LevelDbMutationKey.keyClass)

theorem mutationKey_inj : mutationKey u id = mutationKey u' id' ↔ u = u' ∧ id = id' := by
  constructor
  · intro h
    have hrow := LevelDbMutationKey.keyClass.code_injective h
    cases hrow
    exact ⟨rfl, rfl⟩
  · rintro ⟨rfl, rfl⟩
    rfl

theorem userPrefix_mutationKey : userPrefix kMutationsTable u <+: mutationKey u' id ↔ u = u' := by
  unfold userPrefix tablePrefix mutationKey KeyClass.code LevelDbMutationKey.keyClass
  dsimp only
  rw [textCode_append_prefix_iff, List.append_assoc, textCode_prefix_iff]
  exact and_iff_right rfl

theorem userPrefix_le_mutationKey (u : List Byte) (id : Int32) :
    userPrefix kMutationsTable u ≤ mutationKey u id :=
  prefix_le (userPrefix_mutationKey.mpr rfl)

theorem tablePrefix_userPrefix (table : List Byte) : tablePrefix table <+: userPrefix table u :=
  List.prefix_append _ _

theorem userKeyPrefix_eq (u : List Byte) :
    LevelDbMutationKey.userKeyPrefix u = .ok (userPrefix kMutationsTable u) :=
  ((writes_labeledString .tableName kMutationsTable).seq (writes_labeledString .userId u)).result

theorem mem_ofUser {b : MutationBatch μ} :
    b ∈ batches.ofUser u ↔ ∃ id, batches.get (toLex (u, id)) = some b := by
  unfold Batches.ofUser
  rw [List.mem_map]
  constructor
  · rintro ⟨e, he, rfl⟩
    obtain ⟨hmem, hu⟩ := List.mem_filter.mp he
    obtain rfl : (ofLex e.1).1 = u := by simpa using hu
    exact ⟨(ofLex e.1).2, SortedMap.mem_entries.mp hmem⟩
  · rintro ⟨id, hget⟩
    exact ⟨(toLex (u, id), b),
      List.mem_filter.mpr ⟨SortedMap.get_eq_some_iff.mp hget, by simp⟩, rfl⟩

theorem pairwise_ofUser (h : Represents m batches tokens documents) (u : List Byte) :
    (batches.ofUser u).Pairwise fun b b' => b.batch_id < b'.batch_id := by
  unfold Batches.ofUser
  rw [List.pairwise_map]
  refine (batches.sorted.filter _).imp_of_mem ?_
  intro e e' he he' hlt
  obtain ⟨hmem, hu⟩ := List.mem_filter.mp he
  obtain ⟨hmem', hu'⟩ := List.mem_filter.mp he'
  have hid := h.batch_id _ _ _ (SortedMap.mem_entries.mp hmem)
  have hid' := h.batch_id _ _ _ (SortedMap.mem_entries.mp hmem')
  rw [hid, hid']
  rw [Prod.Lex.lt_iff] at hlt
  rcases hlt with hlt | ⟨-, hlt⟩
  · simp only [decide_eq_true_eq] at hu hu'
    rw [hu, hu'] at hlt
    exact absurd hlt (lt_irrefl u)
  · exact hlt

/-- The start of the index rows of the documents at a path and below it. -/
def documentPrefix (user_id : List Byte) (path : ResourcePath) : Key :=
  userPrefix kDocumentMutationsTable user_id ++ pathCode path

theorem pathKeyPrefix_eq (u : List Byte) (path : ResourcePath) :
    LevelDbDocumentMutationKey.pathKeyPrefix u path = .ok (documentPrefix u path) := by
  have hwrites := (writes_labeledString .tableName kDocumentMutationsTable).seq
    ((writes_labeledString .userId u).seq (writes_resourcePath path))
  refine hwrites.result.trans ?_
  simp [documentPrefix, userPrefix, tablePrefix]

theorem documentPrefix_iff {path : ResourcePath} {row : LevelDbDocumentMutationKey} :
    documentPrefix u path <+: documentMutationKey row ↔
      u = row.user_id ∧ path <+: row.document_key.path := by
  unfold documentPrefix userPrefix tablePrefix documentMutationKey KeyClass.code
    LevelDbDocumentMutationKey.keyClass
  dsimp only
  simp only [List.append_assoc, textCode_append_prefix_iff, true_and]
  rw [pathCode_prefix_iff (by decide)]

theorem userPrefix_documentMutationKey {row : LevelDbDocumentMutationKey} :
    userPrefix kDocumentMutationsTable u <+: documentMutationKey row ↔ u = row.user_id := by
  have h : documentPrefix u [] <+: documentMutationKey row ↔ _ := documentPrefix_iff
  have hnil : documentPrefix u [] = userPrefix kDocumentMutationsTable u := List.append_nil _
  rw [hnil] at h
  rw [h]
  exact and_iff_left List.nil_prefix

theorem documentMutationKey_lt_iff {row row' : LevelDbDocumentMutationKey} :
    documentMutationKey row < documentMutationKey row' ↔
      Prod.Lex (· < ·) (Prod.Lex (· < ·) (· < ·))
        (row.user_id, row.document_key.path, row.batch_id)
        (row'.user_id, row'.document_key.path, row'.batch_id) :=
  KeyClass.code_lt_iff (K := LevelDbDocumentMutationKey.keyClass)

/-- Between the index row of a document and rows of documents below it there is no other. -/
theorem document_eq_of_lt {row row' : LevelDbDocumentMutationKey}
    (huser : row.user_id = row'.user_id)
    (hstarts : row'.document_key.path <+: row.document_key.path)
    (hlt : documentMutationKey row < documentMutationKey row') :
    row.document_key = row'.document_key := by
  obtain ⟨u, ⟨path, heven⟩, id⟩ := row
  obtain ⟨u', ⟨path', heven'⟩, id'⟩ := row'
  obtain rfl : u = u' := huser
  have hle : path' ≤ path := prefix_le hstarts
  have hcolumns := documentMutationKey_lt_iff.mp hlt
  cases hcolumns with
  | left _ _ hu => exact absurd hu (lt_irrefl u)
  | right _ hrest =>
    cases hrest with
    | left _ _ hpath => exact absurd hpath hle.not_gt
    | right _ _ => rfl

theorem exists_batch_row (h : Represents m batches tokens documents) {row : Key × Message μ}
    (hrow : row ∈ m.entries) (hstarts : tablePrefix kMutationsTable <+: row.1) :
    ∃ u id b, row = (mutationKey u id, .writeBatch b) ∧ batches.get (toLex (u, id)) = some b := by
  obtain ⟨k, v⟩ := row
  have hget : m.get k = some v := SortedMap.get_eq_some_iff.mpr hrow
  obtain ⟨u, id, rfl⟩ := (h.proper k v hget).mutation hstarts
  rw [h.batch] at hget
  obtain ⟨b, hb, rfl⟩ := Option.map_eq_some_iff.mp hget
  exact ⟨u, id, b, rfl, hb⟩

/-- The rows of a user. -/
theorem mem_user_rows (h : Represents m batches tokens documents) {row : Key × Message μ} :
    row ∈ m.entries ∧ userPrefix kMutationsTable u <+: row.1 ↔
      ∃ id b, row = (mutationKey u id, .writeBatch b) ∧ batches.get (toLex (u, id)) = some b := by
  constructor
  · rintro ⟨hrow, hstarts⟩
    obtain ⟨u', id, b, rfl, hget⟩ :=
      exists_batch_row h hrow ((tablePrefix_userPrefix _).trans hstarts)
    obtain rfl := userPrefix_mutationKey.mp hstarts
    exact ⟨id, b, rfl, hget⟩
  · rintro ⟨id, b, rfl, hget⟩
    refine ⟨SortedMap.get_eq_some_iff.mp ?_, userPrefix_mutationKey.mpr rfl⟩
    rw [h.batch, hget]
    rfl

/-- What a key of any table is decoded to in the mutations table. -/
theorem exists_decode (h : Represents m batches tokens documents) {row : Key × Message μ}
    (hget : m.get row.1 = some row.2) :
    LevelDbMutationKey.decode row.1 = .ok none ∧ (∀ u, ¬userPrefix kMutationsTable u <+: row.1) ∨
      ∃ u id b, LevelDbMutationKey.decode row.1 = .ok (some ⟨u, id⟩) ∧
        row = (mutationKey u id, .writeBatch b) ∧ batches.get (toLex (u, id)) = some b := by
  obtain ⟨k, v⟩ := row
  obtain ⟨table, rest, hkey⟩ := (h.proper _ _ hget).table
  dsimp only at hkey ⊢
  by_cases htable : table = kMutationsTable
  · subst htable
    have hstarts : tablePrefix kMutationsTable <+: k := ⟨rest, hkey.symm⟩
    obtain ⟨u, id, b, hrow, hb⟩ := exists_batch_row h (SortedMap.get_eq_some_iff.mp hget) hstarts
    have hdecode := LevelDbMutationKey.keyClass.decode_code ⟨u, id⟩ trivial
    cases hrow
    exact .inr ⟨u, id, b, hdecode, rfl, hb⟩
  · left
    constructor
    · rw [hkey]
      exact LevelDbMutationKey.keyClass.decode_other _ _ htable
    · intro u hstarts
      rw [hkey] at hstarts
      have hother := (tablePrefix_userPrefix (u := u) kMutationsTable).trans hstarts
      exact htable (textCode_prefix_iff.mp hother).symm

end Tables

end LevelDb

end GasNow
