import GasNow.Firestore.MutationWrites

/-!
# The id of the next batch

When a queue starts, it looks for the largest id of all batches in the database: from user to user
it jumps behind the user's rows and takes the id of the row in front.
-/

namespace GasNow

namespace LevelDb

open Codes OrderedCode Stores

variable {μ : Type} {m : SortedMap Key (Message μ)} {batches : Batches μ} {tokens : Tokens}
  {documents : Documents} {u u' : List Byte} {id n n' : Int32} {b : MutationBatch μ}

/-- The largest id of all batches, or 0. -/
def Batches.maxId (batches : Batches μ) : Int32 :=
  batches.entries.foldl (fun n e => max n (ofLex e.1).2) 0

/-- The end of a user's rows is where other rows start. -/
theorem lt_userEnd_iff {k : Key} (hk : userPrefix kMutationsTable u ≤ k) :
    k < prefixSuccessor (userPrefix kMutationsTable u) ↔ userPrefix kMutationsTable u <+: k := by
  apply lt_prefixSuccessor_iff _ hk
  refine ⟨0x85, ?_, by decide⟩
  have hlabel : labelCode .tableName = [0x85] := by decide
  rw [userPrefix, tablePrefix, textCode, hlabel]
  simp

section MaxId

theorem foldl_max_spec {β : Type} (f : β → Int32) (l : List β) (n : Int32) :
    n ≤ l.foldl (fun n e => max n (f e)) n ∧ (∀ e ∈ l, f e ≤ l.foldl (fun n e => max n (f e)) n) ∧
      (l.foldl (fun n e => max n (f e)) n = n ∨
        ∃ e ∈ l, l.foldl (fun n e => max n (f e)) n = f e) := by
  induction l generalizing n with
  | nil => exact ⟨le_rfl, by simp, .inl rfl⟩
  | cons e l ih =>
    obtain ⟨hle, hall, hmem⟩ := ih (max n (f e))
    rw [List.foldl_cons]
    refine ⟨(le_max_left _ _).trans hle, ?_, ?_⟩
    · intro e' he'
      rcases List.mem_cons.mp he' with rfl | he'
      · exact (le_max_right _ _).trans hle
      · exact hall e' he'
    · rcases hmem with heq | ⟨e', he', heq⟩
      · rw [heq]
        rcases max_choice n (f e) with hmax | hmax
        · exact .inl hmax
        · exact .inr ⟨e, List.mem_cons_self, hmax⟩
      · exact .inr ⟨e', List.mem_cons_of_mem _ he', heq⟩

theorem le_maxId (hget : batches.get (toLex (u, id)) = some b) : id ≤ batches.maxId :=
  (foldl_max_spec (fun e : (List Byte ×ₗ Int32) × MutationBatch μ => (ofLex e.1).2) batches.entries
    0).2.1 (toLex (u, id), b) (SortedMap.get_eq_some_iff.mp hget)

theorem zero_le_maxId (batches : Batches μ) : 0 ≤ batches.maxId :=
  (foldl_max_spec (fun e : (List Byte ×ₗ Int32) × MutationBatch μ => (ofLex e.1).2) batches.entries
    0).1

theorem maxId_eq_zero_or (batches : Batches μ) :
    batches.maxId = 0 ∨ ∃ u id b, batches.get (toLex (u, id)) = some b ∧ batches.maxId = id := by
  rcases (foldl_max_spec (fun e : (List Byte ×ₗ Int32) × MutationBatch μ => (ofLex e.1).2)
    batches.entries 0).2.2 with hzero | ⟨e, he, hid⟩
  · exact .inl hzero
  · exact .inr ⟨(ofLex e.1).1, (ofLex e.1).2, e.2, SortedMap.mem_entries.mp he, hid⟩

theorem eq_maxId (hzero : 0 ≤ n)
    (hle : ∀ u id b, batches.get (toLex (u, id)) = some b → id ≤ n)
    (hmem : n = 0 ∨ ∃ u id b, batches.get (toLex (u, id)) = some b ∧ n = id) :
    n = batches.maxId := by
  apply le_antisymm
  · rcases hmem with rfl | ⟨u, id, b, hget, rfl⟩
    · exact zero_le_maxId batches
    · exact le_maxId hget
  · rcases maxId_eq_zero_or batches with hmax | ⟨u, id, b, hget, hmax⟩
    · rw [hmax]
      exact hzero
    · rw [hmax]
      exact hle u id b hget

end MaxId

namespace LevelDbMutationQueue

theorem mutationKey_lt_userEnd (u : List Byte) (id : Int32) :
    mutationKey u id < prefixSuccessor (userPrefix kMutationsTable u) :=
  (lt_userEnd_iff (userPrefix_le_mutationKey u id)).mpr (userPrefix_mutationKey.mpr rfl)

/-- The row with the largest id of a user is in front of the end of the user's rows. -/
theorem exists_last_of_user (h : Represents m batches tokens documents)
    (hb : batches.get (toLex (u, id)) = some b) :
    ∃ id' b', m.last (fun key => key < prefixSuccessor (userPrefix kMutationsTable u)) =
        some (mutationKey u id', .writeBatch b') ∧
      batches.get (toLex (u, id')) = some b' ∧
      ∀ id'' b'', batches.get (toLex (u, id'')) = some b'' → id'' ≤ id' := by
  have hend : ∀ id, mutationKey u id < prefixSuccessor (userPrefix kMutationsTable u) :=
    mutationKey_lt_userEnd u
  obtain ⟨e, hlast, hget, hlt, hgreatest⟩ :=
    SortedMap.exists_last
      (q := fun key => key < prefixSuccessor (userPrefix kMutationsTable u))
      (get_mutationKey h hb) (decide_eq_true (hend id))
  have hle := (userPrefix_le_mutationKey u id).trans
    (hgreatest _ _ (get_mutationKey h hb) (decide_eq_true (hend id)))
  have hstarts := (lt_userEnd_iff hle).mp (of_decide_eq_true hlt)
  obtain ⟨id', b', rfl, hb'⟩ :=
    (mem_user_rows h).mp ⟨SortedMap.mem_entries.mpr hget, hstarts⟩
  refine ⟨id', b', hlast, hb', fun id'' b'' hb'' => ?_⟩
  have hle' := hgreatest _ _ (get_mutationKey h hb'') (decide_eq_true (hend id''))
  rw [← not_lt, mutationKey_lt_iff, Prod.Lex.lt_iff, not_or] at hle'
  exact not_lt.mp fun hlt => hle'.2 ⟨rfl, hlt⟩

theorem mutationKey_lt_of_lt (hlt : u < u') (id id' : Int32) :
    mutationKey u id < mutationKey u' id' :=
  mutationKey_lt_iff.mpr (Prod.Lex.lt_iff.mpr (.inl hlt))

/-- The rows of later users are behind the end of a user's rows. -/
theorem userEnd_le (hlt : u < u') (id : Int32) :
    prefixSuccessor (userPrefix kMutationsTable u) ≤ mutationKey u' id := by
  rw [← not_lt, lt_userEnd_iff, userPrefix_mutationKey]
  · exact hlt.ne
  · exact (userPrefix_le_mutationKey u 0).trans (mutationKey_lt_of_lt hlt 0 id).le

theorem exists_boundary (h : Represents m batches tokens documents)
    (hb : batches.get (toLex (u, id)) = some b) :
    ∃ more id' b', boundary m (prefixSuccessor (userPrefix kMutationsTable u)) =
        .ok (more, some (mutationKey u id', .writeBatch b')) ∧
      batches.get (toLex (u, id')) = some b' ∧
      (∀ id'' b'', batches.get (toLex (u, id'')) = some b'' → id'' ≤ id') ∧
      (more = none → ∀ u' id b, batches.get (toLex (u', id)) = some b → u' ≤ u) ∧
      ∀ u1, more = some u1 → u < u1 ∧ (∃ id b, batches.get (toLex (u1, id)) = some b) ∧
        ∀ u' id b, batches.get (toLex (u', id)) = some b → u < u' → u1 ≤ u' := by
  obtain ⟨id', b', hlast, hb', hgreatest⟩ := exists_last_of_user h hb
  unfold boundary
  cases hlower : m.lowerBound (prefixSuccessor (userPrefix kMutationsTable u)) with
  | none =>
    have hall : m.last (fun _ => true) =
        m.last fun key => key < prefixSuccessor (userPrefix kMutationsTable u) := by
      apply SortedMap.last_congr
      intro k v hget
      rw [eq_comm, decide_eq_true_eq]
      exact SortedMap.lt_of_lowerBound_eq_none hlower hget
    refine ⟨none, id', b', by rw [hall, hlast], hb', hgreatest, fun _ u1 id1 b1 hb1 => ?_, ?_⟩
    · rw [← not_lt]
      intro hlt
      exact (userEnd_le hlt id1).not_gt
        (SortedMap.lt_of_lowerBound_eq_none hlower (get_mutationKey h hb1))
    · intro u1 hmore
      cases hmore
  | some row =>
    obtain ⟨hget, hle, -⟩ := SortedMap.lowerBound_eq_some_iff.mp hlower
    have hbefore : m.last (fun key => key < row.1) =
        m.last fun key => key < prefixSuccessor (userPrefix kMutationsTable u) :=
      SortedMap.last_of_lowerBound hlower (by simp) (by simp)
    -- the rows of later users are not in front of this row
    have hrow : ∀ u1 id1 b1, batches.get (toLex (u1, id1)) = some b1 → u < u1 →
        row.1 ≤ mutationKey u1 id1 := by
      intro u1 id1 b1 hb1 hlt
      exact SortedMap.le_of_lowerBound_eq_some hlower (get_mutationKey h hb1) (userEnd_le hlt id1)
    rcases exists_decode h hget with ⟨hdecode, hother⟩ | ⟨u2, id2, b2, hdecode, rfl, hb2⟩
    · refine ⟨none, id', b', ?_, hb', hgreatest, fun _ u1 id1 b1 hb1 => ?_, ?_⟩
      · simp only [hdecode, hbefore, hlast, Bind.bind, Except.bind]
        rfl
      · rw [← not_lt]
        intro hlt
        have htable : tablePrefix kMutationsTable ≤ row.1 :=
          (prefix_le (tablePrefix_userPrefix kMutationsTable)).trans
            ((userPrefix_le_mutationKey u 0).trans ((mutationKey_lt_userEnd u 0).le.trans hle))
        have hstarts := prefix_of_le_of_le htable (hrow u1 id1 b1 hb1 hlt)
          ((tablePrefix_userPrefix kMutationsTable).trans (userPrefix_mutationKey.mpr rfl))
        obtain ⟨u2, id2, hkey⟩ := (h.proper _ _ hget).mutation hstarts
        exact hother u2 (by rw [hkey]; exact userPrefix_mutationKey.mpr rfl)
      · intro u1 hmore
        cases hmore
    · refine ⟨some u2, id', b', ?_, hb', hgreatest, (fun hmore => by cases hmore), ?_⟩
      · simp only [hdecode, hbefore, hlast, Bind.bind, Except.bind]
        rfl
      · intro u1 hmore
        cases hmore
        refine ⟨?_, ⟨id2, b2, hb2⟩, fun u3 id3 b3 hb3 hlt => ?_⟩
        · rw [← not_le]
          intro hle'
          rcases hle'.lt_or_eq with hlt | rfl
          · exact absurd hle ((mutationKey_lt_of_lt hlt id2 0).trans
              (mutationKey_lt_userEnd u 0)).not_ge
          · exact absurd hle (mutationKey_lt_userEnd u2 id2).not_ge
        · rw [← not_lt]
          intro hlt'
          exact (hrow u3 id3 b3 hb3 hlt).not_gt (mutationKey_lt_of_lt hlt' id3 id2)

theorem userPrefix_lt_of_lt (hlt : u < u') :
    userPrefix kMutationsTable u < userPrefix kMutationsTable u' :=
  ((ordered_textCode .userId).append_left _ hlt).lt

/-- Fewer rows are left behind the start of a later user. -/
theorem length_filter_lt (h : Represents m batches tokens documents)
    (hb : batches.get (toLex (u, id)) = some b) (hlt : u < u') :
    (m.entries.filter fun e => userPrefix kMutationsTable u' ≤ e.1).length <
      (m.entries.filter fun e => userPrefix kMutationsTable u ≤ e.1).length := by
  have hsublist : (m.entries.filter fun e => userPrefix kMutationsTable u' ≤ e.1).Sublist
      (m.entries.filter fun e => userPrefix kMutationsTable u ≤ e.1) := by
    apply List.monotone_filter_right
    intro e hle
    rw [decide_eq_true_eq] at hle ⊢
    exact (userPrefix_lt_of_lt hlt).le.trans hle
  apply lt_of_le_of_ne hsublist.length_le
  intro hlength
  have hmem : (mutationKey u id, Message.writeBatch b) ∈
      m.entries.filter fun e => userPrefix kMutationsTable u ≤ e.1 :=
    List.mem_filter.mpr ⟨SortedMap.get_eq_some_iff.mp (get_mutationKey h hb),
      decide_eq_true (userPrefix_le_mutationKey u id)⟩
  rw [← hsublist.eq_of_length hlength] at hmem
  have hle := of_decide_eq_true (List.mem_filter.mp hmem).2
  have hstarts := prefix_of_le_of_le hle (mutationKey_lt_of_lt hlt id 0).le
    (userPrefix_mutationKey.mpr rfl)
  exact hlt.ne' (userPrefix_mutationKey.mp hstarts)

theorem exists_loadMaxBatchId (h : Represents m batches tokens documents) {fuel : Nat}
    (hb : ∃ id b, batches.get (toLex (u, id)) = some b)
    (hfuel : (m.entries.filter fun e => userPrefix kMutationsTable u ≤ e.1).length < fuel) :
    ∃ n', loadMaxBatchId m fuel u n = .ok n' ∧ n ≤ n' ∧
      (∀ u' id b, batches.get (toLex (u', id)) = some b → u ≤ u' → id ≤ n') ∧
      (n' = n ∨ ∃ u' id b, batches.get (toLex (u', id)) = some b ∧ n' = id) := by
  induction fuel generalizing u n with
  | zero => exact absurd hfuel (Nat.not_lt_zero _)
  | succ fuel ih =>
    obtain ⟨id, b, hb⟩ := hb
    obtain ⟨more, id', b', hboundary, hb', hgreatest, hnone, hsome⟩ := exists_boundary h hb
    have hdecode : LevelDbMutationKey.decode (mutationKey u id') = .ok (some ⟨u, id'⟩) :=
      LevelDbMutationKey.keyClass.decode_code ⟨u, id'⟩ trivial
    have hmax : (if n < id' then id' else n) = max n id' := by
      split
      · next hlt => exact (max_eq_right hlt.le).symm
      · next hlt => exact (max_eq_left (not_lt.mp hlt)).symm
    unfold loadMaxBatchId
    simp only [userKeyPrefix_eq, hboundary, hdecode, hmax, unwrap, Bind.bind, Except.bind]
    cases more with
    | none =>
      refine ⟨_, rfl, le_max_left _ _, fun u1 id1 b1 hb1 hle => ?_, ?_⟩
      · obtain rfl := le_antisymm hle (hnone rfl u1 id1 b1 hb1)
        exact (hgreatest id1 b1 hb1).trans (le_max_right _ _)
      · rcases max_choice n id' with heq | heq
        · exact .inl heq
        · exact .inr ⟨u, id', b', hb', heq⟩
    | some u1 =>
      obtain ⟨hlt, hb1, hnext⟩ := hsome u1 rfl
      obtain ⟨n', hload, hle, hall, hmem⟩ := ih (n := max n id') hb1
        ((length_filter_lt h hb hlt).trans_le (Nat.le_of_lt_succ hfuel))
      refine ⟨n', hload, (le_max_left _ _).trans hle, fun u2 id2 b2 hb2 hle2 => ?_, ?_⟩
      · rcases hle2.lt_or_eq with hlt2 | rfl
        · exact hall u2 id2 b2 hb2 (hnext u2 id2 b2 hb2 hlt2)
        · exact (hgreatest id2 b2 hb2).trans ((le_max_right _ _).trans hle)
      · rcases hmem with rfl | hmem
        · rcases max_choice n id' with heq | heq
          · exact .inl heq
          · exact .inr ⟨u, id', b', hb', heq⟩
        · exact .inr hmem

/-- The next id is one more than the largest id of all batches. -/
theorem loadNextBatchIdFromDb_eq (h : Represents m batches tokens documents) :
    loadNextBatchIdFromDb m = increment batches.maxId := by
  have hstarts : LevelDbMutationKey.keyPrefix = .ok (tablePrefix kMutationsTable) :=
    (writes_labeledString .tableName kMutationsTable).result
  have htable : ∀ u id, tablePrefix kMutationsTable ≤ mutationKey u id := fun u id =>
    prefix_le ((tablePrefix_userPrefix kMutationsTable).trans (userPrefix_mutationKey.mpr rfl))
  have hempty : (∀ u id b, batches.get (toLex (u, id)) ≠ some b) → batches.maxId = 0 := by
    intro hnone
    rcases maxId_eq_zero_or batches with hzero | ⟨u, id, b, hb, -⟩
    · exact hzero
    · exact absurd hb (hnone u id b)
  simp only [loadNextBatchIdFromDb, hstarts, Bind.bind, Except.bind]
  cases hlower : m.lowerBound (tablePrefix kMutationsTable) with
  | none =>
    rw [hempty]
    intro u id b hb
    exact (htable u id).not_gt
      (SortedMap.lt_of_lowerBound_eq_none hlower (get_mutationKey h hb))
  | some row =>
    obtain ⟨hget, hle, -⟩ := SortedMap.lowerBound_eq_some_iff.mp hlower
    have hrow : ∀ u id b, batches.get (toLex (u, id)) = some b → row.1 ≤ mutationKey u id := by
      intro u id b hb
      exact SortedMap.le_of_lowerBound_eq_some hlower (get_mutationKey h hb) (htable u id)
    rcases exists_decode h hget with ⟨hdecode, hother⟩ | ⟨u, id, b, hdecode, rfl, hb⟩
    · dsimp only
      rw [hdecode, hempty]
      intro u id b hb
      have hrow_prefix := prefix_of_le_of_le hle (hrow u id b hb)
        ((tablePrefix_userPrefix kMutationsTable).trans (userPrefix_mutationKey.mpr rfl))
      obtain ⟨u', id', hkey⟩ := (h.proper _ _ hget).mutation hrow_prefix
      exact hother u' (by rw [hkey]; exact userPrefix_mutationKey.mpr rfl)
    · obtain ⟨n, hload, hzero, hall, hmem⟩ := exists_loadMaxBatchId h (n := 0) ⟨id, b, hb⟩
        (Nat.lt_succ_of_le (List.length_filter_le _ _))
      dsimp only
      rw [hdecode]
      dsimp only
      rw [hload, eq_maxId hzero _ hmem]
      intro u1 id1 b1 hb1
      apply hall u1 id1 b1 hb1
      rw [← not_lt]
      intro hlt
      exact (hrow u1 id1 b1 hb1).not_gt (mutationKey_lt_of_lt hlt id1 id)

theorem userEnd_le_versionKey (u : List Byte) :
    prefixSuccessor (userPrefix kMutationsTable u) ≤ versionKey := by
  have hname : kMutationsTable < kVersionGlobalTable := by decide
  have hlt : ∀ s, tablePrefix kMutationsTable ++ s < versionKey := fun s =>
    (((ordered_textCode .tableName) hname).append s _).lt
  rw [← not_lt, lt_userEnd_iff (hlt _).le]
  intro hstarts
  have htable := (tablePrefix_userPrefix kMutationsTable).trans hstarts
  exact absurd (textCode_prefix_iff.mp htable) (by decide)

/-- The row in front of the end of a user's rows is the one of the user's last batch. -/
theorem getHighestUnacknowledgedBatchId_eq (queue : LevelDbMutationQueue)
    (h : Represents m batches tokens documents) :
    queue.getHighestUnacknowledgedBatchId m =
      .ok (((batches.ofUser queue.user_id).getLast?.map fun b => b.batch_id).getD
        kBatchIdUnknown) := by
  generalize hu : queue.user_id = u
  simp only [getHighestUnacknowledgedBatchId, userKeyPrefix_eq, hu, Bind.bind, Except.bind]
  cases hlower : m.lowerBound (prefixSuccessor (userPrefix kMutationsTable u)) with
  | none =>
    obtain ⟨v, hversion⟩ := Option.isSome_iff_exists.mp h.version
    exact absurd (SortedMap.lt_of_lowerBound_eq_none hlower hversion)
      (userEnd_le_versionKey u).not_gt
  | some row =>
    have hbefore : m.last (fun key => key < row.1) =
        m.last fun key => key < prefixSuccessor (userPrefix kMutationsTable u) :=
      SortedMap.last_of_lowerBound hlower (by simp) (by simp)
    dsimp only
    rw [hbefore]
    cases hlist : batches.ofUser u with
    | nil =>
      have hnone : ∀ id b, batches.get (toLex (u, id)) ≠ some b := by
        intro id b hb
        have hmem : b ∈ batches.ofUser u := mem_ofUser.mpr ⟨id, hb⟩
        rw [hlist] at hmem
        cases hmem
      cases hlast : m.last fun key => key < prefixSuccessor (userPrefix kMutationsTable u) with
      | none => rfl
      | some it =>
        rcases exists_decode h (SortedMap.get_of_last hlast) with
          ⟨hdecode, -⟩ | ⟨u', id', b', hdecode, rfl, hb'⟩
        · dsimp only
          rw [hdecode]
          rfl
        · have hne : u' ≠ u := fun huser => hnone id' b' (huser ▸ hb')
          dsimp only
          rw [hdecode]
          dsimp only
          rw [if_neg hne]
          rfl
    | cons b rest =>
      have hb : b ∈ batches.ofUser u := by simp [hlist]
      obtain ⟨id, hget⟩ := mem_ofUser.mp hb
      obtain ⟨id', b', hlast, hb', hgreatest⟩ := exists_last_of_user h hget
      have hdecode : LevelDbMutationKey.decode (mutationKey u id') = .ok (some ⟨u, id'⟩) :=
        LevelDbMutationKey.keyClass.decode_code ⟨u, id'⟩ trivial
      have hid := h.batch_id _ _ _ hb'
      have hmax : (batches.ofUser u).getLast? = some b' := by
        apply getLast?_of_pairwise_lt (pairwise_ofUser h u) (mem_ofUser.mpr ⟨id', hb'⟩)
        intro b'' hb''
        obtain ⟨id'', hget''⟩ := mem_ofUser.mp hb''
        rw [h.batch_id _ _ _ hget'', hid]
        exact hgreatest id'' b'' hget''
      rw [← hlist, hmax, hlast]
      dsimp only
      rw [hdecode]
      dsimp only
      rw [if_pos rfl, Option.map_some, hid]
      rfl

end LevelDbMutationQueue

end LevelDb

end GasNow
