import GasNow.Firestore.OrderedCode
import GasNow.Machine.Runs
import GasNow.Stores.SortedMap
import Mathlib.Data.List.Lex

/-!
# `LevelDbTransaction`: pending changes over a table

A transaction keeps the changes that are to be written to the table, and reads and iterates over
the table as it will be after them. Values are kept as the messages that they are parsed to. LevelDB
is taken to report no error, so that the assertions on its statuses hold.
-/

namespace GasNow

namespace LevelDb

open Machine OrderedCode Stores

abbrev Key := List Byte

instance linearOrder_int32 : LinearOrder Int32 where
  le_refl _ := Int32.le_refl _
  le_trans _ _ _ := Int32.le_trans
  lt_iff_le_not_ge _ _ := by
    rw [Int32.lt_iff_toInt_lt, Int32.le_iff_toInt_le, Int32.le_iff_toInt_le]
    omega
  le_antisymm _ _ := Int32.le_antisymm
  le_total _ _ := Int32.le_total _ _
  toDecidableLE := inferInstance

theorem toInt_add_one {n : Int32} (h : n.toInt + 1 < 2 ^ 31) : (n + 1).toInt = n.toInt + 1 := by
  have hge := n.le_toInt
  rw [Int32.toInt_add]
  exact Int.bmod_eq_of_le (by simp; omega) (by simp; omega)

variable {α : Type}

structure LevelDbTransaction (α : Type) where
  db : SortedMap Key α
  mutations : SortedMap Key α
  deletions : SortedMap Key Unit
  version : Int32
  /-- No change is both. -/
  disjoint : ∀ k v, mutations.get k = some v → deletions.get k = none

namespace LevelDbTransaction

def create (db : SortedMap Key α) : LevelDbTransaction α where
  db := db
  mutations := .empty
  deletions := .empty
  version := 0
  disjoint _ _ h := by cases h

def put (t : LevelDbTransaction α) (key : Key) (value : α) : LevelDbTransaction α where
  db := t.db
  deletions := t.deletions.erase key
  mutations := t.mutations.insert key value
  version := t.version + 1
  disjoint k v h := by
    rw [SortedMap.get_insert] at h
    rw [SortedMap.get_erase]
    split
    · rfl
    · next hk =>
      rw [if_neg hk] at h
      exact t.disjoint k v h

def delete (t : LevelDbTransaction α) (key : Key) : LevelDbTransaction α where
  db := t.db
  deletions := t.deletions.insert key ()
  mutations := t.mutations.erase key
  version := t.version + 1
  disjoint k v h := by
    rw [SortedMap.get_erase] at h
    rw [SortedMap.get_insert]
    split
    · next hk => simp [hk] at h
    · next hk =>
      rw [if_neg hk] at h
      exact t.disjoint k v h

def isDeleted (t : LevelDbTransaction α) (key : Key) : Bool := (t.deletions.get key).isSome

/-- `Get`, with no value for `NotFound`. -/
def get (t : LevelDbTransaction α) (key : Key) : Option α :=
  if t.isDeleted key then none
  else
    match t.mutations.get key with
    | some value => some value
    | none => t.db.get key

/-- What a `WriteBatch` holds. -/
inductive Write (α : Type) where
  | delete (key : Key)
  | put (key : Key) (value : α)

def Write.apply (db : SortedMap Key α) : Write α → SortedMap Key α
  | delete key => db.erase key
  | put key value => db.insert key value

/-- The table after `Commit`. -/
def commit (t : LevelDbTransaction α) : SortedMap Key α :=
  let batch := t.deletions.entries.map (fun deletion => Write.delete deletion.1) ++
    t.mutations.entries.map (fun entry => Write.put entry.1 entry.2)
  batch.foldl Write.apply t.db

structure Iterator (α : Type) where
  /-- The entries of the table from the position of the underlying iterator on. -/
  db_iter : List (Key × α)
  /-- The last observed version of the underlying transaction. -/
  last_version : Int32
  /-- The key of the change to which the iterator points, if it is not at the end. -/
  mutations_iter : Option Key
  current : Option (Key × α)
  is_mutation : Bool
  is_valid : Bool

namespace Iterator

/-- An iterator that does not point to anything yet. -/
def create (t : LevelDbTransaction α) : Iterator α where
  db_iter := []
  last_version := t.version
  mutations_iter := t.mutations.entries.head?.map Prod.fst
  current := none
  is_mutation := false
  is_valid := false

/-- The change to which an iterator points; it must still be there. -/
def dereference (t : LevelDbTransaction α) (key : Key) : Except Trap (Key × α) :=
  match t.mutations.get key with
  | some value => .ok (key, value)
  | none => .error .indexOutOfRange

/-- Given the current state of the internal iterators, set `is_valid`, `is_mutation`, and
`current`. -/
def updateCurrent (t : LevelDbTransaction α) (it : Iterator α) : Except Trap (Iterator α) :=
  match it.mutations_iter, it.db_iter with
  | none, [] => .ok { it with is_valid := false }
  | none, entry :: _ =>
    .ok { it with is_valid := true, is_mutation := false, current := some entry }
  | some key, [] => do
    let change ← dereference t key
    return { it with is_valid := true, is_mutation := true, current := some change }
  | some key, entry :: _ =>
    -- The leveldb key is equal to or greater than the current mutation key.
    if key ≤ entry.1 then do
      let change ← dereference t key
      return { it with is_valid := true, is_mutation := true, current := some change }
    else
      .ok { it with is_valid := true, is_mutation := false, current := some entry }

/-- Seeks this iterator to the first key equal to or greater than the given key. -/
def seek (t : LevelDbTransaction α) (it : Iterator α) (key : Key) : Except Trap (Iterator α) := do
  let db_iter := (t.db.dropTo fun k => key ≤ k).dropWhile fun entry => t.isDeleted entry.1
  let mutations_iter := (t.mutations.lowerBound key).map Prod.fst
  let it ← updateCurrent t { it with db_iter, mutations_iter }
  return { it with last_version := t.version }

/-- The current key; `current_` is only read when the iterator has been valid. -/
def currentKey (it : Iterator α) : Except Trap Key := do
  let entry ← unwrap it.current
  return entry.1

/-- Syncs with the underlying transaction, and returns whether this moved to a new entry. -/
def syncToTransaction (t : LevelDbTransaction α) (it : Iterator α) :
    Except Trap (Bool × Iterator α) := do
  if it.last_version < t.version then
    let current_key ← it.currentKey
    let it ← seek t it current_key
    -- If we advanced, we don't need to advance again.
    if it.is_valid then return (decide (current_key < (← it.currentKey)), it)
    else return (false, it)
  else return (false, it)

/-- Advances to the next non-deleted key in leveldb. -/
def advanceLDB (t : LevelDbTransaction α) (it : Iterator α) : Except Trap (Iterator α) :=
  match it.db_iter with
  | [] => .error .hardAssert
  | _ :: rest => .ok { it with db_iter := rest.dropWhile fun entry => t.isDeleted entry.1 }

/-- The part of `Next` behind the sync. -/
def advance (t : LevelDbTransaction α) (it : Iterator α) : Except Trap (Iterator α) :=
  if it.is_mutation then do
    let key ← unwrap it.mutations_iter
    -- A mutation might be shadowing leveldb. If so, advance both.
    let it ← if it.db_iter.head?.map Prod.fst = some key then advanceLDB t it else .ok it
    let _ ← dereference t key
    updateCurrent t { it with mutations_iter := (t.mutations.upperBound key).map Prod.fst }
  else do
    let it ← advanceLDB t it
    updateCurrent t it

/-- Advances the iterator to the next entry. -/
def next (t : LevelDbTransaction α) (it : Iterator α) : Except Trap (Iterator α) := do
  hardAssert it.is_valid
  let (advanced, it) ← syncToTransaction t it
  if !advanced && it.is_valid then advance t it else return it

end Iterator

section Commit

variable {t : LevelDbTransaction α} {db : SortedMap Key α} {key : Key} {value : α}

theorem get_eq (t : LevelDbTransaction α) (key : Key) :
    t.get key = (t.mutations.get key).or (if t.isDeleted key then none else t.db.get key) := by
  unfold get
  cases h : t.mutations.get key with
  | none => rfl
  | some value =>
    have hdeleted : t.isDeleted key = false := by
      rw [isDeleted, t.disjoint key value h]
      rfl
    rw [if_neg (by simp [hdeleted])]
    rfl

theorem commit_eq (t : LevelDbTransaction α) :
    t.commit = (t.db.eraseAll t.deletions).insertAll t.mutations := by
  unfold commit
  rw [List.foldl_append, List.foldl_map, List.foldl_map]
  rfl

/-- What a transaction reads is what it will have written. -/
theorem get_commit (t : LevelDbTransaction α) (key : Key) : t.commit.get key = t.get key := by
  rw [commit_eq, SortedMap.get_insertAll, SortedMap.get_eraseAll, get_eq]
  rfl

theorem first_commit (t : LevelDbTransaction α) (q : Key → Bool) : t.commit.first q =
    SortedMap.earlier (t.mutations.first q) (t.db.first fun k => q k && !t.isDeleted k) := by
  rw [commit_eq, SortedMap.first_insertAll, SortedMap.first_eraseAll]
  rfl

end Commit

namespace Iterator

variable {t : LevelDbTransaction α} {it it' : Iterator α} {q : Key → Bool} {e : Key × α}

/-- The two internal iterators stand where the keys begin to meet a condition. -/
structure At (t : LevelDbTransaction α) (q : Key → Bool) (it : Iterator α) : Prop where
  db_iter : it.db_iter = t.db.dropTo fun k => q k && !t.isDeleted k
  mutations_iter : it.mutations_iter = (t.mutations.first q).map Prod.fst

/-- The iterator with the entry that its user is to see. -/
def display (t : LevelDbTransaction α) (o : Option (Key × α)) (it : Iterator α) : Iterator α :=
  match o with
  | none => { it with is_valid := false }
  | some e =>
    { it with is_valid := true, is_mutation := (t.mutations.get e.1).isSome, current := some e }

theorem display_db_iter (o : Option (Key × α)) : (display t o it).db_iter = it.db_iter := by
  cases o <;> rfl

theorem display_mutations_iter (o : Option (Key × α)) :
    (display t o it).mutations_iter = it.mutations_iter := by
  cases o <;> rfl

theorem display_last_version (o : Option (Key × α)) :
    (display t o it).last_version = it.last_version := by
  cases o <;> rfl

theorem display_is_valid (o : Option (Key × α)) : (display t o it).is_valid = o.isSome := by
  cases o <;> rfl

theorem At.display (h : At t q it) (o : Option (Key × α)) : At t q (display t o it) where
  db_iter := (display_db_iter o).trans h.db_iter
  mutations_iter := (display_mutations_iter o).trans h.mutations_iter

theorem dereference_first {c : Key × α} (h : t.mutations.first q = some c) :
    dereference t c.1 = .ok c := by
  rw [dereference, (SortedMap.first_eq_some_iff.mp h).1]

/-- An entry of the table with a change in front of it at most is not changed itself. -/
theorem get_mutations_first (he : t.db.first (fun k => q k && !t.isDeleted k) = some e)
    (h : ∀ c, t.mutations.first q = some c → e.1 < c.1) : t.mutations.get e.1 = none := by
  obtain ⟨-, hq, -⟩ := SortedMap.first_eq_some_iff.mp he
  rw [Bool.and_eq_true] at hq
  cases hm : t.mutations.first q with
  | none => exact SortedMap.first_eq_none_iff.mp hm e.1 hq.1
  | some c =>
    obtain ⟨-, -, hleast⟩ := SortedMap.first_eq_some_iff.mp hm
    exact hleast e.1 hq.1 (h c hm)

/-- What is shown is what the table will have first after the commit. -/
theorem updateCurrent_eq (h : At t q it) :
    updateCurrent t it = .ok (display t (t.commit.first q) it) := by
  obtain ⟨db_iter, last_version, mutations_iter, current, is_mutation, is_valid⟩ := it
  obtain ⟨hdb, hmutations⟩ := h
  dsimp only at hdb hmutations
  have hhead : db_iter.head? = t.db.first fun k => q k && !t.isDeleted k := by
    rw [hdb, SortedMap.head?_dropTo]
  rw [first_commit, ← hhead, hmutations]
  unfold updateCurrent
  cases hm : t.mutations.first q with
  | none =>
    cases db_iter with
    | nil => rfl
    | cons e rest =>
      have hnone := get_mutations_first hhead.symm fun c hc => by rw [hm] at hc; cases hc
      simp [SortedMap.earlier, Iterator.display, hnone]
  | some c =>
    have hget := (SortedMap.first_eq_some_iff.mp hm).1
    have hderef := dereference_first hm
    cases db_iter with
    | nil => simp [SortedMap.earlier, Iterator.display, hget, hderef]
    | cons e rest =>
      by_cases hle : c.1 ≤ e.1
      · simp [SortedMap.earlier, Iterator.display, hget, hderef, hle]
      · have hnone := get_mutations_first hhead.symm fun c' hc' => by
          rw [hm] at hc'
          cases hc'
          exact not_le.mp hle
        simp [SortedMap.earlier, Iterator.display, hnone, hle]

/-- Conditions that hold of all keys behind a key of which they hold. -/
def Upward (q : Key → Bool) : Prop := ∀ k k', k < k' → q k = true → q k' = true

theorem upperBound_eq (m : SortedMap Key α) (key : Key) :
    m.upperBound key = m.first fun k => key < k :=
  SortedMap.first_congr fun _ _ _ => decide_eq_decide.mpr Iff.rfl

theorem upward_le (key : Key) : Upward fun k => key ≤ k := by
  intro k k' hlt hle
  simp only [decide_eq_true_eq] at hle ⊢
  exact (hle.trans_lt hlt).le

theorem upward_lt (key : Key) : Upward fun k => key < k := by
  intro k k' hlt hgt
  simp only [decide_eq_true_eq] at hgt ⊢
  exact hgt.trans hlt

theorem Upward.of_le {k k' : Key} (h : Upward q) (hle : k ≤ k') (hk : q k = true) :
    q k' = true := by
  rcases hle.lt_or_eq with hlt | rfl
  · exact h k k' hlt hk
  · exact hk

/-- Where the iterators stand does not depend on the keys in front of the first entry. -/
theorem At.shift (h : At t q it) (hq : Upward q) (he : t.commit.first q = some e) :
    At t (fun k => e.1 ≤ k) it := by
  obtain ⟨-, hqe, hleast⟩ := SortedMap.first_eq_some_iff.mp he
  have hbelow : ∀ k, (t.mutations.get k).isSome ∨ t.isDeleted k = false ∧ (t.db.get k).isSome →
      q k = decide (e.1 ≤ k) := by
    intro k hk
    by_cases hle : e.1 ≤ k
    · rw [hq.of_le hle hqe, decide_eq_true hle]
    · rw [decide_eq_false hle, ← Bool.not_eq_true]
      intro hqk
      have hnone := hleast k hqk (not_le.mp hle)
      rw [get_commit, get_eq] at hnone
      rcases hk with hk | ⟨hdeleted, hk⟩
      · obtain ⟨v, hv⟩ := Option.isSome_iff_exists.mp hk
        simp [hv] at hnone
      · obtain ⟨v, hv⟩ := Option.isSome_iff_exists.mp hk
        cases hm : t.mutations.get k <;> simp [hm, hdeleted, hv] at hnone
  constructor
  · rw [h.db_iter]
    apply SortedMap.dropTo_congr
    intro k v hget
    cases hdeleted : t.isDeleted k with
    | true => simp
    | false => rw [hbelow k (.inr ⟨hdeleted, by simp [hget]⟩)]
  · rw [h.mutations_iter]
    congr 1
    apply SortedMap.first_congr
    intro k v hget
    exact hbelow k (.inl (by simp [hget]))

/-- The iterator stands where a seek to the key that it shows would put it. -/
structure Synced (t : LevelDbTransaction α) (e : Key × α) (it : Iterator α) : Prop where
  at_key : At t (fun k => e.1 ≤ k) it
  get : t.commit.get e.1 = some e.2
  is_mutation : it.is_mutation = (t.mutations.get e.1).isSome

/-- The iterator shows an entry whenever it is valid, and is in step with the transaction unless
that has changed since. -/
structure Tracks (t : LevelDbTransaction α) (it : Iterator α) : Prop where
  last_version : it.last_version ≤ t.version
  current : it.is_valid = true → ∃ e, it.current = some e
  synced : it.is_valid = true → it.last_version = t.version → ∀ e, it.current = some e →
    Synced t e it

/-- The entry that a user of the iterator sees. -/
def shown (it : Iterator α) : Option (Key × α) := if it.is_valid then it.current else none

/-- A moved iterator is in step, and shows an entry of the table after the commit. -/
structure Lands (t : LevelDbTransaction α) (o : Option (Key × α)) (it : Iterator α) : Prop where
  tracks : Tracks t it
  shown : it.shown = o
  last_version : it.last_version = t.version

theorem shown_display (o : Option (Key × α)) : (display t o it).shown = o := by
  cases o <;> rfl

theorem At.lands (h : At t q it) (hq : Upward q) (hversion : it.last_version = t.version) :
    Lands t (t.commit.first q) (Iterator.display t (t.commit.first q) it) where
  shown := shown_display _
  last_version := (display_last_version _).trans hversion
  tracks := {
    last_version := ((display_last_version _).trans hversion).le
    current := by
      intro hvalid
      rw [display_is_valid] at hvalid
      obtain ⟨e, he⟩ := Option.isSome_iff_exists.mp hvalid
      exact ⟨e, by rw [he]; rfl⟩
    synced := by
      intro hvalid _ e he
      rw [display_is_valid] at hvalid
      obtain ⟨e', he'⟩ := Option.isSome_iff_exists.mp hvalid
      have hat := (h.shift hq he').display (some e')
      rw [he'] at he ⊢
      obtain rfl : e' = e := Option.some.inj he
      exact ⟨hat, (SortedMap.first_eq_some_iff.mp he').1, rfl⟩ }

theorem at_seek (t : LevelDbTransaction α) (it : Iterator α) (key : Key) :
    At t (fun k => key ≤ k) { it with
      db_iter := (t.db.dropTo fun k => key ≤ k).dropWhile fun entry => t.isDeleted entry.1
      mutations_iter := (t.mutations.lowerBound key).map Prod.fst } where
  db_iter := by
    have h := SortedMap.dropWhile_dropTo (m := t.db) (r := fun k => !t.isDeleted k)
      (upward_le key)
    simp only [Bool.not_not] at h
    exact h
  mutations_iter := rfl

theorem seek_lands (t : LevelDbTransaction α) (it : Iterator α) (key : Key) :
    ∃ it', seek t it key = .ok it' ∧ Lands t (t.commit.lowerBound key) it' := by
  have hat := at_seek t { it with last_version := t.version } key
  refine ⟨_, ?_, hat.lands (upward_le key) rfl⟩
  unfold seek
  dsimp only
  rw [updateCurrent_eq (at_seek t it key)]
  cases t.commit.first fun k => decide (key ≤ k) <;> rfl

theorem head?_db_iter (h : Synced t e it) :
    it.db_iter.head? = t.db.first fun k => decide (e.1 ≤ k) && !t.isDeleted k := by
  rw [h.at_key.db_iter, SortedMap.head?_dropTo]

/-- What is behind the entry of the table on which the iterator stands. -/
theorem advanceLDB_eq (h : Synced t e it) (hhead : it.db_iter.head?.map Prod.fst = some e.1) :
    advanceLDB t it =
      .ok { it with db_iter := t.db.dropTo fun k => decide (e.1 < k) && !t.isDeleted k } := by
  unfold advanceLDB
  cases hd : it.db_iter with
  | nil =>
    rw [hd] at hhead
    cases hhead
  | cons e' rest =>
    rw [hd] at hhead
    have hkey : e'.1 = e.1 := Option.some.inj hhead
    have hbehind := SortedMap.dropWhile_of_dropTo (r := fun k => !t.isDeleted k)
      (h.at_key.db_iter.symm.trans hd)
    simp only [Bool.not_not, hkey] at hbehind
    exact congrArg (fun l => Except.ok { it with db_iter := l }) hbehind

/-- The iterator of the table is behind a change that does not shadow anything. -/
theorem db_iter_eq (h : Synced t e it) (hhead : it.db_iter.head?.map Prod.fst ≠ some e.1) :
    it.db_iter = t.db.dropTo fun k => decide (e.1 < k) && !t.isDeleted k := by
  rw [h.at_key.db_iter]
  apply SortedMap.dropTo_congr
  intro k v hk
  cases hdeleted : t.isDeleted k with
  | true => simp
  | false =>
    have hne : e.1 ≠ k := by
      rintro rfl
      apply hhead
      rw [head?_db_iter h, SortedMap.first_of_get hk (by simp [hdeleted])]
      · rfl
      · intro k hq
        rw [Bool.and_eq_true, decide_eq_true_eq] at hq
        exact hq.1
    simp [hne.le_iff_lt]

theorem mutations_iter_eq (h : Synced t e it) (hnone : t.mutations.get e.1 = none) :
    it.mutations_iter = (t.mutations.first fun k => e.1 < k).map Prod.fst := by
  rw [h.at_key.mutations_iter]
  congr 1
  apply SortedMap.first_congr
  intro k v hk
  have hne : e.1 ≠ k := by
    rintro rfl
    rw [hnone] at hk
    cases hk
  simp [hne.le_iff_lt]

theorem lands_updateCurrent (h : At t (fun k => e.1 < k) it)
    (hversion : it.last_version = t.version) :
    ∃ it', updateCurrent t it = .ok it' ∧ Lands t (t.commit.upperBound e.1) it' := by
  rw [upperBound_eq]
  exact ⟨_, updateCurrent_eq h, h.lands (upward_lt e.1) hversion⟩

theorem advance_lands (h : Synced t e it) (hversion : it.last_version = t.version) :
    ∃ it', advance t it = .ok it' ∧ Lands t (t.commit.upperBound e.1) it' := by
  unfold advance
  rw [h.is_mutation]
  cases hm : t.mutations.get e.1 with
  | some v =>
    have hfirst : t.mutations.first (fun k => e.1 ≤ k) = some (e.1, v) :=
      SortedMap.first_of_get hm (by simp) (by simp)
    have hkey : it.mutations_iter = some e.1 := by
      rw [h.at_key.mutations_iter, hfirst]
      rfl
    have hderef : dereference t e.1 = .ok (e.1, v) := dereference_first hfirst
    rw [if_pos (by simp), hkey]
    dsimp only [unwrap, Bind.bind, Except.bind]
    rw [upperBound_eq t.mutations]
    split
    · next hhead =>
      rw [advanceLDB_eq h hhead]
      dsimp only
      rw [hderef]
      exact lands_updateCurrent ⟨rfl, rfl⟩ hversion
    · next hhead =>
      rw [hderef]
      have hdb := db_iter_eq h hhead
      exact lands_updateCurrent ⟨hdb, rfl⟩ hversion
  | none =>
    have hget := h.get
    rw [get_commit, get_eq, hm, Option.none_or] at hget
    rw [if_neg (by simp)]
    split at hget
    · cases hget
    · next hdeleted =>
      have hhead : it.db_iter.head?.map Prod.fst = some e.1 := by
        rw [head?_db_iter h, SortedMap.first_of_get hget (by simp [hdeleted])]
        · rfl
        · intro k hq
          rw [Bool.and_eq_true, decide_eq_true_eq] at hq
          exact hq.1
      rw [advanceLDB_eq h hhead]
      have hmutations := mutations_iter_eq h hm
      exact lands_updateCurrent ⟨rfl, hmutations⟩ hversion

theorem currentKey_eq (h : it.current = some e) : it.currentKey = .ok e.1 := by
  rw [currentKey, h]
  rfl

/-- The first entry from a key on is at the key, or it is the first one behind the key. -/
theorem upperBound_of_lowerBound {m : SortedMap Key α} {key : Key}
    (h : ∀ e, m.lowerBound key = some e → key < e.1) : m.upperBound key = m.lowerBound key := by
  unfold SortedMap.upperBound SortedMap.lowerBound
  apply SortedMap.first_congr
  intro k v hk
  have hne : key ≠ k := by
    rintro rfl
    exact lt_irrefl key (h (key, v) (SortedMap.first_of_get hk (by simp) (by simp)))
  simp [hne.le_iff_lt]

/-- After the sync, the iterator has moved on already, or it is in step at the same key. -/
theorem exists_syncToTransaction (h : Tracks t it) (hvalid : it.is_valid = true)
    (hcurrent : it.current = some e) :
    ∃ advanced it', syncToTransaction t it = .ok (advanced, it') ∧
      (if !advanced && it'.is_valid then ∃ e', Synced t e' it' ∧ e'.1 = e.1 ∧
          it'.last_version = t.version
        else Lands t (t.commit.upperBound e.1) it') := by
  unfold syncToTransaction
  by_cases hversion : it.last_version < t.version
  · obtain ⟨it', hseek, hlands⟩ := seek_lands t it e.1
    rw [if_pos hversion, currentKey_eq hcurrent]
    dsimp only [Bind.bind, Except.bind]
    rw [hseek]
    dsimp only
    by_cases hvalid' : it'.is_valid = true
    · obtain ⟨e', he'⟩ := hlands.tracks.current hvalid'
      have hlower : t.commit.lowerBound e.1 = some e' := by
        rw [← hlands.shown, shown, if_pos hvalid', he']
      rw [if_pos hvalid', currentKey_eq he']
      refine ⟨_, _, rfl, ?_⟩
      by_cases hmoved : e.1 < e'.1
      · rw [if_neg (by simp [hmoved]), upperBound_of_lowerBound, hlower]
        · rw [hlower] at hlands
          exact hlands
        · intro e'' he''
          rw [hlower] at he''
          cases he''
          exact hmoved
      · obtain ⟨-, hle, -⟩ := SortedMap.lowerBound_eq_some_iff.mp hlower
        rw [if_pos (by simp [hmoved, hvalid'])]
        exact ⟨e', hlands.tracks.synced hvalid' hlands.last_version e' he',
          le_antisymm (not_lt.mp hmoved) hle, hlands.last_version⟩
    · rw [if_neg hvalid']
      refine ⟨_, _, rfl, ?_⟩
      have hlower : t.commit.lowerBound e.1 = none := by
        rw [← hlands.shown, shown, if_neg hvalid']
      rw [if_neg (by simp [hvalid']), upperBound_of_lowerBound]
      · exact hlands
      · rw [hlower]
        rintro e' ⟨⟩
  · have hsame : it.last_version = t.version := le_antisymm h.last_version (not_lt.mp hversion)
    rw [if_neg hversion]
    refine ⟨_, _, rfl, ?_⟩
    rw [if_pos (by simp [hvalid])]
    exact ⟨e, h.synced hvalid hsame e hcurrent, rfl, hsame⟩

theorem next_lands (h : Tracks t it) (hshown : it.shown = some e) :
    ∃ it', next t it = .ok it' ∧ Lands t (t.commit.upperBound e.1) it' := by
  have hvalid : it.is_valid = true := by
    unfold shown at hshown
    split at hshown
    · assumption
    · cases hshown
  have hcurrent : it.current = some e := by
    rw [shown, if_pos hvalid] at hshown
    exact hshown
  obtain ⟨advanced, it', hsync, hlands⟩ := exists_syncToTransaction h hvalid hcurrent
  have hnext : next t it = if !advanced && it'.is_valid then advance t it' else .ok it' := by
    simp only [next, hvalid, hsync]
    rfl
  rw [hnext]
  split
  · next hadvance =>
    rw [if_pos hadvance] at hlands
    obtain ⟨e', hsynced, hkey, hversion⟩ := hlands
    rw [← hkey]
    exact advance_lands hsynced hversion
  · next hadvance =>
    rw [if_neg hadvance] at hlands
    exact ⟨it', rfl, hlands⟩

theorem next_eq_error (hshown : it.shown = none) (hcurrent : it.is_valid = true →
    ∃ e, it.current = some e) : next t it = .error .hardAssert := by
  have hvalid : it.is_valid = false := by
    rw [← Bool.not_eq_true]
    intro hvalid
    obtain ⟨e, he⟩ := hcurrent hvalid
    rw [shown, if_pos hvalid, he] at hshown
    cases hshown
  simp only [next, hvalid]
  rfl

end Iterator

section Runs

/-- A transaction in use: its iterators, and what its reads returned so far. -/
structure Usage (α : Type) where
  txn : LevelDbTransaction α
  iterators : List (Iterator α)
  reads : List (Option α)

/-- The calls on a transaction and its iterators, which have numbers. -/
inductive Call (α : Type) where
  | put (key : Key) (value : α)
  | delete (key : Key)
  | get (key : Key)
  | newIterator
  | seek (i : Nat) (key : Key)
  | next (i : Nat)

def step (s : Usage α) : Call α → Outcome Trap (Usage α)
  | .put key value => .next { s with txn := s.txn.put key value }
  | .delete key => .next { s with txn := s.txn.delete key }
  | .get key => .next { s with reads := s.txn.get key :: s.reads }
  | .newIterator => .next { s with iterators := s.iterators ++ [Iterator.create s.txn] }
  | .seek i key =>
    match s.iterators[i]? with
    | none => .blocked
    | some it => (Outcome.ofExcept (it.seek s.txn key)).map fun it =>
      { s with iterators := s.iterators.set i it }
  | .next i =>
    match s.iterators[i]? with
    | none => .blocked
    | some it => (Outcome.ofExcept (it.next s.txn)).map fun it =>
      { s with iterators := s.iterators.set i it }

/-- A table that is changed in place, with the entries at which its cursors are. -/
structure Table (α : Type) where
  table : SortedMap Key α
  cursors : List (Option (Key × α))
  reads : List (Option α)

/-- The same calls on a table that is changed in place. -/
def Table.step (s : Table α) : Call α → Outcome Trap (Table α)
  | .put key value => .next { s with table := s.table.insert key value }
  | .delete key => .next { s with table := s.table.erase key }
  | .get key => .next { s with reads := s.table.get key :: s.reads }
  | .newIterator => .next { s with cursors := s.cursors ++ [none] }
  | .seek i key =>
    match s.cursors[i]? with
    | none => .blocked
    | some _ => .next { s with cursors := s.cursors.set i (s.table.lowerBound key) }
  | .next i =>
    match s.cursors[i]? with
    | none => .blocked
    | some none => .trap .hardAssert
    | some (some e) => .next { s with cursors := s.cursors.set i (s.table.upperBound e.1) }

def Usage.view (s : Usage α) : Table α :=
  ⟨s.txn.commit, s.iterators.map Iterator.shown, s.reads⟩

def Usage.start (db : SortedMap Key α) : Usage α := ⟨create db, [], []⟩

variable {s s' : Usage α} {t : LevelDbTransaction α} {it : Iterator α} {call : Call α}

theorem isDeleted_put (t : LevelDbTransaction α) (key : Key) (value : α) (k : Key) :
    (t.put key value).isDeleted k = (decide (k ≠ key) && t.isDeleted k) := by
  unfold isDeleted put
  dsimp only
  rw [SortedMap.get_erase]
  by_cases hk : k = key <;> simp [hk]

theorem isDeleted_delete (t : LevelDbTransaction α) (key k : Key) :
    (t.delete key).isDeleted k = (decide (k = key) || t.isDeleted k) := by
  unfold isDeleted delete
  dsimp only
  rw [SortedMap.get_insert]
  by_cases hk : k = key <;> simp [hk]

theorem commit_put (t : LevelDbTransaction α) (key : Key) (value : α) :
    (t.put key value).commit = t.commit.insert key value := by
  apply SortedMap.ext_get
  intro k
  rw [SortedMap.get_insert, get_commit, get_commit, get_eq, get_eq, isDeleted_put]
  by_cases hk : k = key <;> simp [hk, put, SortedMap.get_insert]

theorem commit_delete (t : LevelDbTransaction α) (key : Key) :
    (t.delete key).commit = t.commit.erase key := by
  apply SortedMap.ext_get
  intro k
  rw [SortedMap.get_erase, get_commit, get_commit, get_eq, get_eq, isDeleted_delete]
  by_cases hk : k = key <;> simp [hk, delete, SortedMap.get_erase]

theorem commit_create (db : SortedMap Key α) : (create db).commit = db := by
  apply SortedMap.ext_get
  intro k
  rw [get_commit]
  rfl

theorem Iterator.Tracks.changed {t' : LevelDbTransaction α} (h : Tracks t it)
    (hversion : t.version < t'.version) : Tracks t' it where
  last_version := h.last_version.trans hversion.le
  current := h.current
  synced _ hsame := absurd (hsame ▸ h.last_version) hversion.not_ge

theorem Iterator.tracks_create (t : LevelDbTransaction α) : Tracks t (create t) where
  last_version := le_rfl
  current hvalid := by cases hvalid
  synced hvalid := by cases hvalid

/-- The number of changes among the calls. -/
def changes : List (Call α) → Nat
  | [] => 0
  | .put _ _ :: calls => changes calls + 1
  | .delete _ :: calls => changes calls + 1
  | _ :: calls => changes calls

/-- The version can count the changes of the calls that are still to come. -/
def Usage.HasRoom (s : Usage α) (calls : List (Call α)) : Prop :=
  s.txn.version.toInt + changes calls < 2 ^ 31

theorem lt_add_one_of_room {n : Int32} {k : Nat} (h : n.toInt + (k + 1 : Nat) < 2 ^ 31) :
    n < n + 1 ∧ (n + 1).toInt + k < 2 ^ 31 := by
  have hsucc : (n + 1).toInt = n.toInt + 1 := toInt_add_one (by omega)
  rw [Int32.lt_iff_toInt_lt, hsucc]
  omega

def Usage.Tracked (s : Usage α) : Prop := ∀ it ∈ s.iterators, Iterator.Tracks s.txn it

theorem Usage.Tracked.set (h : s.Tracked) (i : Nat) (hit : Iterator.Tracks s.txn it) :
    ∀ it' ∈ s.iterators.set i it, Iterator.Tracks s.txn it' := by
  intro it' hmem
  rcases List.mem_or_eq_of_mem_set hmem with hmem | rfl
  · exact h it' hmem
  · exact hit

/-- A move of one iterator, and what it does to the view. -/
theorem Usage.view_set (s : Usage α) (i : Nat) {o : Option (Key × α)} (h : it.shown = o) :
    Usage.view { s with iterators := s.iterators.set i it } =
      { s.view with cursors := s.view.cursors.set i o } := by
  unfold Usage.view
  rw [List.map_set, h]

theorem tracked_step {calls : List (Call α)} (hs : s.Tracked) (hroom : s.HasRoom (call :: calls))
    (hstep : step s call = .next s') : s'.Tracked ∧ s'.HasRoom calls := by
  cases call with
  | put key value =>
    cases hstep
    obtain ⟨hlt, hroom'⟩ := lt_add_one_of_room hroom
    exact ⟨fun it hit => (hs it hit).changed hlt, hroom'⟩
  | delete key =>
    cases hstep
    obtain ⟨hlt, hroom'⟩ := lt_add_one_of_room hroom
    exact ⟨fun it hit => (hs it hit).changed hlt, hroom'⟩
  | get key =>
    cases hstep
    exact ⟨hs, hroom⟩
  | newIterator =>
    cases hstep
    refine ⟨fun it hit => ?_, hroom⟩
    rcases List.mem_append.mp hit with hit | hit
    · exact hs it hit
    · rw [List.mem_singleton.mp hit]
      exact Iterator.tracks_create s.txn
  | seek i key =>
    simp only [step] at hstep
    split at hstep
    · cases hstep
    · next it _ =>
      obtain ⟨it', hseek, hlands⟩ := Iterator.seek_lands s.txn it key
      rw [hseek] at hstep
      cases hstep
      exact ⟨hs.set i hlands.tracks, hroom⟩
  | next i =>
    simp only [step] at hstep
    split at hstep
    · cases hstep
    · next it hi =>
      have htracks := hs it (List.mem_of_getElem? hi)
      cases hshown : it.shown with
      | none =>
        rw [Iterator.next_eq_error hshown htracks.current] at hstep
        cases hstep
      | some e =>
        obtain ⟨it', hnext, hlands⟩ := Iterator.next_lands htracks hshown
        rw [hnext] at hstep
        cases hstep
        exact ⟨hs.set i hlands.tracks, hroom⟩

theorem view_step (hs : s.Tracked) : (step s call).map Usage.view = s.view.step call := by
  cases call with
  | put key value =>
    refine congrArg Outcome.next ?_
    simp only [Usage.view, commit_put]
  | delete key =>
    refine congrArg Outcome.next ?_
    simp only [Usage.view, commit_delete]
  | get key =>
    refine congrArg Outcome.next ?_
    simp only [Usage.view, get_commit]
  | newIterator =>
    refine congrArg Outcome.next ?_
    simp only [Usage.view, List.map_append]
    rfl
  | seek i key =>
    have hcursor : s.view.cursors[i]? = s.iterators[i]?.map Iterator.shown := List.getElem?_map
    simp only [step, Table.step, hcursor]
    cases s.iterators[i]? with
    | none => rfl
    | some it =>
      obtain ⟨it', hseek, hlands⟩ := Iterator.seek_lands s.txn it key
      dsimp only [Option.map_some]
      rw [hseek]
      exact congrArg Outcome.next (s.view_set i hlands.shown)
  | next i =>
    have hcursor : s.view.cursors[i]? = s.iterators[i]?.map Iterator.shown := List.getElem?_map
    simp only [step, Table.step, hcursor]
    cases hi : s.iterators[i]? with
    | none => rfl
    | some it =>
      have htracks := hs it (List.mem_of_getElem? hi)
      dsimp only [Option.map_some]
      cases hshown : it.shown with
      | none =>
        rw [Iterator.next_eq_error hshown htracks.current]
        rfl
      | some e =>
        obtain ⟨it', hnext, hlands⟩ := Iterator.next_lands htracks hshown
        rw [hnext]
        exact congrArg Outcome.next (s.view_set i hlands.shown)

/-- Calls on a transaction, whatever their order, do what they would do on a table that is changed
in place: what is read and iterated over is what `Commit` would write at that moment. The changes
are fewer than the version can count. -/
theorem exec_view (db : SortedMap Key α) (calls : List (Call α))
    (hchanges : changes calls < 2 ^ 31) :
    (exec step (Usage.start db) calls).map Usage.view = exec Table.step ⟨db, [], []⟩ calls := by
  have hview : (Usage.start db).view = ⟨db, [], []⟩ := by
    unfold Usage.view Usage.start
    rw [commit_create]
    rfl
  rw [← hview]
  have htracked : (Usage.start db).Tracked := fun it hit => by cases hit
  have hroom : (Usage.start db).HasRoom calls := by
    show (0 : Int) + changes calls < 2 ^ 31
    omega
  apply exec_map (I := fun s calls => s.Tracked ∧ s.HasRoom calls)
  · exact fun s call calls s' hs hstep => tracked_step hs.1 hs.2 hstep
  · exact fun s call calls hs => view_step hs.1
  · exact ⟨htracked, hroom⟩

/-- A row that is overwritten while an iterator stands on it, and one that is deleted in front of
the iterator. -/
theorem exec_view_overwritten :
    (exec step (Usage.start (SortedMap.empty.insert [1] 'a'))
      [.put [3] 'c', .newIterator, .seek 0 [], .put [1] 'b', .put [2] 'd', .delete [3], .next 0,
        .get [1]]).map Usage.view =
      .next ⟨(SortedMap.empty.insert [1] 'b').insert [2] 'd', [some ([2], 'd')], [some 'b']⟩ := by
  rw [exec_view _ _ (by decide)]
  rfl

end Runs

end LevelDbTransaction

end LevelDb

end GasNow
