import GasNow.Codes.Prefixes
import GasNow.Firestore.LevelDbTransaction

/-!
# Scans of a table

Reads of a table seek to a prefix and go from there from row to row, until a key does not have the
prefix any more.
-/

namespace GasNow

namespace LevelDb

open Codes OrderedCode Stores

section Prefixes

/-- The last byte that is not 255 is incremented, and what is behind it is erased. -/
def prefixSuccessor (limit : List Byte) : List Byte := (increment limit.reverse).reverse
where
  increment : List Byte → List Byte
  | [] => []
  | c :: rest => if c = 255 then increment rest else (c + 1) :: rest

variable {p k : Key}

theorem prefixSuccessor_append (q : Key) (c : Byte) : prefixSuccessor (q ++ [c]) =
    if c = 255 then prefixSuccessor q else q ++ [c + 1] := by
  unfold prefixSuccessor
  rw [List.reverse_append, List.reverse_singleton, List.singleton_append,
    prefixSuccessor.increment]
  split
  · rfl
  · simp

theorem lt_add_one_iff {c x : Byte} (hc : c ≠ 255) : x < c + 1 ↔ x ≤ c := by
  have hval : (c + 1).val = c.val + 1 := by
    rw [Fin.val_add_one]
    exact if_neg hc
  rw [Fin.lt_def, Fin.le_def, hval, Nat.lt_succ_iff]

theorem cons_of_append_le {q : Key} {c : Byte} {s : List Byte} (h : q ++ [c] ≤ q ++ s) :
    ∃ x t, s = x :: t ∧ c ≤ x := by
  rw [← not_lt, append_left_lt_iff] at h
  cases s with
  | nil => exact absurd (List.nil_lt_cons c []) h
  | cons x t =>
    rw [List.cons_lt_cons_iff, not_or] at h
    exact ⟨x, t, rfl, not_lt.mp h.1⟩

/-- The strings below the bound are those with the prefix, and the ones in front of it. -/
theorem lt_prefixSuccessor_iff (hp : ∃ c ∈ p, c ≠ 255) (hpk : p ≤ k) :
    k < prefixSuccessor p ↔ p <+: k := by
  induction p using List.reverseRecOn with
  | nil =>
    obtain ⟨c, hc, -⟩ := hp
    cases hc
  | append_singleton q c ih =>
    have hqk : q ≤ k := (prefix_le (List.prefix_append q [c])).trans hpk
    rw [prefixSuccessor_append]
    by_cases hc : c = 255
    · subst hc
      have hq : ∃ c ∈ q, c ≠ 255 := by
        obtain ⟨c, hmem, hne⟩ := hp
        rcases List.mem_append.mp hmem with hmem | hmem
        · exact ⟨c, hmem, hne⟩
        · exact absurd (List.mem_singleton.mp hmem) hne
      rw [if_pos rfl, ih hq hqk]
      constructor
      · rintro ⟨s, rfl⟩
        obtain ⟨x, t, rfl, hx⟩ := cons_of_append_le hpk
        obtain rfl : x = 255 := le_antisymm (Fin.le_last x) hx
        exact ⟨t, by simp⟩
      · exact (List.prefix_append q [255]).trans
    · rw [if_neg hc]
      constructor
      · intro hlt
        obtain ⟨s, rfl⟩ := prefix_of_le_of_le hqk hlt.le (List.prefix_append q [c + 1])
        obtain ⟨x, t, rfl, hx⟩ := cons_of_append_le hpk
        rw [append_left_lt_iff, List.cons_lt_cons_iff, lt_add_one_iff hc] at hlt
        rcases hlt with hlt | ⟨-, hnil⟩
        · obtain rfl := le_antisymm hx hlt
          exact ⟨t, by simp⟩
        · exact absurd hnil (List.not_lt_nil t)
      · rintro ⟨s, rfl⟩
        rw [List.append_assoc, append_left_lt_iff]
        exact List.cons_lt_cons_iff.mpr (.inl ((lt_add_one_iff hc).mpr le_rfl))

/-- Whether there are keys with a prefix can be seen at the first key from the prefix on. -/
theorem exists_prefix_iff {α : Type} {m : SortedMap Key α} : (∃ k v, m.get k = some v ∧ p <+: k) ↔
    ∃ e, m.lowerBound p = some e ∧ p <+: e.1 := by
  constructor
  · rintro ⟨k, v, hget, hstarts⟩
    cases hlower : m.lowerBound p with
    | none =>
      have hlt := SortedMap.lt_of_lowerBound_eq_none hlower hget
      exact absurd hlt (prefix_le hstarts).not_gt
    | some e =>
      have hle := (SortedMap.lowerBound_eq_some_iff.mp hlower).2.1
      have hek := SortedMap.le_of_lowerBound_eq_some hlower hget (prefix_le hstarts)
      exact ⟨e, rfl, prefix_of_le_of_le hle hek hstarts⟩
  · rintro ⟨e, hlower, hstarts⟩
    exact ⟨e.1, e.2, (SortedMap.lowerBound_eq_some_iff.mp hlower).1, hstarts⟩

end Prefixes

section Scan

variable {α σ : Type} {t : LevelDbTransaction α} {it : LevelDbTransaction.Iterator α}

namespace LevelDbTransaction

namespace Iterator

/-- `for (; it->Valid(); it->Next())`, of which the body may break off. No row is visited twice, so
that there is always fuel left. -/
def forRows (t : LevelDbTransaction α) (body : Key × α → σ → Except Trap (ForInStep σ)) :
    Nat → Iterator α → σ → Except Trap (Iterator α × σ)
  | 0, _, _ => .error .hardAssert
  | fuel + 1, it, s =>
    if it.is_valid then do
      let row ← unwrap it.current
      match ← body row s with
      | .done s => return (it, s)
      | .yield s => forRows t body fuel (← it.next t) s
    else return (it, s)

/-- A loop over the rows from a key on. -/
def scan (t : LevelDbTransaction α) (it : Iterator α) (key : Key) (s : σ)
    (body : Key × α → σ → Except Trap (ForInStep σ)) : Except Trap (Iterator α × σ) := do
  forRows t body (t.commit.entries.length + 1) (← it.seek t key) s

/-- The body of a loop for one row after another. -/
def walk (body : Key × α → σ → Except Trap (ForInStep σ)) : List (Key × α) → σ → Except Trap σ
  | [], s => .ok s
  | row :: rows, s => do
    match ← body row s with
    | .done s => return s
    | .yield s => walk body rows s

variable {body : Key × α → σ → Except Trap (ForInStep σ)} {q : Key → Bool}
  {rows : List (Key × α)} {fuel : Nat} {s : σ}

theorem shown_eq_some {e : Key × α} (h : it.shown = some e) :
    it.is_valid = true ∧ it.current = some e := by
  unfold shown at h
  split at h
  · next hvalid => exact ⟨hvalid, h⟩
  · cases h

theorem Lands.not_is_valid (h : Lands t none it) : it.is_valid = false := by
  rw [← Bool.not_eq_true]
  intro hvalid
  obtain ⟨e, he⟩ := h.tracks.current hvalid
  have hshown := h.shown
  rw [Iterator.shown, if_pos hvalid, he] at hshown
  cases hshown

theorem forRows_eq (hrows : t.commit.dropTo q = rows) (h : Lands t (t.commit.first q) it)
    (hfuel : rows.length < fuel) :
    Prod.snd <$> forRows t body fuel it s = walk body rows s := by
  induction rows generalizing q it fuel s with
  | nil =>
    obtain ⟨fuel, rfl⟩ := Nat.exists_eq_add_of_lt hfuel
    rw [← SortedMap.head?_dropTo, hrows] at h
    simp only [forRows, h.not_is_valid]
    rfl
  | cons e rows ih =>
    obtain ⟨fuel, rfl⟩ : ∃ n, fuel = n + 1 := ⟨fuel - 1, by omega⟩
    have hshown := h.shown
    rw [← SortedMap.head?_dropTo, hrows, List.head?_cons] at hshown
    obtain ⟨hvalid, hcurrent⟩ := shown_eq_some hshown
    obtain ⟨it', hnext, hlands⟩ := next_lands h.tracks hshown
    rw [upperBound_eq] at hlands
    have hrest : rows = t.commit.dropTo fun k => e.1 < k := by
      rw [SortedMap.eq_dropTo_of_cons hrows]
      exact SortedMap.dropTo_congr fun _ _ _ => decide_eq_decide.mpr Iff.rfl
    cases hbody : body e s with
    | error trap =>
      simp only [forRows, if_pos hvalid, hcurrent, unwrap, walk, hbody, Bind.bind, Except.bind]
      rfl
    | ok r =>
      cases r with
      | done s' =>
        simp only [forRows, if_pos hvalid, hcurrent, unwrap, walk, hbody, Bind.bind, Except.bind]
        rfl
      | yield s' =>
        simp only [forRows, if_pos hvalid, hcurrent, unwrap, walk, hbody, hnext, Bind.bind,
          Except.bind]
        exact ih hrest.symm hlands (Nat.lt_of_succ_lt_succ hfuel)

/-- **Scan rule**: a scan walks over the rows from the key on that the table will have after the
commit. -/
theorem scan_eq (t : LevelDbTransaction α) (it : Iterator α) (key : Key) (s : σ)
    (body : Key × α → σ → Except Trap (ForInStep σ)) :
    Prod.snd <$> scan t it key s body = walk body (t.commit.dropTo fun k => key ≤ k) s := by
  obtain ⟨it', hseek, hlands⟩ := seek_lands t it key
  have hlength : (t.commit.dropTo fun k => key ≤ k).length < t.commit.entries.length + 1 := by
    have hsublist : (t.commit.dropTo fun k => key ≤ k).Sublist t.commit.entries :=
      List.dropWhile_sublist _
    exact Nat.lt_succ_of_le hsublist.length_le
  rw [← forRows_eq rfl hlands hlength]
  unfold scan
  rw [hseek]
  rfl

/-- A body that breaks off at the first row that does not meet a condition. -/
theorem walk_eq_foldl {c : Key × α → Bool} {f : σ → Key × α → σ}
    (h : ∀ row ∈ rows, ∀ s, body row s = .ok (if c row then .yield (f s row) else .done s)) :
    walk body rows s = .ok ((rows.takeWhile c).foldl f s) := by
  induction rows generalizing s with
  | nil => rfl
  | cons row rows ih =>
    rw [walk, h row List.mem_cons_self, List.takeWhile_cons]
    cases c row with
    | false => rfl
    | true => exact ih fun row' hrow' => h row' (List.mem_cons_of_mem row hrow')

/-- **Filter rule**: a scan from a prefix on that breaks off at the first row that does not meet a
condition takes all rows that meet it, if they have the prefix and no others with the prefix are
between them. -/
theorem scan_filter (it : Iterator α) {p : Key} {c : Key × α → Bool} {f : σ → Key × α → σ}
    (hbody : ∀ row ∈ t.commit.entries, ∀ s,
      body row s = .ok (if c row then .yield (f s row) else .done s))
    (hc : ∀ row ∈ t.commit.entries, c row = true → p <+: row.1)
    (hbetween : ∀ row ∈ t.commit.entries, ∀ row' ∈ t.commit.entries, p <+: row.1 →
      row.1 < row'.1 → c row' = true → c row = true) :
    ∃ it', scan t it p s body = .ok (it', (t.commit.entries.filter c).foldl f s) := by
  have hwalk := scan_eq t it p s body
  rw [walk_eq_foldl (c := c) (f := f) fun row hrow =>
    hbody row ((SortedMap.sublist_dropTo _ _).subset hrow)] at hwalk
  obtain ⟨⟨it', s'⟩, hscan, rfl⟩ := map_eq_ok.mp hwalk
  refine ⟨it', hscan.trans ?_⟩
  congr 3
  apply SortedMap.takeWhile_dropTo
  · intro row hrow hcrow
    exact decide_eq_true (prefix_le (hc row hrow hcrow))
  · intro row hrow row' hrow' hle hlt hcrow'
    have hrow'_prefix := hc row' hrow' hcrow'
    exact hbetween row hrow row' hrow'
      (prefix_of_le_of_le (of_decide_eq_true hle) hlt.le hrow'_prefix) hlt hcrow'
  · exact upward_le p

end Iterator

end LevelDbTransaction

end Scan

end LevelDb

end GasNow
