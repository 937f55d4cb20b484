import Mathlib.Data.List.Induction
import Mathlib.Data.List.Nodup
import Mathlib.Data.List.Pairwise
import Mathlib.Data.List.TakeWhile
import Mathlib.Order.Lattice

/-!
# Maps that are sorted by their keys

## Main definitions

- `SortedMap`, a list of entries with increasing keys
- `get`, `insert` and `erase`, the operations on single keys
- `first`, the first entry of which the key meets a condition; `lowerBound` and `upperBound`
-/

namespace Stores

theorem dropWhile_congr {β : Type} {l : List β} {p p' : β → Bool}
    (h : ∀ e ∈ l, p e = p' e) :
    l.dropWhile p = l.dropWhile p' := by
  induction l with
  | nil => rfl
  | cons e l ih =>
    rw [List.dropWhile_cons, List.dropWhile_cons, h e List.mem_cons_self,
      ih fun e' he' => h e' (List.mem_cons_of_mem _ he')]

/-- Lists in the same order are equal if they have the same members. -/
theorem eq_of_pairwise_lt {β κ : Type} [Preorder κ] {f : β → κ} {l l' : List β}
    (hl : l.Pairwise fun b b' => f b < f b') (hl' : l'.Pairwise fun b b' => f b < f b')
    (h : ∀ b, b ∈ l ↔ b ∈ l') : l = l' := by
  have hperm : l.Perm l' := by
    apply (List.perm_ext_iff_of_nodup _ _).mpr h
    · exact hl.imp fun hlt heq => hlt.ne (congrArg f heq)
    · exact hl'.imp fun hlt heq => hlt.ne (congrArg f heq)
  apply hperm.eq_of_pairwise _ hl hl'
  intro b b' _ _ hlt hgt
  exact absurd hgt hlt.not_gt

theorem find?_of_pairwise_lt {β κ : Type} [Preorder κ] {f : β → κ} {l : List β} {p : β → Bool}
    {b : β} (hl : l.Pairwise fun b b' => f b < f b') (hb : b ∈ l) (hp : p b = true)
    (hleast : ∀ b' ∈ l, p b' = true → f b ≤ f b') : l.find? p = some b := by
  induction l with
  | nil => cases hb
  | cons b' l ih =>
    obtain ⟨hfirst, hrest⟩ := List.pairwise_cons.mp hl
    rcases List.mem_cons.mp hb with rfl | hmem
    · exact List.find?_cons_of_pos hp
    · have hb' : ¬p b' = true := fun hp' =>
        (hfirst b hmem).not_ge (hleast b' List.mem_cons_self hp')
      rw [List.find?_cons_of_neg hb']
      exact ih hrest hmem fun b'' hb'' => hleast b'' (List.mem_cons_of_mem _ hb'')

theorem getLast?_of_pairwise_lt {β κ : Type} [Preorder κ] {f : β → κ} {l : List β} {b : β}
    (hl : l.Pairwise fun b b' => f b < f b') (hb : b ∈ l) (hgreatest : ∀ b' ∈ l, f b' ≤ f b) :
    l.getLast? = some b := by
  obtain ⟨front, last, hlast⟩ := (List.eq_nil_or_concat l).resolve_left (List.ne_nil_of_mem hb)
  rw [List.concat_eq_append] at hlast
  subst hlast
  have hbefore := (List.pairwise_append.mp hl).2.2
  rcases List.mem_append.mp hb with hfront | hmem
  · have hlt := hbefore b hfront last (List.mem_singleton_self last)
    exact absurd hlt (hgreatest last (by simp)).not_gt
  · obtain rfl := List.mem_singleton.mp hmem
    exact List.getLast?_concat

/-- A map from keys to values, with its entries in the order of the keys. -/
structure SortedMap (κ α : Type) [LinearOrder κ] where
  entries : List (κ × α)
  sorted : entries.Pairwise fun e e' => e.1 < e'.1

namespace SortedMap

variable {κ α : Type} [LinearOrder κ] {m m' : SortedMap κ α} {e : κ × α} {k k' : κ} {v : α}

def get (m : SortedMap κ α) (k : κ) : Option α := (m.entries.find? fun e => e.1 = k).map Prod.snd

/-- The first entry of which the key meets a condition. -/
def first (m : SortedMap κ α) (q : κ → Bool) : Option (κ × α) := m.entries.find? fun e => q e.1

/-- The first entry with the key or a greater one. -/
def lowerBound (m : SortedMap κ α) (k : κ) : Option (κ × α) := m.first fun k' => k ≤ k'

/-- The first entry with a greater key. -/
def upperBound (m : SortedMap κ α) (k : κ) : Option (κ × α) := m.first fun k' => k < k'

/-- The last entry of which the key meets a condition. -/
def last (m : SortedMap κ α) (q : κ → Bool) : Option (κ × α) :=
  (m.entries.filter fun e => q e.1).getLast?

def empty : SortedMap κ α := ⟨[], .nil⟩

/-- The entries that meet a condition. -/
def filter (m : SortedMap κ α) (p : κ × α → Bool) : SortedMap κ α :=
  ⟨m.entries.filter p, m.sorted.filter p⟩

def erase (m : SortedMap κ α) (k : κ) : SortedMap κ α := m.filter fun e => e.1 ≠ k

def insert (m : SortedMap κ α) (k : κ) (v : α) : SortedMap κ α where
  entries := m.entries.filter (fun e => e.1 < k) ++ (k, v) :: m.entries.filter fun e => k < e.1
  sorted := by
    rw [List.pairwise_append, List.pairwise_cons]
    refine ⟨m.sorted.filter _, ⟨fun e he => ?_, m.sorted.filter _⟩, fun e he e' he' => ?_⟩
    · simpa using (List.mem_filter.mp he).2
    · have hlt : e.1 < k := by simpa using (List.mem_filter.mp he).2
      rcases List.mem_cons.mp he' with rfl | hgt
      · exact hlt
      · exact hlt.trans (by simpa using (List.mem_filter.mp hgt).2)

theorem nodup_keys (m : SortedMap κ α) : (m.entries.map Prod.fst).Nodup := by
  apply List.pairwise_map.mpr
  exact m.sorted.imp fun h => h.ne

theorem mem_entries : e ∈ m.entries ↔ m.get e.1 = some e.2 := by
  unfold get
  rw [Option.map_eq_some_iff]
  constructor
  · intro he
    cases hfind : m.entries.find? fun e' => e'.1 = e.1 with
    | none => exact absurd (by simp) (List.find?_eq_none.mp hfind e he)
    | some e' =>
      have hkey : e'.1 = e.1 := by simpa using List.find?_some hfind
      have heq := List.inj_on_of_nodup_map m.nodup_keys (List.mem_of_find?_eq_some hfind) he hkey
      exact ⟨e', rfl, congrArg Prod.snd heq⟩
  · rintro ⟨e', hfind, hvalue⟩
    have hkey : e'.1 = e.1 := by simpa using List.find?_some hfind
    have heq : e' = e := Prod.ext hkey hvalue
    exact heq ▸ List.mem_of_find?_eq_some hfind

theorem get_eq_some_iff : m.get k = some v ↔ (k, v) ∈ m.entries :=
  (mem_entries (e := (k, v))).symm

/-- Maps are equal if they have the same entries. -/
theorem ext_get (h : ∀ k, m.get k = m'.get k) : m = m' := by
  obtain ⟨entries, sorted⟩ := m
  obtain ⟨entries', sorted'⟩ := m'
  have hmem : ∀ e, e ∈ entries ↔ e ∈ entries' := by
    intro e
    have hleft := mem_entries (m := ⟨entries, sorted⟩) (e := e)
    have hright := mem_entries (m := ⟨entries', sorted'⟩) (e := e)
    rw [h] at hleft
    exact hleft.trans hright.symm
  obtain rfl := eq_of_pairwise_lt sorted sorted' hmem
  rfl

theorem get_filter (p : κ × α → Bool) :
    (m.filter p).get k = some v ↔ m.get k = some v ∧ p (k, v) = true := by
  rw [get_eq_some_iff, get_eq_some_iff]
  exact List.mem_filter

theorem get_erase (m : SortedMap κ α) (k k' : κ) :
    (m.erase k).get k' = if k' = k then none else m.get k' := by
  apply Option.ext
  intro v
  unfold erase
  rw [get_filter]
  by_cases h : k' = k
  · simp [h]
  · simp [h]

theorem get_insert (m : SortedMap κ α) (k k' : κ) (v : α) :
    (m.insert k v).get k' = if k' = k then some v else m.get k' := by
  apply Option.ext
  intro w
  rw [get_eq_some_iff]
  unfold insert
  rw [List.mem_append, List.mem_cons, List.mem_filter, List.mem_filter, ← get_eq_some_iff]
  rcases lt_trichotomy k' k with hlt | rfl | hgt
  · simp [hlt, hlt.ne, hlt.not_gt]
  · simp [eq_comm]
  · simp [hgt, hgt.ne', hgt.not_gt]

/-- Of several values for a key the last one stays. -/
theorem get_foldl_insert {β : Type} (key : β → κ) (value : β → α) (l : List β)
    (m : SortedMap κ α) (k : κ) :
    (l.foldl (fun m b => m.insert (key b) (value b)) m).get k =
      ((l.filter fun b => key b = k).getLast?.map value).or (m.get k) := by
  induction l using List.reverseRecOn with
  | nil => rfl
  | append_singleton l b ih =>
    rw [List.foldl_append, List.foldl_cons, List.foldl_nil, get_insert, ih, List.filter_append]
    by_cases hk : key b = k
    · simp [hk]
    · simp [hk, Ne.symm hk]

/-- The first entry of which the key meets a condition has the least such key. -/
theorem first_eq_some_iff {q : κ → Bool} : m.first q = some e ↔
      m.get e.1 = some e.2 ∧ q e.1 = true ∧ ∀ k, q k = true → k < e.1 → m.get k = none := by
  unfold first
  have hleast : ∀ e, (m.entries.find? fun e => q e.1) = some e →
      ∀ e' ∈ m.entries, q e'.1 = true → e.1 ≤ e'.1 := by
    intro e hfind e' he' hq
    obtain ⟨-, before, behind, hentries, hbefore⟩ := List.find?_eq_some_iff_append.mp hfind
    have hsorted := m.sorted
    rw [hentries, List.pairwise_append, List.pairwise_cons] at hsorted
    rw [hentries, List.mem_append, List.mem_cons] at he'
    rcases he' with hmem | rfl | hmem
    · exact absurd hq (by simpa using hbefore e' hmem)
    · exact le_rfl
    · exact (hsorted.2.1.1 e' hmem).le
  constructor
  · intro hfind
    have hq := List.find?_some (p := fun e : κ × α => q e.1) hfind
    refine ⟨mem_entries.mp (List.mem_of_find?_eq_some hfind), hq, ?_⟩
    intro k hq hlt
    by_contra hsome
    obtain ⟨v, hv⟩ := Option.ne_none_iff_exists'.mp hsome
    exact absurd hlt (hleast e hfind (k, v) (get_eq_some_iff.mp hv) hq).not_gt
  · rintro ⟨hget, hq, hnone⟩
    have hmem := mem_entries.mpr hget
    cases hfind : m.entries.find? fun e => q e.1 with
    | none => exact absurd hq (List.find?_eq_none.mp hfind e hmem)
    | some e' =>
      have hle := hleast e' hfind e hmem hq
      have hmem' := List.mem_of_find?_eq_some hfind
      have hkey : e'.1 = e.1 := by
        rcases hle.lt_or_eq with hlt | heq
        · have hq' := List.find?_some (p := fun e : κ × α => q e.1) hfind
          have habsent := hnone e'.1 hq' hlt
          exact absurd (habsent.symm.trans (mem_entries.mp hmem')) (by simp)
        · exact heq
      rw [List.inj_on_of_nodup_map m.nodup_keys hmem' hmem hkey]

theorem first_eq_none_iff {q : κ → Bool} :
    m.first q = none ↔ ∀ k, q k = true → m.get k = none := by
  rw [first, List.find?_eq_none]
  constructor
  · intro h k hq
    by_contra hsome
    obtain ⟨v, hv⟩ := Option.ne_none_iff_exists'.mp hsome
    exact h (k, v) (get_eq_some_iff.mp hv) hq
  · intro h e he hq
    exact absurd ((h e.1 hq).symm.trans (mem_entries.mp he)) (by simp)

theorem first_congr {q q' : κ → Bool} (h : ∀ k v, m.get k = some v → q k = q' k) :
    m.first q = m.first q' := by
  have hpredicate : ∀ e ∈ m.entries, q e.1 = q' e.1 := fun e he => h e.1 e.2 (mem_entries.mp he)
  unfold first
  rw [List.find?_eq_head?_dropWhile_not (fun e : κ × α => q e.1),
    List.find?_eq_head?_dropWhile_not (fun e : κ × α => q' e.1),
    dropWhile_congr fun e he => by rw [hpredicate e he]]

/-- The last entry of which the key meets a condition has the greatest such key. -/
theorem exists_last {q : κ → Bool} (hget : m.get k = some v) (hq : q k = true) :
    ∃ e, m.last q = some e ∧ m.get e.1 = some e.2 ∧ q e.1 = true ∧
      ∀ k v, m.get k = some v → q k = true → k ≤ e.1 := by
  have hne : m.entries.filter (fun e => q e.1) ≠ [] :=
    List.ne_nil_of_mem (List.mem_filter.mpr ⟨get_eq_some_iff.mp hget, hq⟩)
  obtain ⟨l, e, hl⟩ := (List.eq_nil_or_concat _).resolve_left hne
  rw [List.concat_eq_append] at hl
  have hmem : e ∈ m.entries.filter fun e => q e.1 := by
    rw [hl]
    simp
  obtain ⟨he, hqe⟩ := List.mem_filter.mp hmem
  refine ⟨e, ?_, mem_entries.mp he, hqe, fun k v hget hq => ?_⟩
  · rw [last, hl, List.getLast?_append_of_ne_nil _ (by simp)]
    rfl
  · have hsorted := m.sorted.filter fun e => q e.1
    have hkv : (k, v) ∈ m.entries.filter fun e => q e.1 :=
      List.mem_filter.mpr ⟨get_eq_some_iff.mp hget, hq⟩
    rw [hl] at hsorted hkv
    rcases List.mem_append.mp hkv with hbefore | hlast
    · exact ((List.pairwise_append.mp hsorted).2.2 _ hbefore e (by simp)).le
    · rw [← List.mem_singleton.mp hlast]

theorem get_of_last {q : κ → Bool} (h : m.last q = some e) : m.get e.1 = some e.2 :=
  mem_entries.mp (List.mem_filter.mp (List.mem_of_getLast? h)).1

theorem last_congr {q q' : κ → Bool} (h : ∀ k v, m.get k = some v → q k = q' k) :
    m.last q = m.last q' := by
  unfold last
  rw [List.filter_congr fun e he => h e.1 e.2 (mem_entries.mp he)]

theorem first_of_get {q : κ → Bool} (hget : m.get k = some v) (hq : q k = true)
    (hle : ∀ k', q k' = true → k ≤ k') : m.first q = some (k, v) :=
  first_eq_some_iff.mpr ⟨hget, hq, fun k' hk' hlt => absurd (hle k' hk') hlt.not_ge⟩

theorem lowerBound_eq_some_iff : m.lowerBound k = some e ↔
    m.get e.1 = some e.2 ∧ k ≤ e.1 ∧ ∀ k', k ≤ k' → k' < e.1 → m.get k' = none := by
  rw [lowerBound, first_eq_some_iff]
  simp

theorem lt_of_lowerBound_eq_none (h : m.lowerBound k = none) {k' : κ} (hget : m.get k' = some v) :
    k' < k := by
  rw [← not_le]
  intro hle
  have habsent := first_eq_none_iff.mp h k' (decide_eq_true hle)
  rw [hget] at habsent
  cases habsent

theorem le_of_lowerBound_eq_some (h : m.lowerBound k = some e) {k' : κ}
    (hget : m.get k' = some v) (hle : k ≤ k') : e.1 ≤ k' := by
  rw [← not_lt]
  intro hlt
  have habsent := (lowerBound_eq_some_iff.mp h).2.2 k' hle hlt
  rw [hget] at habsent
  cases habsent

/-- In front of the first entry behind a bound are the entries in front of the bound. -/
theorem last_of_lowerBound {q q' : κ → Bool} (h : m.lowerBound k = some e)
    (hq : ∀ k', q k' = true ↔ k' < e.1) (hq' : ∀ k', q' k' = true ↔ k' < k) :
    m.last q = m.last q' := by
  apply last_congr
  intro k' v hget
  rw [Bool.eq_iff_iff, hq, hq']
  constructor
  · intro hlt
    rw [← not_le]
    exact fun hle => (le_of_lowerBound_eq_some h hget hle).not_gt hlt
  · exact fun hlt => hlt.trans_le (lowerBound_eq_some_iff.mp h).2.1

section Batches

variable {β : Type}

/-- All entries of another map are inserted. -/
def insertAll (m changes : SortedMap κ α) : SortedMap κ α :=
  changes.entries.foldl (fun m e => m.insert e.1 e.2) m

/-- All keys of another map are erased. -/
def eraseAll (m : SortedMap κ α) (keys : SortedMap κ β) : SortedMap κ α :=
  keys.entries.foldl (fun m e => m.erase e.1) m

theorem get_cons {l : List (κ × α)} (h : (e :: l).Pairwise fun e e' => e.1 < e'.1) (k : κ) :
    get ⟨e :: l, h⟩ k = if e.1 = k then some e.2 else get ⟨l, (List.pairwise_cons.mp h).2⟩ k := by
  unfold get
  dsimp only
  rw [List.find?_cons]
  by_cases he : e.1 = k
  · simp [he]
  · simp [he]

/-- The first key is none of the others. -/
theorem get_first {l : List (κ × α)} (h : (e :: l).Pairwise fun e e' => e.1 < e'.1) :
    get ⟨l, (List.pairwise_cons.mp h).2⟩ e.1 = none := by
  by_contra hsome
  obtain ⟨v, hv⟩ := Option.ne_none_iff_exists'.mp hsome
  exact absurd ((List.pairwise_cons.mp h).1 (e.1, v) (get_eq_some_iff.mp hv)) (lt_irrefl _)

theorem get_insertAll (m changes : SortedMap κ α) (k : κ) :
    (m.insertAll changes).get k = (changes.get k).or (m.get k) := by
  obtain ⟨l, hl⟩ := changes
  unfold insertAll
  dsimp only
  induction l generalizing m with
  | nil => rfl
  | cons e l ih =>
    rw [List.foldl_cons, ih _ (List.pairwise_cons.mp hl).2, get_insert, get_cons hl]
    by_cases h : e.1 = k
    · subst h
      rw [if_pos rfl, if_pos rfl, get_first hl]
      rfl
    · rw [if_neg h, if_neg fun heq => h heq.symm]

theorem get_eraseAll (m : SortedMap κ α) (keys : SortedMap κ β) (k : κ) :
    (m.eraseAll keys).get k = if (keys.get k).isSome then none else m.get k := by
  obtain ⟨l, hl⟩ := keys
  unfold eraseAll
  dsimp only
  induction l generalizing m with
  | nil => rfl
  | cons e l ih =>
    rw [List.foldl_cons, ih _ (List.pairwise_cons.mp hl).2, get_erase, get_cons hl]
    by_cases h : e.1 = k
    · subst h
      simp
    · have h' : ¬k = e.1 := fun heq => h heq.symm
      rw [if_neg h, if_neg h']

/-- The first of two entries, of which the left one replaces the right one at the same key. -/
def earlier (left right : Option (κ × α)) : Option (κ × α) :=
  match left, right with
  | none, right => right
  | some e, none => some e
  | some e, some e' => if e.1 ≤ e'.1 then some e else some e'

theorem first_insertAll (m changes : SortedMap κ α) (q : κ → Bool) :
    (m.insertAll changes).first q = earlier (changes.first q) (m.first q) := by
  cases hc : changes.first q with
  | none =>
    have hnone := first_eq_none_iff.mp hc
    cases hm : m.first q with
    | none =>
      have hnone' := first_eq_none_iff.mp hm
      apply first_eq_none_iff.mpr
      intro k hq
      rw [get_insertAll, hnone k hq, hnone' k hq]
      rfl
    | some e =>
      obtain ⟨hget, hq, hleast⟩ := first_eq_some_iff.mp hm
      refine first_eq_some_iff.mpr ⟨?_, hq, fun k hk hlt => ?_⟩
      · rw [get_insertAll, hnone e.1 hq, hget]
        rfl
      · rw [get_insertAll, hnone k hk, hleast k hk hlt]
        rfl
  | some e =>
    obtain ⟨hget, hq, hleast⟩ := first_eq_some_iff.mp hc
    cases hm : m.first q with
    | none =>
      have hnone' := first_eq_none_iff.mp hm
      refine first_eq_some_iff.mpr ⟨?_, hq, fun k hk hlt => ?_⟩
      · rw [get_insertAll, hget]
        rfl
      · rw [get_insertAll, hleast k hk hlt, hnone' k hk]
        rfl
    | some e' =>
      obtain ⟨hget', hq', hleast'⟩ := first_eq_some_iff.mp hm
      unfold earlier
      dsimp only
      split
      · next hle =>
        refine first_eq_some_iff.mpr ⟨?_, hq, fun k hk hlt => ?_⟩
        · rw [get_insertAll, hget]
          rfl
        · rw [get_insertAll, hleast k hk hlt, hleast' k hk (hlt.trans_le hle)]
          rfl
      · next hle =>
        have hlt' : e'.1 < e.1 := not_le.mp hle
        refine first_eq_some_iff.mpr ⟨?_, hq', fun k hk hlt => ?_⟩
        · rw [get_insertAll, hleast e'.1 hq' hlt', hget']
          rfl
        · rw [get_insertAll, hleast k hk (hlt.trans hlt'), hleast' k hk hlt]
          rfl

theorem first_eraseAll (m : SortedMap κ α) (keys : SortedMap κ β) (q : κ → Bool) :
    (m.eraseAll keys).first q = m.first fun k => q k && !(keys.get k).isSome := by
  cases hm : m.first fun k => q k && !(keys.get k).isSome with
  | none =>
    have hnone := first_eq_none_iff.mp hm
    apply first_eq_none_iff.mpr
    intro k hq
    rw [get_eraseAll]
    split
    · rfl
    · next h => exact hnone k (by simp [hq, h])
  | some e =>
    obtain ⟨hget, hq, hleast⟩ := first_eq_some_iff.mp hm
    rw [Bool.and_eq_true, Bool.not_eq_true'] at hq
    refine first_eq_some_iff.mpr ⟨?_, hq.1, fun k hk hlt => ?_⟩
    · rw [get_eraseAll, hq.2, hget]
      rfl
    · rw [get_eraseAll]
      split
      · rfl
      · next h => exact hleast k (by simp [hk, h]) hlt

end Batches

section Suffixes

/-- The entries from the first one on of which the key meets a condition. -/
def dropTo (m : SortedMap κ α) (q : κ → Bool) : List (κ × α) :=
  m.entries.dropWhile fun e => !q e.1

variable {q q' : κ → Bool} {l : List (κ × α)}

theorem head?_dropTo (m : SortedMap κ α) (q : κ → Bool) : (m.dropTo q).head? = m.first q :=
  (List.find?_eq_head?_dropWhile_not (fun e : κ × α => q e.1) m.entries).symm

theorem dropTo_congr (h : ∀ k v, m.get k = some v → q k = q' k) : m.dropTo q = m.dropTo q' :=
  dropWhile_congr fun e he => by rw [h e.1 e.2 (mem_entries.mp he)]

/-- First to a key, then over some of the entries behind it. -/
theorem dropWhile_dropTo {r : κ → Bool} (hq : ∀ k k', k < k' → q k = true → q k' = true) :
    ((m.dropTo q).dropWhile fun e => !r e.1) = m.dropTo fun k => q k && r k := by
  obtain ⟨entries, sorted⟩ := m
  unfold dropTo
  dsimp only
  induction entries with
  | nil => rfl
  | cons e l ih =>
    obtain ⟨hfirst, hrest⟩ := List.pairwise_cons.mp sorted
    by_cases he : q e.1 = true
    · rw [List.dropWhile_cons_of_neg (by simp [he])]
      apply dropWhile_congr
      intro e' he'
      have hq' : q e'.1 = true := by
        rcases List.mem_cons.mp he' with rfl | hmem
        · exact he
        · exact hq _ _ (hfirst e' hmem) he
      simp [hq']
    · rw [List.dropWhile_cons_of_pos (by simp [he]), List.dropWhile_cons_of_pos (by simp [he])]
      exact ih hrest

/-- What is behind the first of these entries. -/
theorem dropWhile_of_dropTo {r : κ → Bool} (h : m.dropTo q = e :: l) :
    (l.dropWhile fun e => !r e.1) = m.dropTo fun k => decide (e.1 < k) && r k := by
  have hentries := List.takeWhile_append_dropWhile (p := fun e => !q e.1) (l := m.entries)
  have hsorted := m.sorted
  unfold dropTo at h ⊢
  rw [h] at hentries
  rw [← hentries, List.pairwise_append, List.pairwise_cons] at hsorted
  obtain ⟨-, ⟨hbehind, -⟩, hbefore⟩ := hsorted
  rw [← hentries, List.dropWhile_append_of_pos]
  · rw [List.dropWhile_cons_of_pos (by simp)]
    apply dropWhile_congr
    intro e' he'
    simp [hbehind e' he']
  · intro e' he'
    have hlt := hbefore e' he' e List.mem_cons_self
    simp [hlt.not_gt]

theorem eq_dropTo_of_cons (h : m.dropTo q = e :: l) : l = m.dropTo fun k => e.1 < k := by
  have hbehind := dropWhile_of_dropTo (r := fun _ => true) h
  simp only [Bool.not_true, Bool.and_true] at hbehind
  rw [← hbehind]
  cases l <;> rfl

theorem sublist_dropTo (m : SortedMap κ α) (q : κ → Bool) :
    (m.dropTo q).Sublist m.entries :=
  List.dropWhile_sublist _

/-- A scan that starts in front of all entries that meet a condition, and breaks off behind them. -/
theorem takeWhile_dropTo {c : κ × α → Bool} (hc : ∀ e ∈ m.entries, c e = true → q e.1 = true)
    (hbetween : ∀ e ∈ m.entries, ∀ e' ∈ m.entries, q e.1 = true → e.1 < e'.1 → c e' = true →
      c e = true)
    (hq : ∀ k k', k < k' → q k = true → q k' = true) :
    (m.dropTo q).takeWhile c = m.entries.filter c := by
  obtain ⟨entries, sorted⟩ := m
  unfold dropTo
  dsimp only at hc hbetween ⊢
  induction entries with
  | nil => rfl
  | cons e l ih =>
    obtain ⟨hfirst, hrest⟩ := List.pairwise_cons.mp sorted
    have hl := ih hrest (fun e he => hc e (List.mem_cons_of_mem _ he)) fun e he e' he' =>
      hbetween e (List.mem_cons_of_mem _ he) e' (List.mem_cons_of_mem _ he')
    by_cases hqe : q e.1 = true
    · rw [List.dropWhile_cons_of_neg (by simp [hqe])]
      have hall : l.dropWhile (fun e => !q e.1) = l := by
        apply List.dropWhile_eq_self_iff.mpr
        intro hlength
        simp [hq _ _ (hfirst _ (List.getElem_mem hlength)) hqe]
      rw [hall] at hl
      by_cases hce : c e = true
      · rw [List.takeWhile_cons_of_pos hce, List.filter_cons_of_pos hce, hl]
      · have hnone : ∀ e' ∈ l, ¬c e' = true := fun e' he' hce' =>
          hce (hbetween e List.mem_cons_self e' (List.mem_cons_of_mem _ he') hqe (hfirst e' he')
            hce')
        rw [List.takeWhile_cons_of_neg hce, List.filter_cons_of_neg hce,
          List.filter_eq_nil_iff.mpr hnone]
    · have hce : ¬c e = true := fun hce => hqe (hc e List.mem_cons_self hce)
      rw [List.dropWhile_cons_of_pos (by simp [hqe]), List.filter_cons_of_neg hce, hl]

end Suffixes

end SortedMap

end Stores
