import Mathlib.Algebra.Order.Floor.Semiring
import Mathlib.Data.Int.GCD
import Mathlib.Data.List.Chain
import Mathlib.Tactic.FieldSimp
import Mathlib.Tactic.Linarith
import Mathlib.Tactic.Ring

/-!
# Timelines

A timeline shows one thing after another, each for its own duration. It can be cut into frames
of equal length: a frame length that divides all durations plays the same, and as long as
neighbours differ no longer one does.

## Main definitions

- `shownAt`, what a timeline shows at a moment
- `frameAt`, what frames of one length show at a moment
- `cut`, a timeline cut into frames
- `unit`, the greatest common divisor of the durations
-/

namespace Timeline

variable {α K : Type*} [Field K] [LinearOrder K]

/-- What is shown at `t`, where the durations count from the start. -/
def shownAt : List (α × ℕ) → K → Option α
  | [], _ => none
  | (x, d) :: rest, t => if t < d then some x else shownAt rest (t - d)

def duration (parts : List (α × ℕ)) : ℕ := (parts.map Prod.snd).sum

/-- Every part repeated as often as frames of length `g` fit into its duration. -/
def cut (g : ℕ) (parts : List (α × ℕ)) : List α :=
  parts.flatMap fun part => List.replicate (part.2 / g) part.1

/-- The greatest common divisor of the durations. -/
def unit (parts : List (α × ℕ)) : ℕ := (parts.map Prod.snd).foldr Nat.gcd 0

@[simp] theorem duration_nil : duration ([] : List (α × ℕ)) = 0 := rfl

@[simp] theorem duration_cons (part : α × ℕ) (rest : List (α × ℕ)) :
    duration (part :: rest) = part.2 + duration rest := rfl

@[simp] theorem cut_nil (g : ℕ) : cut g ([] : List (α × ℕ)) = [] := rfl

@[simp] theorem cut_cons (g : ℕ) (part : α × ℕ) (rest : List (α × ℕ)) :
    cut g (part :: rest) = List.replicate (part.2 / g) part.1 ++ cut g rest := rfl

theorem length_cut {g : ℕ} {parts : List (α × ℕ)} (hg : ∀ part ∈ parts, g ∣ part.2) :
    (cut g parts).length * g = duration parts := by
  induction parts with
  | nil => simp
  | cons part rest ih =>
    obtain ⟨hpart, hrest⟩ := List.forall_mem_cons.mp hg
    rw [cut_cons, List.length_append, List.length_replicate, Nat.add_mul, ih hrest,
      Nat.div_mul_cancel hpart, duration_cons]

theorem unit_dvd {parts : List (α × ℕ)} : ∀ part ∈ parts, unit parts ∣ part.2 := by
  induction parts with
  | nil => simp
  | cons part rest ih =>
    have hrest : unit (part :: rest) ∣ unit rest := Nat.gcd_dvd_right _ _
    exact List.forall_mem_cons.mpr
      ⟨Nat.gcd_dvd_left _ _, fun other hother => hrest.trans (ih other hother)⟩

section Measures

variable [IsStrictOrderedRing K]

/-- What measures all durations, not only in whole numbers, measures their unit. -/
theorem exists_unit_eq_mul {f : K} {parts : List (α × ℕ)}
    (h : ∀ part ∈ parts, ∃ n : ℤ, (part.2 : K) = n * f) :
    ∃ n : ℤ, (unit parts : K) = n * f := by
  induction parts with
  | nil => exact ⟨0, by simp [unit]⟩
  | cons part rest ih =>
    obtain ⟨⟨m, hm⟩, hrest⟩ := List.forall_mem_cons.mp h
    obtain ⟨n, hn⟩ := ih hrest
    let d := part.2
    let g := unit rest
    have hbezout : ((Nat.gcd d g : ℕ) : K) = d * (Nat.gcdA d g : ℤ) + g * (Nat.gcdB d g : ℤ) := by
      exact_mod_cast congrArg (Int.cast : ℤ → K) (Nat.gcd_eq_gcd_ab d g)
    refine ⟨m * Nat.gcdA d g + n * Nat.gcdB d g, ?_⟩
    show ((Nat.gcd d g : ℕ) : K) = _
    rw [hbezout, hm, hn]
    push_cast
    ring

/-- Nothing longer than the unit measures all durations. -/
theorem le_unit {f : K} (hf : 0 < f) {parts : List (α × ℕ)} (hpos : 0 < unit parts)
    (h : ∀ part ∈ parts, ∃ n : ℤ, (part.2 : K) = n * f) : f ≤ unit parts := by
  obtain ⟨n, hn⟩ := exists_unit_eq_mul h
  have hunit : (0 : K) < n * f := by
    rw [← hn]
    exact_mod_cast hpos
  have hone : 1 ≤ n := by exact_mod_cast pos_of_mul_pos_left hunit hf.le
  calc f = 1 * f := (one_mul f).symm
    _ ≤ n * f := mul_le_mul_of_nonneg_right (by exact_mod_cast hone) hf.le
    _ = unit parts := hn.symm

/-- What is shown first. -/
theorem shownAt_zero {x : α} {d : ℕ} {rest : List (α × ℕ)} (hd : 0 < d) :
    shownAt ((x, d) :: rest) (0 : K) = some x := by
  rw [shownAt, if_pos (by exact_mod_cast hd)]

/-- What is shown when the first part ends is what the rest starts with. -/
theorem shownAt_add (x : α) (d : ℕ) (rest : List (α × ℕ)) {t : K} (ht : 0 ≤ t) :
    shownAt ((x, d) :: rest) (d + t) = shownAt rest t := by
  rw [shownAt, if_neg (by linarith), add_sub_cancel_left]

/-- Something is shown until the duration is over. -/
theorem shownAt_ne_none {parts : List (α × ℕ)} {t : K} (ht : 0 ≤ t) (hlt : t < duration parts) :
    shownAt parts t ≠ none := by
  induction parts generalizing t with
  | nil => exact absurd ht (not_le.mpr (by simpa using hlt))
  | cons part rest ih =>
    rw [shownAt]
    split
    · exact nofun
    · next h =>
      rw [duration_cons, Nat.cast_add] at hlt
      exact ih (sub_nonneg.mpr (not_lt.mp h)) (by linarith)

/-- Nothing is shown after that. -/
theorem shownAt_eq_none {parts : List (α × ℕ)} {t : K} (h : (duration parts : K) ≤ t) :
    shownAt parts t = none := by
  induction parts generalizing t with
  | nil => rfl
  | cons part rest ih =>
    rw [duration_cons, Nat.cast_add] at h
    have hrest : (0 : K) ≤ duration rest := Nat.cast_nonneg _
    rw [shownAt, if_neg (by linarith)]
    exact ih (by linarith)

/-- Parts whose neighbours differ, each of them shown for a while. -/
structure Distinct (parts : List (α × ℕ)) : Prop where
  pos : ∀ part ∈ parts, 0 < part.2
  chain : parts.IsChain fun part next => part.1 ≠ next.1

theorem Distinct.tail {part : α × ℕ} {rest : List (α × ℕ)} (h : Distinct (part :: rest)) :
    Distinct rest where
  pos := (List.forall_mem_cons.mp h.pos).2
  chain := h.chain.tail

theorem Distinct.shownAt_rest_ne {x : α} {d : ℕ} {rest : List (α × ℕ)}
    (h : Distinct ((x, d) :: rest)) : shownAt rest (0 : K) ≠ some x := by
  cases rest with
  | nil => simp [shownAt]
  | cons part rest =>
    obtain ⟨y, e⟩ := part
    have hne : x ≠ y := (List.isChain_cons_cons.mp h.chain).1
    rw [shownAt_zero (h.tail.pos _ List.mem_cons_self)]
    intro heq
    exact hne (Option.some.inj heq).symm

theorem Distinct.unit_pos {part : α × ℕ} {rest : List (α × ℕ)} (h : Distinct (part :: rest)) :
    0 < unit (part :: rest) := Nat.gcd_pos_of_pos_left _ (h.pos _ List.mem_cons_self)

end Measures

variable [IsStrictOrderedRing K] [FloorSemiring K]

/-- What frames of length `f` show at `t`. -/
def frameAt (frames : List α) (f t : K) : Option α := frames[⌊t / f⌋₊]?

/-- Cutting at a common divisor of the durations does not change what is shown. -/
theorem frameAt_cut {g : ℕ} (hg : 0 < g) {parts : List (α × ℕ)}
    (hdvd : ∀ part ∈ parts, g ∣ part.2) {t : K} (ht : 0 ≤ t) :
    frameAt (cut g parts) (g : K) t = shownAt parts t := by
  have hg' : (0 : K) < g := by exact_mod_cast hg
  induction parts generalizing t with
  | nil => simp [frameAt, shownAt]
  | cons part rest ih =>
    obtain ⟨⟨n, hn⟩, hrest⟩ := List.forall_mem_cons.mp hdvd
    have hcount : part.2 / g = n := by rw [hn, Nat.mul_div_cancel_left _ hg]
    have hd : ((part.2 : ℕ) : K) = n * g := by rw [hn]; push_cast; ring
    have hlt : t < part.2 ↔ ⌊t / g⌋₊ < n := by
      rw [Nat.floor_lt (div_nonneg ht hg'.le), div_lt_iff₀ hg', hd]
    rw [frameAt, cut_cons, hcount, shownAt]
    by_cases h : t < part.2
    · rw [if_pos h, List.getElem?_append_left (by simpa using hlt.mp h)]
      simp [hlt.mp h]
    · have hle : n ≤ ⌊t / g⌋₊ := Nat.le_of_not_lt fun hlt' => h (hlt.mpr hlt')
      have hshift : (t - part.2) / g = t / g - n := by
        rw [hd]
        field_simp
      have hindex : ⌊t / g⌋₊ - n = ⌊(t - part.2) / g⌋₊ := by
        rw [hshift, Nat.floor_sub_natCast]
      rw [if_neg h, List.getElem?_append_right (by simpa using hle), List.length_replicate, hindex]
      exact ih hrest (sub_nonneg.mpr (not_lt.mp h))

/-- Frames that start later by `n` of them. -/
theorem frameAt_drop (frames : List α) {f t : K} (hf : 0 < f) (ht : 0 ≤ t) (n : ℕ) :
    frameAt (frames.drop n) f t = frameAt frames f (n * f + t) := by
  have hshift : (n * f + t) / f = t / f + n := by
    field_simp
    ring
  rw [frameAt, frameAt, hshift, Nat.floor_add_natCast (div_nonneg ht hf.le), List.getElem?_drop,
    Nat.add_comm]

/-- Frames of equal length that play a timeline whose neighbours differ change with it, so that
every part takes a whole number of them. -/
theorem exists_frames_of_plays {parts : List (α × ℕ)} (hdistinct : Distinct parts)
    {frames : List α} {f : K} (hf : 0 < f)
    (hplays : ∀ t : K, 0 ≤ t → frameAt frames f t = shownAt parts t) :
    ∀ part ∈ parts, ∃ n : ℕ, (part.2 : K) = n * f := by
  induction parts generalizing frames with
  | nil => simp
  | cons part rest ih =>
    obtain ⟨x, d⟩ := part
    have hdpos : (0 : K) ≤ d := Nat.cast_nonneg d
    have hnext : frameAt frames f (d : K) ≠ some x := by
      have hend := shownAt_add x d rest (le_refl (0 : K))
      rw [add_zero] at hend
      rw [hplays d hdpos, hend]
      exact hdistinct.shownAt_rest_ne
    -- the frame that is on when `x` ends is not one that shows `x`, so it starts there
    have hfloor : ((⌊(d : K) / f⌋₊ : ℕ) : K) * f = d := by
      refine le_antisymm ?_ (not_lt.mp fun hlt => hnext ?_)
      · exact (le_div_iff₀ hf).mp (Nat.floor_le (div_nonneg hdpos hf.le))
      · have hstart : (0 : K) ≤ (⌊(d : K) / f⌋₊ : ℕ) * f := by positivity
        have hsame : frameAt frames f ((⌊(d : K) / f⌋₊ : ℕ) * f) = frameAt frames f d := by
          rw [frameAt, frameAt, mul_div_cancel_right₀ _ hf.ne', Nat.floor_natCast]
        rw [← hsame, hplays _ hstart, shownAt, if_pos hlt]
    have hdrop : ∀ t : K, 0 ≤ t →
        frameAt (frames.drop ⌊(d : K) / f⌋₊) f t = shownAt rest t := by
      intro t ht
      rw [frameAt_drop frames hf ht, hfloor, hplays _ (add_nonneg hdpos ht)]
      exact shownAt_add x d rest ht
    exact List.forall_mem_cons.mpr ⟨⟨_, hfloor.symm⟩, ih hdistinct.tail hdrop⟩

/-- Frames that play a timeline last at least as long. -/
theorem duration_le_of_plays {parts : List (α × ℕ)} {frames : List α} {f : K} (hf : 0 < f)
    (hplays : ∀ t : K, 0 ≤ t → frameAt frames f t = shownAt parts t) :
    (duration parts : K) ≤ frames.length * f := by
  by_contra hlt
  have hend : (0 : K) ≤ frames.length * f := by positivity
  have hnone : frameAt frames f (frames.length * f) = none := by
    rw [frameAt, mul_div_cancel_right₀ _ hf.ne', Nat.floor_natCast]
    exact List.getElem?_eq_none le_rfl
  exact shownAt_ne_none hend (not_le.mp hlt) ((hplays _ hend).symm.trans hnone)

/-- Frames that change at all take some time. -/
theorem frame_pos_of_plays {part : α × ℕ} {rest : List (α × ℕ)} (hpart : 0 < part.2)
    {frames : List α} {f : K}
    (hplays : ∀ t : K, 0 ≤ t → frameAt frames f t = shownAt (part :: rest) t) : 0 < f := by
  by_contra hf
  have hfirst : ∀ t : K, 0 ≤ t → frameAt frames f t = frames[0]? := fun t ht => by
    rw [frameAt, Nat.floor_of_nonpos (div_nonpos_of_nonneg_of_nonpos ht (not_lt.mp hf))]
  have hend : (0 : K) ≤ duration (part :: rest) := Nat.cast_nonneg _
  have hsame := (hplays _ hend).symm.trans (hfirst _ hend)
  rw [shownAt_eq_none le_rfl, ← hfirst 0 le_rfl, hplays 0 le_rfl, shownAt_zero hpart] at hsame
  cases hsame

/-- No frames of equal length are fewer than those of the unit, if neighbours differ. -/
theorem length_cut_unit_le {parts : List (α × ℕ)} (hdistinct : Distinct parts) {frames : List α}
    {f : K} (hplays : ∀ t : K, 0 ≤ t → frameAt frames f t = shownAt parts t) :
    (cut (unit parts) parts).length ≤ frames.length := by
  cases parts with
  | nil => exact Nat.zero_le _
  | cons part rest =>
    have hf : 0 < f := frame_pos_of_plays (hdistinct.pos _ List.mem_cons_self) hplays
    have hpos : 0 < unit (part :: rest) := hdistinct.unit_pos
    have hmeasures : ∀ p ∈ part :: rest, ∃ n : ℤ, (p.2 : K) = n * f := fun p hp => by
      obtain ⟨n, hn⟩ := exists_frames_of_plays hdistinct hf hplays p hp
      exact ⟨n, by exact_mod_cast hn⟩
    have hle : f ≤ unit (part :: rest) := le_unit hf hpos hmeasures
    have hlength : ((cut (unit (part :: rest)) (part :: rest)).length : K) *
        unit (part :: rest) ≤ frames.length * unit (part :: rest) := by
      calc ((cut (unit (part :: rest)) (part :: rest)).length : K) * unit (part :: rest)
          = duration (part :: rest) := by exact_mod_cast length_cut unit_dvd
        _ ≤ frames.length * f := duration_le_of_plays hf hplays
        _ ≤ frames.length * unit (part :: rest) :=
          mul_le_mul_of_nonneg_left hle (Nat.cast_nonneg _)
    exact_mod_cast le_of_mul_le_mul_right hlength (by exact_mod_cast hpos)

end Timeline
