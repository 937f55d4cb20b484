import Mathlib.Data.List.Lex
import Mathlib.Data.Prod.Lex

/-!
# Codes that keep an order

A code writes values as strings of symbols so that the strings are ordered as the values are,
whatever is written behind them. Such codes can be put one after another: what they write is
ordered as the tuples are, from the first component on.

## Main definitions

- `Precedes`, one string is before another at a place where both have a symbol
- `Ordered`, a code that keeps an order in this sense
-/

namespace Codes

section Precedes

variable {β : Type*} [LT β]

/-- `a` is less than `b` at the first place where they differ. -/
def Precedes (a b : List β) : Prop :=
  ∃ p x y s t, x < y ∧ a = p ++ x :: s ∧ b = p ++ y :: t

variable {a b : List β}

theorem precedes_cons {x y : β} (h : x < y) (s t : List β) : Precedes (x :: s) (y :: t) :=
  ⟨[], x, y, s, t, h, rfl, rfl⟩

/-- What is written behind the strings does not change their order. -/
theorem Precedes.append (h : Precedes a b) (u v : List β) : Precedes (a ++ u) (b ++ v) := by
  obtain ⟨p, x, y, s, t, hxy, rfl, rfl⟩ := h
  refine ⟨p, x, y, s ++ u, t ++ v, hxy, ?_, ?_⟩
  · simp
  · simp

theorem Precedes.prepend (h : Precedes a b) (p : List β) : Precedes (p ++ a) (p ++ b) := by
  obtain ⟨q, x, y, s, t, hxy, rfl, rfl⟩ := h
  refine ⟨p ++ q, x, y, s, t, hxy, ?_, ?_⟩
  · simp
  · simp

theorem Precedes.lt (h : Precedes a b) : a < b := by
  obtain ⟨p, x, y, s, t, hxy, rfl, rfl⟩ := h
  apply List.append_left_lt
  exact List.cons_lt_cons_iff.mpr (.inl hxy)

end Precedes

section LinearOrder

variable {β : Type*} [LinearOrder β] {a b : List β}

theorem Precedes.not_lt (h : Precedes a b) : ¬b < a := lt_asymm h.lt

theorem append_left_lt_iff (p : List β) : p ++ a < p ++ b ↔ a < b := by
  induction p with
  | nil => rfl
  | cons x p ih =>
    rw [List.cons_append, List.cons_append, List.cons_lt_cons_iff, ih]
    simp

/-- A string does not precede its own continuations. -/
theorem Precedes.incomparable (h : Precedes a b) : ¬a <+: b := by
  rintro ⟨u, rfl⟩
  have hself : a ++ u < a ++ u := by
    have hu := h.append u []
    rw [List.append_nil] at hu
    exact hu.lt
  exact lt_irrefl _ hself

end LinearOrder

section Ordered

variable {α α' β : Type*} [LT β] {r : α → α → Prop} {r' : α' → α' → Prop}
  {e : α → List β} {e' : α' → List β}

/-- The code `e` keeps the order `r`. -/
def Ordered (r : α → α → Prop) (e : α → List β) : Prop :=
  ∀ ⦃x y⦄, r x y → Precedes (e x) (e y)

/-- One code after another keeps the order of the pairs. -/
theorem Ordered.prod (h : Ordered r e) (h' : Ordered r' e') :
    Ordered (Prod.Lex r r') fun p => e p.1 ++ e' p.2 := by
  intro p q hpq
  cases hpq with
  | left x' y' hr => exact (h hr).append _ _
  | right x hr => exact (h' hr).prepend _

/-- A list is before its own continuations if its terminator is before every entry. -/
theorem Ordered.list {terminator : List β} (h : Ordered r e)
    (hterminator : ∀ x, Precedes terminator (e x)) :
    Ordered (List.Lex r) fun l => l.flatMap e ++ terminator := by
  intro l m hlm
  induction hlm with
  | nil =>
    rename_i x rest
    have hx := (hterminator x).append [] (rest.flatMap e ++ terminator)
    simpa using hx
  | cons _ ih =>
    rename_i x l m _
    have hx := ih.prepend (e x)
    simpa using hx
  | rel hr =>
    rename_i x l y m
    have hx := (h hr).append (l.flatMap e ++ terminator) (m.flatMap e ++ terminator)
    simpa using hx

/-- What follows all codes alike does not change their order. -/
theorem Ordered.append_right (h : Ordered r e) (t : List β) : Ordered r fun x => e x ++ t :=
  fun _ _ hxy => (h hxy).append t t

/-- What is in front of all codes alike does not change their order. -/
theorem Ordered.append_left (h : Ordered r e) (s : List β) : Ordered r fun x => s ++ e x :=
  fun _ _ hxy => (h hxy).prepend s

/-- The order of what is encoded of a record. -/
theorem Ordered.comap (h : Ordered r e) (f : α' → α) :
    Ordered (fun x y => r (f x) (f y)) fun x => e (f x) :=
  fun _ _ hxy => h hxy

end Ordered

section Compare

variable {α β : Type*} [LinearOrder β] {r : α → α → Prop} {e : α → List β}

theorem Ordered.injective [Std.Trichotomous r] (h : Ordered r e) : Function.Injective e := by
  intro x y hxy
  apply Std.Trichotomous.trichotomous (r := r)
  · intro hr
    exact (h hr).incomparable (hxy ▸ List.prefix_rfl)
  · intro hr
    exact (h hr).incomparable (hxy ▸ List.prefix_rfl)

/-- Strings of items are ordered by the first item first, then by what is behind it. -/
theorem Ordered.append_lt_append_iff [Std.Trichotomous r] (h : Ordered r e) {x y : α}
    {s t : List β} : e x ++ s < e y ++ t ↔ r x y ∨ x = y ∧ s < t := by
  constructor
  · intro hlt
    by_cases hxy : x = y
    · subst hxy
      right
      exact ⟨rfl, (append_left_lt_iff _).mp hlt⟩
    · left
      by_contra hr
      have hr' : r y x := by
        by_contra hr'
        exact hxy (Std.Trichotomous.trichotomous (r := r) x y hr hr')
      exact ((h hr').append t s).not_lt hlt
  · rintro (hr | ⟨rfl, hst⟩)
    · exact ((h hr).append s t).lt
    · exact (append_left_lt_iff _).mpr hst

end Compare

end Codes
