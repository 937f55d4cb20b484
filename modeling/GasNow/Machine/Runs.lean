import Mathlib.Data.List.Infix

/-!
# Runs of event-driven programs

A program that reacts to events is a step function: in a state, an event is impossible,
kills the process, or leads to the next state. This file defines its runs and the rules by
which properties of runs are derived from properties of one step.

## Main definitions

- `Outcome`, what one event does
- `exec`, the outcome of a list of events taken in order
- `Always`, a property of every state that a run reaches
- `Meets`, a property of every step that a run takes
- `Attempts`, a property of every event that a run attempts, with its outcome
-/

namespace Machine

/-- What one event does in one state. -/
inductive Outcome (τ σ : Type*) where
  /-- The event cannot happen in this state. -/
  | blocked
  /-- The event kills the process. -/
  | trap (t : τ)
  | next (s : σ)
  deriving DecidableEq, Repr

variable {σ ε τ : Type*}

/-- Continue with the next state, if there is one. -/
def Outcome.bind {σ' : Type*} (o : Outcome τ σ) (f : σ → Outcome τ σ') : Outcome τ σ' :=
  match o with
  | .blocked => .blocked
  | .trap t => .trap t
  | .next s => f s

theorem Outcome.bind_eq_next {σ' : Type*} {o : Outcome τ σ} {f : σ → Outcome τ σ'} {t : σ'} :
    o.bind f = .next t ↔ ∃ s, o = .next s ∧ f s = .next t := by
  cases o <;> simp [Outcome.bind]

/-- A computation that may trap, as the outcome of an event that can happen. -/
def Outcome.ofExcept : Except τ σ → Outcome τ σ
  | .error t => .trap t
  | .ok s => .next s

@[simp] theorem Outcome.ofExcept_eq_next {x : Except τ σ} {s : σ} :
    Outcome.ofExcept x = .next s ↔ x = .ok s := by
  cases x <;> simp [Outcome.ofExcept]

section Runs

variable (step : σ → ε → Outcome τ σ)

/-- The outcome of a list of events taken in order. -/
def exec (s : σ) : List ε → Outcome τ σ
  | [] => .next s
  | e :: es => (step s e).bind fun t => exec t es

/-- `P` holds in every state that the run reaches, the first one included. -/
def Always (P : σ → Prop) (s : σ) (es : List ε) : Prop :=
  ∀ pre t, pre <+: es → exec step s pre = .next t → P t

/-- `Q` holds of every event that the run attempts, in the state it is attempted in and
with what it does there. -/
def Attempts (Q : σ → ε → Outcome τ σ → Prop) (s : σ) (es : List ε) : Prop :=
  ∀ pre e t, pre ++ [e] <+: es → exec step s pre = .next t → step t e ≠ .blocked →
    Q t e (step t e)

/-- Every step that the run takes is taken in a state where `ok` allows it. -/
def Meets (ok : σ → ε → Prop) (s : σ) (es : List ε) : Prop :=
  Attempts step (fun t e o => ∀ t', o = .next t' → ok t e) s es

variable {step}

@[simp] theorem exec_nil (s : σ) : exec step s [] = .next s := rfl

theorem exec_cons_eq_next {s u : σ} {e : ε} {es : List ε} :
    exec step s (e :: es) = .next u ↔ ∃ t, step s e = .next t ∧ exec step t es = .next u :=
  Outcome.bind_eq_next

theorem always_nil {P : σ → Prop} {s : σ} : Always step P s [] ↔ P s := by
  constructor
  · intro h
    exact h [] s List.nil_prefix rfl
  · intro h pre t hpre ht
    obtain rfl := List.prefix_nil.mp hpre
    obtain rfl : s = t := by simpa using ht
    exact h

theorem always_cons {P : σ → Prop} {s : σ} {e : ε} {es : List ε} :
    Always step P s (e :: es) ↔
      P s ∧ ∀ t, step s e = .next t → Always step P t es := by
  constructor
  · intro h
    refine ⟨h [] s (List.nil_prefix) rfl, fun t ht pre u hpre hu => ?_⟩
    exact h (e :: pre) u (List.cons_prefix_cons.mpr ⟨rfl, hpre⟩)
      (exec_cons_eq_next.mpr ⟨t, ht, hu⟩)
  · rintro ⟨hs, h⟩ pre u hpre hu
    cases pre with
    | nil =>
      obtain rfl : s = u := by simpa using hu
      exact hs
    | cons a pre =>
      obtain ⟨rfl, htail⟩ := List.cons_prefix_cons.mp hpre
      obtain ⟨t, ht, hu⟩ := exec_cons_eq_next.mp hu
      exact h t ht pre u htail hu

theorem attempts_nil {Q : σ → ε → Outcome τ σ → Prop} {s : σ} : Attempts step Q s [] := by
  intro pre e t hpre
  simp at hpre

theorem attempts_cons {Q : σ → ε → Outcome τ σ → Prop} {s : σ} {e : ε} {es : List ε} :
    Attempts step Q s (e :: es) ↔
      (step s e ≠ .blocked → Q s e (step s e)) ∧
        ∀ t, step s e = .next t → Attempts step Q t es := by
  constructor
  · intro h
    refine ⟨h [] e s (by simp) rfl, fun t ht pre f u hpre hu => ?_⟩
    exact h (e :: pre) f u (List.cons_prefix_cons.mpr ⟨rfl, hpre⟩)
      (exec_cons_eq_next.mpr ⟨t, ht, hu⟩)
  · rintro ⟨hs, h⟩ pre f u hpre hu
    cases pre with
    | nil =>
      obtain rfl : s = u := by simpa using hu
      obtain rfl : f = e := by simpa using hpre
      exact hs
    | cons a pre =>
      obtain ⟨rfl, htail⟩ := List.cons_prefix_cons.mp hpre
      obtain ⟨t, ht, hu⟩ := exec_cons_eq_next.mp hu
      exact h t ht pre f u htail hu

theorem Always.last {P : σ → Prop} {s t : σ} {es : List ε} (h : Always step P s es)
    (ht : exec step s es = .next t) : P t :=
  h es t (List.prefix_refl es) ht

theorem Always.imp {P P' : σ → Prop} {s : σ} {es : List ε} (h : Always step P s es)
    (himp : ∀ t, P t → P' t) : Always step P' s es :=
  fun pre t hpre ht => himp t (h pre t hpre ht)

/-- **Conditional invariant rule**: what every allowed step keeps holds in every state of
every run that takes allowed steps only. -/
theorem always_of_meets {I : σ → Prop} {ok : σ → ε → Prop}
    (hstep : ∀ s e t, I s → ok s e → step s e = .next t → I t) {s : σ} (hs : I s)
    {es : List ε} (hok : Meets step ok s es) : Always step I s es := by
  induction es generalizing s with
  | nil => exact always_nil.mpr hs
  | cons e es ih =>
    obtain ⟨he, hes⟩ := attempts_cons.mp hok
    refine always_cons.mpr ⟨hs, fun t ht => ih (hstep s e t hs ?_ ht) (hes t ht)⟩
    exact he (by simp [ht]) t ht

/-- **Invariant rule**: what every step keeps holds in every state of every run. -/
theorem always_of_step {I : σ → Prop} (hstep : ∀ s e t, I s → step s e = .next t → I t) {s : σ}
    (hs : I s) (es : List ε) : Always step I s es := by
  have hmeets : Meets step (fun _ _ => True) s es := fun _ _ _ _ _ _ _ _ => trivial
  exact always_of_meets (fun s e t hi _ ht => hstep s e t hi ht) hs hmeets

theorem Attempts.meets {ok : σ → ε → Prop} {s : σ} {es : List ε}
    (h : Attempts step (fun t e _ => ok t e) s es) : Meets step ok s es :=
  fun pre e t hpre ht hb _ _ => h pre e t hpre ht hb

/-- **Conditional attempt rule**: what every allowed step keeps, and implies of the events
attempted in it, holds of every event of a run that attempts allowed events only. -/
theorem attempts_of_step {I : σ → Prop} {ok : σ → ε → Prop} {Q : σ → ε → Outcome τ σ → Prop}
    (hstep : ∀ s e t, I s → ok s e → step s e = .next t → I t)
    (hQ : ∀ s e, I s → ok s e → step s e ≠ .blocked → Q s e (step s e)) {s : σ} (hs : I s)
    {es : List ε} (hok : Attempts step (fun t e _ => ok t e) s es) : Attempts step Q s es := by
  induction es generalizing s with
  | nil => exact attempts_nil
  | cons e es ih =>
    obtain ⟨he, hes⟩ := attempts_cons.mp hok
    refine attempts_cons.mpr ⟨fun hb => hQ s e hs (he hb) hb, fun t ht => ?_⟩
    exact ih (hstep s e t hs (he (by simp [ht])) ht) (hes t ht)

/-- **Exactness rule**: when, in the states that keep `I` and have `P`, the allowed steps on
events in `E` are precisely those that keep `P`, then the runs that have `P` throughout are
precisely those that take allowed steps only. `I` need not survive a step that loses `P`. -/
theorem always_iff_meets {I P : σ → Prop} {ok : σ → ε → Prop} {E : ε → Prop}
    (hinv : ∀ s e t, E e → I s → P s → P t → step s e = .next t → I t)
    (hstep : ∀ s e t, E e → I s → P s → step s e = .next t → (P t ↔ ok s e))
    {s : σ} (hI : I s) (hP : P s) {es : List ε} (hes : ∀ e ∈ es, E e) :
    Always step P s es ↔ Meets step ok s es := by
  induction es generalizing s with
  | nil => exact iff_of_true (always_nil.mpr hP) attempts_nil
  | cons e es ih =>
    obtain ⟨he, hes⟩ := List.forall_mem_cons.mp hes
    rw [always_cons, Meets, attempts_cons]
    constructor
    · rintro ⟨-, h⟩
      -- every state of the rest of the run has `P`, its first one included
      have hPt : ∀ t, step s e = .next t → P t := fun t ht => (h t ht) [] t (by simp) rfl
      refine ⟨fun _ t ht => (hstep s e t he hI hP ht).mp (hPt t ht), fun t ht => ?_⟩
      exact (ih (hinv s e t he hI hP (hPt t ht) ht) (hPt t ht) hes).mp (h t ht)
    · rintro ⟨hok, h⟩
      refine ⟨hP, fun t ht => ?_⟩
      have hPt : P t := (hstep s e t he hI hP ht).mpr (hok (by simp [ht]) t ht)
      exact (ih (hinv s e t he hI hP hPt ht) hPt hes).mpr (h t ht)

/-- Two properties of attempted events that agree in every state keeping an invariant hold
of the same runs. -/
theorem attempts_congr {I : σ → Prop} {Q Q' : σ → ε → Outcome τ σ → Prop} {E : ε → Prop}
    (hinv : ∀ s e t, E e → I s → step s e = .next t → I t)
    (hQ : ∀ s e, E e → I s → step s e ≠ .blocked → (Q s e (step s e) ↔ Q' s e (step s e)))
    {s : σ} (hI : I s) {es : List ε} (hes : ∀ e ∈ es, E e) :
    Attempts step Q s es ↔ Attempts step Q' s es := by
  induction es generalizing s with
  | nil => exact iff_of_true attempts_nil attempts_nil
  | cons e es ih =>
    obtain ⟨he, hes⟩ := List.forall_mem_cons.mp hes
    rw [attempts_cons, attempts_cons]
    constructor
    · rintro ⟨hs, h⟩
      exact ⟨fun hb => (hQ s e he hI hb).mp (hs hb),
        fun t ht => (ih (hinv s e t he hI ht) hes).mp (h t ht)⟩
    · rintro ⟨hs, h⟩
      exact ⟨fun hb => (hQ s e he hI hb).mpr (hs hb),
        fun t ht => (ih (hinv s e t he hI ht) hes).mpr (h t ht)⟩

end Runs

section Simulation

variable {σ' : Type*} {step : σ → ε → Outcome τ σ} {step' : σ' → ε → Outcome τ σ'}

/-- What an event does, with a view of the next state in its place. -/
def Outcome.map (f : σ → σ') (o : Outcome τ σ) : Outcome τ σ' := o.bind fun s => .next (f s)

/-- Two outcomes of the same kind, with related next states. -/
inductive Outcome.Related (R : σ → σ' → Prop) : Outcome τ σ → Outcome τ σ' → Prop where
  | blocked : Related R .blocked .blocked
  | trap (t : τ) : Related R (.trap t) (.trap t)
  | next {s : σ} {s' : σ'} (h : R s s') : Related R (.next s) (.next s')

theorem Outcome.Related.map_eq {R : σ → σ' → Prop} {υ : Type*} {f : σ → υ} {f' : σ' → υ}
    {o : Outcome τ σ} {o' : Outcome τ σ'} (h : Related R o o')
    (hR : ∀ s s', R s s' → f s = f' s') : o.map f = o'.map f' := by
  cases h with
  | blocked => rfl
  | trap t => rfl
  | next h => exact congrArg Outcome.next (hR _ _ h)

theorem Outcome.Related.eq_error {R : σ → σ' → Prop} {x : Except τ σ} {t : τ}
    (h : (Outcome.ofExcept x).Related R (.ofExcept (.error t))) : x = .error t := by
  cases x with
  | error t' =>
    cases h
    rfl
  | ok s => cases h

theorem Outcome.Related.exists_of_ok {R : σ → σ' → Prop} {x : Except τ σ} {s' : σ'}
    (h : (Outcome.ofExcept x).Related R (.ofExcept (.ok s'))) : ∃ s, x = .ok s ∧ R s s' := by
  cases x with
  | error t => cases h
  | ok s =>
    cases h with
    | next hs => exact ⟨s, rfl, hs⟩

/-- Loops are related when their bodies are, for every item. -/
theorem related_foldlM {R : σ → σ' → Prop} {f : σ → ε → Except τ σ} {f' : σ' → ε → Except τ σ'}
    {items : List ε} (hbody : ∀ s s', R s s' → ∀ e ∈ items,
      (Outcome.ofExcept (f s e)).Related R (.ofExcept (f' s' e)))
    {s : σ} {s' : σ'} (hs : R s s') :
    (Outcome.ofExcept (items.foldlM f s)).Related R (.ofExcept (items.foldlM f' s')) := by
  induction items generalizing s s' with
  | nil => exact .next hs
  | cons e items ih =>
    have hfirst := hbody s s' hs e List.mem_cons_self
    rw [List.foldlM_cons, List.foldlM_cons]
    cases hx' : f' s' e with
    | error t =>
      rw [hx'] at hfirst
      rw [hfirst.eq_error]
      exact .trap t
    | ok next' =>
      rw [hx'] at hfirst
      obtain ⟨next, hx, hnext⟩ := hfirst.exists_of_ok
      rw [hx]
      exact ih (fun t t' ht e' he' => hbody t t' ht e' (List.mem_cons_of_mem e he')) hnext

/-- **Simulation rule**: when every allowed step of a program does what the related state of
another program allows, so does every run of allowed steps. -/
theorem exec_related {R : σ → σ' → Prop} (ok : σ' → ε → Prop)
    (hstep : ∀ s s' e, R s s' → (step' s' e ≠ .blocked → ok s' e) →
      (step s e).Related R (step' s' e)) {s : σ} {s' : σ'}
    (hs : R s s') {es : List ε} (hok : Attempts step' (fun t e _ => ok t e) s' es) :
    (exec step s es).Related R (exec step' s' es) := by
  induction es generalizing s s' with
  | nil => exact .next hs
  | cons e es ih =>
    obtain ⟨he, hes⟩ := attempts_cons.mp hok
    have hrelated := hstep s s' e hs he
    unfold exec
    generalize step s e = o at hrelated
    generalize step' s' e = o' at hrelated hes
    cases hrelated with
    | blocked => exact .blocked
    | trap t => exact .trap t
    | next ht => exact ih ht (hes _ rfl)

/-- A view of the states, under which every step does what a step of another program does. What
is kept may depend on the events that are still to come. -/
theorem exec_map {I : σ → List ε → Prop} {view : σ → σ'}
    (hstep : ∀ s e es t, I s (e :: es) → step s e = .next t → I t es)
    (hview : ∀ s e es, I s (e :: es) → (step s e).map view = step' (view s) e) {s : σ}
    {es : List ε} (hs : I s es) : (exec step s es).map view = exec step' (view s) es := by
  induction es generalizing s with
  | nil => rfl
  | cons e es ih =>
    have hfirst := hview s e es hs
    unfold exec
    rw [← hfirst]
    cases ho : step s e with
    | blocked => rfl
    | trap trap => rfl
    | next t => exact ih (hstep s e es t hs ho)

end Simulation

end Machine
