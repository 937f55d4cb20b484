import Mathlib.Data.List.Basic

/-!
# Readers that remember a failure

A reader takes symbols from a source. Once something has failed, nothing more is read, and the
failure is found at the end.

## Main definitions

- `Reads`, a successful read, with what it leaves of the source
- `Fails`, a read that fails without an error
- `Latched`, nothing succeeds after a failure
- `parse`, a whole read
-/

namespace Codes

/-- What is left of a source, and whether nothing has failed so far. -/
structure Source (β : Type) where
  src : List β
  ok : Bool
  deriving DecidableEq

abbrev ReadM (ε β : Type) := StateT (Source β) (Except ε)

variable {ε β α γ : Type}

def Reads (m : ReadM ε β α) (src : List β) (a : α) (rest : List β) : Prop :=
  m ⟨src, true⟩ = .ok (a, ⟨rest, true⟩)

def Fails (m : ReadM ε β α) (src : List β) : Prop :=
  ∃ a rest, m ⟨src, true⟩ = .ok (a, ⟨rest, false⟩)

class Latched (m : ReadM ε β α) : Prop where
  stays_failed : ∀ src, ∃ a rest, m ⟨src, false⟩ = .ok (a, ⟨rest, false⟩)

/-- Fails the reader. -/
def fail : ReadM ε β Unit := modify fun r => { r with ok := false }

variable {m : ReadM ε β α} {k : α → ReadM ε β γ} {src rest : List β} {a : α} {x : γ}

theorem bind_eq (m : ReadM ε β α) (k : α → ReadM ε β γ) (r : Source β) :
    (m >>= k) r = (m r >>= fun p => k p.1 p.2) := rfl

@[simp] theorem reads_pure {b : α} : Reads (pure b : ReadM ε β α) src a rest ↔
    b = a ∧ src = rest := by
  unfold Reads
  show Except.ok (b, Source.mk src true) = _ ↔ _
  simp

instance latched_pure (b : α) : Latched (pure b : ReadM ε β α) := ⟨fun src => ⟨b, src, rfl⟩⟩

@[simp] theorem reads_get {r : Source β} : Reads (get : ReadM ε β (Source β)) src r rest ↔
    r = ⟨src, true⟩ ∧ src = rest := by
  unfold Reads
  constructor
  · intro h
    cases h
    exact ⟨rfl, rfl⟩
  · rintro ⟨rfl, rfl⟩
    rfl

instance latched_get : Latched (get : ReadM ε β (Source β)) :=
  ⟨fun src => ⟨⟨src, false⟩, src, rfl⟩⟩

@[simp] theorem not_reads_fail {u : Unit} : ¬Reads (fail : ReadM ε β Unit) src u rest := by
  intro h
  cases h

instance latched_fail : Latched (fail : ReadM ε β Unit) := ⟨fun src => ⟨(), src, rfl⟩⟩

theorem fails_fail : Fails (fail : ReadM ε β Unit) src := ⟨(), src, rfl⟩

instance latched_ite {c : Prop} [Decidable c] {m m' : ReadM ε β α} [Latched m]
    [Latched m'] : Latched (if c then m else m') := by
  split <;> infer_instance

instance latched_dite {c : Prop} [Decidable c] {m : c → ReadM ε β α} {m' : ¬c → ReadM ε β α}
    [∀ h, Latched (m h)] [∀ h, Latched (m' h)] : Latched (if h : c then m h else m' h) := by
  split <;> infer_instance

@[simp] theorem reads_dite {c : Prop} [Decidable c] {m : c → ReadM ε β α}
    {m' : ¬c → ReadM ε β α} : Reads (if h : c then m h else m' h) src a rest ↔
      (∃ h, Reads (m h) src a rest) ∨ ∃ h, Reads (m' h) src a rest := by
  split
  · next h => simp [h]
  · next h => simp [h]

@[simp] theorem reads_ite {c : Prop} [Decidable c] {m m' : ReadM ε β α} :
    Reads (if c then m else m') src a rest ↔
      if c then Reads m src a rest else Reads m' src a rest := by
  split <;> rfl

/-- A successful read of two parts is a successful read of each. -/
@[simp] theorem reads_bind [∀ a, Latched (k a)] :
    Reads (m >>= k) src x rest ↔ ∃ a mid, Reads m src a mid ∧ Reads (k a) mid x rest := by
  unfold Reads
  rw [bind_eq]
  cases hm : m ⟨src, true⟩ with
  | error e =>
    constructor
    · intro h
      cases h
    · rintro ⟨a, mid, h, -⟩
      cases h
  | ok p =>
    obtain ⟨a, mid, ok⟩ := p
    cases ok with
    | true =>
      constructor
      · intro h
        exact ⟨a, mid, rfl, h⟩
      · rintro ⟨a', mid', h, hread⟩
        cases h
        exact hread
    | false =>
      obtain ⟨b, rest', hfail⟩ := Latched.stays_failed (m := k a) mid
      constructor
      · intro h
        cases hfail.symm.trans h
      · rintro ⟨a', mid', h, -⟩
        cases h

instance latched_bind [Latched m] [∀ a, Latched (k a)] : Latched (m >>= k) := by
  constructor
  intro src
  obtain ⟨a, mid, hfirst⟩ := Latched.stays_failed (m := m) src
  obtain ⟨x, rest, hnext⟩ := Latched.stays_failed (m := k a) mid
  refine ⟨x, rest, ?_⟩
  rw [bind_eq, hfirst]
  exact hnext

@[simp] theorem reads_map {f : α → γ} :
    Reads (f <$> m) src x rest ↔ ∃ a, Reads m src a rest ∧ f a = x := by
  rw [map_eq_pure_bind, reads_bind]
  constructor
  · rintro ⟨a, mid, hread, hpure⟩
    obtain ⟨hfa, rfl⟩ := reads_pure.mp hpure
    exact ⟨a, hread, hfa⟩
  · rintro ⟨a, hread, hfa⟩
    exact ⟨a, rest, hread, reads_pure.mpr ⟨hfa, rfl⟩⟩

instance latched_map {f : α → γ} [Latched m] : Latched (f <$> m) := by
  rw [map_eq_pure_bind]
  infer_instance

theorem Fails.bind (h : Fails m src) [∀ a, Latched (k a)] : Fails (m >>= k) src := by
  obtain ⟨a, mid, hfirst⟩ := h
  obtain ⟨x, rest, hnext⟩ := Latched.stays_failed (m := k a) mid
  refine ⟨x, rest, ?_⟩
  rw [bind_eq, hfirst]
  exact hnext

theorem Reads.bind_fails {mid : List β} (h : Reads m src a mid) (hk : Fails (k a) mid) :
    Fails (m >>= k) src := by
  obtain ⟨x, rest, hnext⟩ := hk
  refine ⟨x, rest, ?_⟩
  rw [bind_eq, h]
  exact hnext

/-- What is computed from a read does not change whether the read has succeeded. -/
theorem reads_bind_lift {f : α → Except ε γ} :
    Reads (m >>= fun a => liftM (f a)) src x rest ↔ ∃ a, Reads m src a rest ∧ f a = .ok x := by
  unfold Reads
  rw [bind_eq]
  cases hm : m ⟨src, true⟩ with
  | error e =>
    constructor
    · intro h
      cases h
    · rintro ⟨a, h, -⟩
      cases h
  | ok p =>
    obtain ⟨a, r⟩ := p
    have hlift : (liftM (f a) : ReadM ε β γ) r = (f a >>= fun x => .ok (x, r)) := rfl
    show (liftM (f a) : ReadM ε β γ) r = _ ↔ _
    rw [hlift]
    cases hf : f a with
    | error e =>
      constructor
      · intro h
        cases h
      · rintro ⟨a', h, hf'⟩
        cases h
        cases hf.symm.trans hf'
    | ok x' =>
      constructor
      · intro h
        cases h
        exact ⟨a, rfl, hf⟩
      · rintro ⟨a', h, hf'⟩
        cases h
        cases hf.symm.trans hf'
        rfl

/-- What succeeds in the end has not failed before. -/
theorem Latched.ok_of_ok [Latched m] {ok : Bool} (h : m ⟨src, ok⟩ = .ok (a, ⟨rest, true⟩)) :
    ok = true := by
  cases ok with
  | true => rfl
  | false =>
    obtain ⟨b, rest', hfail⟩ := Latched.stays_failed (m := m) src
    cases hfail.symm.trans h

/-- A whole read, of which only a success gives a value. -/
def parse (m : ReadM ε β α) (src : List β) : Except ε (Option α) := do
  let p ← m ⟨src, true⟩
  return if p.2.ok then some p.1 else none

theorem parse_eq_some : parse m src = .ok (some a) ↔ ∃ rest, Reads m src a rest := by
  unfold parse Reads
  cases hm : m ⟨src, true⟩ with
  | error e =>
    constructor
    · intro h
      cases h
    · rintro ⟨rest, h⟩
      cases h
  | ok p =>
    obtain ⟨b, rest, ok⟩ := p
    show Except.ok (if ok then some b else none) = _ ↔ _
    cases ok <;> simp

theorem Fails.parse (h : Fails m src) : parse m src = .ok none := by
  obtain ⟨a, rest, hm⟩ := h
  unfold Codes.parse
  rw [hm]
  rfl

end Codes
