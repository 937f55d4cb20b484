import Mathlib.Data.List.Basic

/-!
# Operations that abort the process

What the language's own operations do outside their domain: subscripts, forced unwrapping and
64-bit arithmetic.
-/

namespace GasNow

/-- The ways in which a handler aborts the process. -/
inductive Trap where
  /-- An array subscript, `remove(at:)` or a string index outside the collection. -/
  | indexOutOfRange
  /-- `as!` on a value of another type, or on no value. -/
  | forcedCast
  /-- `!` on no value. -/
  | forcedUnwrap
  /-- Integer arithmetic, or a conversion to an integer, outside 64 bits. -/
  | overflow
  /-- `precondition`; `HARD_ASSERT`, `HARD_FAIL` or `ThrowInvalidArgument` of the Firestore client;
  an assertion of its database. -/
  | hardAssert
  deriving DecidableEq, Repr

variable {α : Type}

/-- `x!` -/
def unwrap : Option α → Except Trap α
  | some x => .ok x
  | none => .error .forcedUnwrap

/-- `x ?? y`, which evaluates `y` only where there is no `x`. -/
def coalesce (x : Option α) (y : Except Trap α) : Except Trap α :=
  match x with
  | some x => .ok x
  | none => y

/-- The result of 64-bit arithmetic, which traps on overflow. -/
def checked (n : Int) : Except Trap Int64 :=
  if h : Int64.minValue.toInt ≤ n ∧ n ≤ Int64.maxValue.toInt then
    .ok (Int64.ofIntLE n h.1 h.2)
  else .error .overflow

/-- `items[index]` -/
def subscript (items : List α) (index : Nat) : Except Trap α :=
  match items[index]? with
  | some x => .ok x
  | none => .error .indexOutOfRange

/-- `items.remove(at: index)` -/
def removeAt (items : List α) (index : Nat) : Except Trap (List α) :=
  if index < items.length then .ok (items.eraseIdx index) else .error .indexOutOfRange

theorem bind_eq_ok {β : Type} {x : Except Trap α} {f : α → Except Trap β} {r : β} :
    (x >>= f) = .ok r ↔ ∃ a, x = .ok a ∧ f a = .ok r := by
  cases x <;> simp [bind, Except.bind]

theorem map_eq_ok {β : Type} {f : α → β} {x : Except Trap α} {r : β} :
    f <$> x = .ok r ↔ ∃ a, x = .ok a ∧ f a = r := by
  cases x <;> simp [Functor.map, Except.map]

@[simp] theorem unwrap_eq_ok {o : Option α} {x : α} : unwrap o = .ok x ↔ o = some x := by
  cases o <;> simp [unwrap]

@[simp] theorem subscript_eq_ok {items : List α} {index : Nat} {x : α} :
    subscript items index = .ok x ↔ items[index]? = some x := by
  cases h : items[index]? <;> simp [subscript, h]

theorem subscript_eq_error {items : List α} {index : Nat} (h : items[index]? = none) :
    subscript items index = .error .indexOutOfRange := by
  simp [subscript, h]

end GasNow
