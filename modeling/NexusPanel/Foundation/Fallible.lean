import Mathlib.Logic.Basic

/-!
# Fallible computations

A handler that may throw returns `Except ε α`. Two combinators cover the guards such
handlers are made of: `Option.orThrow` for a lookup whose absence is an error and `require`
for a test. The simp lemmas invert a successful computation into the facts its guards
checked, so that a specification of a handler is obtained by one rewriting step.
-/

namespace Fallible

variable {ε α β : Type*}

/-- Pass when the test succeeds. -/
def require (b : Bool) (e : ε) : Except ε Unit := if b then .ok () else .error e

/-- The value, or the error when there is none. -/
def orThrow (o : Option α) (e : ε) : Except ε α :=
  match o with
  | some a => .ok a
  | none => .error e

@[simp] theorem bind_eq_ok {ε : Type u} {α β : Type v} {x : Except ε α} {f : α → Except ε β}
    {b : β} : x >>= f = .ok b ↔ ∃ a, x = .ok a ∧ f a = .ok b := by
  cases x with
  | error e => exact ⟨fun h => (nomatch h), fun ⟨_, h, _⟩ => (nomatch h)⟩
  | ok a => exact ⟨fun h => ⟨a, rfl, h⟩, fun ⟨_, h, hf⟩ => by cases h; exact hf⟩

@[simp] theorem require_eq_ok {b : Bool} {e : ε} {u : Unit} :
    require b e = .ok u ↔ b = true := by
  cases b <;> simp [require]

@[simp] theorem orThrow_eq_ok {o : Option α} {e : ε} {a : α} :
    orThrow o e = .ok a ↔ o = some a := by
  cases o <;> simp [orThrow]

@[simp] theorem pure_eq_ok {a b : α} : (pure a : Except ε α) = .ok b ↔ a = b := by
  change Except.ok a = .ok b ↔ _
  rw [Except.ok.injEq]

/-! And forwards, when it is known how each step ends. -/

section Forwards

variable {ε : Type u} {α β : Type v} {e : ε}

theorem ok_bind (a : α) (f : α → Except ε β) : Except.ok a >>= f = f a := rfl

theorem error_bind (f : α → Except ε β) : (Except.error e : Except ε α) >>= f = .error e := rfl

theorem orThrow_some (a : α) : orThrow (some a) e = .ok a := rfl

theorem orThrow_none : orThrow (none : Option α) e = .error e := rfl

theorem require_true : require true e = .ok () := rfl

theorem require_false : require false e = .error e := rfl

end Forwards

end Fallible
