/-! # Outcomes of imperative code

A piece of imperative code that is given a budget of loop rounds either returns
a value, throws, or is still running when the budget is used up.  `Outcome` is
that three-way result, with sequencing as in any exception monad: what follows
a `threw` or an `unfinished` is not run.
-/

/-- What a budgeted run of a piece of code comes to. -/
inductive Outcome (ε α : Type) where
  | returned (a : α)
  | threw (e : ε)
  | unfinished
deriving DecidableEq, Repr

namespace Outcome
variable {ε α β : Type}

/-- Run `x`, then `f` on what it returned. -/
protected def bind : Outcome ε α → (α → Outcome ε β) → Outcome ε β
  | returned a, f => f a
  | threw e, _ => threw e
  | unfinished, _ => unfinished

instance : Monad (Outcome ε) where
  pure := returned
  bind := Outcome.bind

@[simp] theorem pure_eq (a : α) : (pure a : Outcome ε α) = returned a := rfl

@[simp] theorem returned_bind (a : α) (f : α → Outcome ε β) :
    (returned a >>= f) = f a := rfl

@[simp] theorem threw_bind (e : ε) (f : α → Outcome ε β) :
    ((threw e : Outcome ε α) >>= f) = threw e := rfl

@[simp] theorem unfinished_bind (f : α → Outcome ε β) :
    ((unfinished : Outcome ε α) >>= f) = unfinished := rfl

/-- Sequenced code returns exactly when both parts do. -/
theorem bind_eq_returned {x : Outcome ε α} {f : α → Outcome ε β} {b : β} :
    (x >>= f) = returned b ↔ ∃ a, x = returned a ∧ f a = returned b := by
  cases x <;> simp

/-- A value that may be missing, as a nullable reference: using it when it is
missing throws `e`. -/
def ofOption (e : ε) : Option α → Outcome ε α
  | some a => returned a
  | none => threw e

@[simp] theorem ofOption_some (e : ε) (a : α) : ofOption e (some a) = returned a := rfl

@[simp] theorem ofOption_none (e : ε) : ofOption e (none : Option α) = threw e := rfl

theorem ofOption_eq_returned {e : ε} {x : Option α} {a : α} :
    ofOption e x = returned a ↔ x = some a := by
  cases x <;> simp

/-- Run a call that cannot go on without end, with its exceptions taken as `f` says. -/
def ofExcept {ε' : Type} (f : ε → ε') : Except ε α → Outcome ε' α
  | .ok a => returned a
  | .error e => threw (f e)

@[simp] theorem ofExcept_ok {ε' : Type} (f : ε → ε') (a : α) :
    ofExcept f (.ok a : Except ε α) = returned a := rfl

@[simp] theorem ofExcept_error {ε' : Type} (f : ε → ε') (e : ε) :
    ofExcept f (.error e : Except ε α) = threw (f e) := rfl

theorem ofExcept_eq_returned {ε' : Type} {f : ε → ε'} {x : Except ε α} {a : α} :
    ofExcept f x = returned a ↔ x = .ok a := by
  cases x <;> simp

/-- The same code, with its exceptions taken as `f` says. -/
def mapThrew {ε' : Type} (f : ε → ε') : Outcome ε α → Outcome ε' α
  | returned a => returned a
  | threw e => threw (f e)
  | unfinished => unfinished

@[simp] theorem mapThrew_returned {ε' : Type} (f : ε → ε') (a : α) :
    mapThrew f (returned a : Outcome ε α) = returned a := rfl

@[simp] theorem mapThrew_threw {ε' : Type} (f : ε → ε') (e : ε) :
    mapThrew f (threw e : Outcome ε α) = threw (f e) := rfl

theorem mapThrew_eq_returned {ε' : Type} {f : ε → ε'} {x : Outcome ε α} {a : α} :
    x.mapThrew f = returned a ↔ x = returned a := by
  cases x <;> simp [mapThrew]

/-- `try { x } catch (e) { handler(e) }`, for a handler that does not throw. -/
def catching {ε' : Type} (handler : ε → α) : Outcome ε α → Outcome ε' α
  | returned a => returned a
  | threw e => returned (handler e)
  | unfinished => unfinished

end Outcome

/-- Code that cannot run without end, as `Except`: it is `ok` exactly when both
parts are. -/
theorem Except.bind_eq_ok {ε α β : Type} {x : Except ε α} {f : α → Except ε β} {b : β} :
    (x >>= f) = .ok b ↔ ∃ a, x = .ok a ∧ f a = .ok b := by
  cases x with
  | error e => simp [bind, Except.bind]
  | ok a => simp [bind, Except.bind]

/-- It is an error when its first part is or, after that, its second. -/
theorem Except.bind_eq_error {ε α β : Type} {x : Except ε α} {f : α → Except ε β} {e : ε} :
    (x >>= f) = .error e ↔ x = .error e ∨ ∃ a, x = .ok a ∧ f a = .error e := by
  cases x with
  | error e' => simp [bind, Except.bind]
  | ok a => simp [bind, Except.bind]

/-! ## Code with a state

`EStateM` keeps the state of where an exception was thrown.
-/
namespace EStateM
variable {ε σ α β : Type} {x : EStateM ε σ α} {f : α → EStateM ε σ β} {s t : σ}

theorem bind_eq_ok {b : β} :
    (x >>= f) s = .ok b t ↔ ∃ a u, x s = .ok a u ∧ f a u = .ok b t := by
  show EStateM.bind x f s = _ ↔ _
  unfold EStateM.bind
  cases h : x s with
  | ok a u =>
    constructor
    · intro hf
      exact ⟨a, u, rfl, hf⟩
    · rintro ⟨a', u', heq, hf⟩
      cases heq
      exact hf
  | error e u => simp

/-- Sequenced code throws in its first part or, after that, in its second. -/
theorem bind_eq_error {e : ε} :
    (x >>= f) s = .error e t ↔ x s = .error e t ∨ ∃ a u, x s = .ok a u ∧ f a u = .error e t := by
  show EStateM.bind x f s = _ ↔ _
  unfold EStateM.bind
  cases h : x s with
  | ok a u =>
    constructor
    · intro hf
      exact Or.inr ⟨a, u, rfl, hf⟩
    · rintro (heq | ⟨a', u', heq, hf⟩)
      · cases heq
      · cases heq
        exact hf
  | error e u => simp

theorem ofExcept_eq_ok {x : Except ε α} {a : α} :
    (MonadExcept.ofExcept x : EStateM ε σ α) s = .ok a t ↔ x = .ok a ∧ t = s := by
  cases x with
  | error e => exact ⟨nofun, fun h => nomatch h.1⟩
  | ok a' =>
    constructor
    · intro h
      cases h
      exact ⟨rfl, rfl⟩
    · rintro ⟨h, rfl⟩
      cases h
      rfl

theorem ofExcept_eq_error {x : Except ε α} {e : ε} :
    (MonadExcept.ofExcept x : EStateM ε σ α) s = .error e t ↔ x = .error e ∧ t = s := by
  cases x with
  | ok a => exact ⟨nofun, fun h => nomatch h.1⟩
  | error e' =>
    constructor
    · intro h
      cases h
      exact ⟨rfl, rfl⟩
    · rintro ⟨h, rfl⟩
      cases h
      rfl

end EStateM
