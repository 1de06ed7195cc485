import Mathlib.Algebra.Group.Int

/-!
# What a call of the parser does

The HTTP parser (`CHTTPProtocol`) reports a malformed request by throwing `XHTTP(status)`,
has one loop that need not end, and one `assert`.  A call is modelled as an `Outcome`:

* `done` — it returns;
* `thrown` — it throws `XHTTP(status)`;
* `outOfFuel` — it has not finished within the loop passes it was given;
* `aborted` — an `assert` failed, which ends the program in a build that keeps assertions.
-/

namespace Synergy.Http

/-- `XHTTP`: the exception the parser throws, with the HTTP status it carries. -/
structure XHTTP where
  status : Nat
deriving DecidableEq, Repr

/-- What a call of the parser does: return a value, throw, not finish within the loop
passes it was given, or stop at a failed assertion. -/
inductive Outcome (α : Type) where
  | done (a : α)
  | thrown (e : XHTTP)
  | outOfFuel
  | aborted
deriving DecidableEq, Repr

namespace Outcome

variable {α β : Type}

/-- Sequencing: a throw, running out, or a failed assertion ends the computation. -/
def bind : Outcome α → (α → Outcome β) → Outcome β
  | done a, f => f a
  | thrown e, _ => thrown e
  | outOfFuel, _ => outOfFuel
  | aborted, _ => aborted

instance : Monad Outcome where
  pure := done
  bind := bind

instance : MonadExceptOf XHTTP Outcome where
  throw := thrown
  tryCatch x h := match x with
    | thrown e => h e
    | x => x

@[simp] theorem pure_eq (a : α) : (pure a : Outcome α) = done a := rfl
@[simp] theorem throw_eq (e : XHTTP) : (throw e : Outcome α) = thrown e := rfl
@[simp] theorem done_bind (a : α) (f : α → Outcome β) : (done a >>= f) = f a := rfl
@[simp] theorem thrown_bind (e : XHTTP) (f : α → Outcome β) : (thrown e >>= f) = thrown e := rfl
@[simp] theorem outOfFuel_bind (f : α → Outcome β) : (outOfFuel >>= f) = outOfFuel := rfl
@[simp] theorem aborted_bind (f : α → Outcome β) : (aborted >>= f) = aborted := rfl

@[simp] theorem bind_done (x : Outcome α) : (x >>= fun a => done a) = x := by
  cases x <;> rfl

@[simp] theorem bind_assoc (x : Outcome α) {γ : Type} (f : α → Outcome β) (g : β → Outcome γ) :
    (x >>= f) >>= g = x >>= fun a => f a >>= g := by
  cases x <;> rfl

/-- A sequence that returns had its first part return. -/
theorem bind_eq_done {x : Outcome α} {f : α → Outcome β} {b : β} :
    x >>= f = done b ↔ ∃ a, x = done a ∧ f a = done b := by
  cases x <;> simp

/-- A sequence throws when its first part throws, or returns and the rest throws. -/
theorem bind_eq_thrown {x : Outcome α} {f : α → Outcome β} {e : XHTTP} :
    x >>= f = thrown e ↔ x = thrown e ∨ ∃ a, x = done a ∧ f a = thrown e := by
  cases x <;> simp

/-- A sequence stops at a failed assertion when its first part does, or returns and the
rest does. -/
theorem bind_eq_aborted {x : Outcome α} {f : α → Outcome β} :
    x >>= f = aborted ↔ x = aborted ∨ ∃ a, x = done a ∧ f a = aborted := by
  cases x <;> simp

/-- `if (cond) throw XHTTP(status);` -/
def throwIf (cond : Prop) [Decidable cond] (status : Nat) : Outcome Unit :=
  if cond then throw ⟨status⟩ else pure ()

@[simp] theorem throwIf_eq_done {cond : Prop} [Decidable cond] {status : Nat} {u : Unit} :
    throwIf cond status = done u ↔ ¬ cond := by
  unfold throwIf; split <;> simp_all

@[simp] theorem throwIf_eq_thrown {cond : Prop} [Decidable cond] {status : Nat} {e : XHTTP} :
    throwIf cond status = thrown e ↔ cond ∧ e = ⟨status⟩ := by
  unfold throwIf; split <;> simp_all [eq_comm]

end Outcome

end Synergy.Http
