/-! # Computations that may fail or not return, and transactions

`Halt` says why a computation gives no result: an error with a text, or a loop that never ends. A
transaction keeps the new state only when body and commit succeed. -/

namespace NomoApi

universe u v

/-- Why a computation gives no value. -/
inductive Halt where
  | error (text : String)
  | diverge
  deriving DecidableEq

def attempt (fault : Option String) : Except Halt Unit :=
  match fault with
  | none => .ok ()
  | some text => .error (.error text)

@[simp] theorem attempt_none : attempt none = .ok () := rfl

@[simp] theorem attempt_eq_ok {fault : Option String} {x : Unit} :
    attempt fault = .ok x ↔ fault = none := by
  cases fault <;> simp [attempt]

theorem bind_eq_ok {ε : Type u} {α β : Type v} {x : Except ε α} {f : α → Except ε β} {b : β} :
    x >>= f = .ok b ↔ ∃ a, x = .ok a ∧ f a = .ok b := by
  cases x with
  | error e =>
    constructor
    · intro h; cases h
    · rintro ⟨a, h, -⟩; cases h
  | ok a =>
    constructor
    · intro h; exact ⟨a, rfl, h⟩
    · rintro ⟨a', h, hf⟩; cases h; exact hf

theorem ite_error_eq_ok {ε : Type u} {α : Type v} {c : Prop} [Decidable c] {e : ε}
    {x : Except ε α} {a : α} : (if c then .error e else x) = .ok a ↔ ¬ c ∧ x = .ok a := by
  split
  · rename_i hc
    exact iff_of_false (fun h => by cases h) fun h => h.1 hc
  · rename_i hc
    exact (and_iff_right hc).symm

/-- **A database transaction** on a state of type `σ`: begin, body, commit. -/
def transaction {σ α : Type} (beginTx commitTx : Option String)
    (body : σ → Except Halt (α × σ)) (s : σ) : Except Halt (α × σ) := do
  attempt beginTx
  let r ← body s
  attempt commitTx
  return r

theorem transaction_eq_ok {σ α : Type} {beginTx commitTx : Option String}
    {body : σ → Except Halt (α × σ)} {s : σ} {r : α × σ} :
    transaction beginTx commitTx body s = .ok r ↔
      beginTx = none ∧ body s = .ok r ∧ commitTx = none := by
  unfold transaction
  cases beginTx <;> cases commitTx <;> cases body s <;>
    simp [attempt, bind, Except.bind, pure, Except.pure]

end NomoApi
