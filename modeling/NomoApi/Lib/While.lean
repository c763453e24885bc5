import Mathlib.Order.Basic

/-! # Loops that end

A loop is a step function that goes on with a new state or ends with a result. It is run with a
bound on its number of steps. -/

namespace NomoApi

universe u v

variable {σ : Type u} {β : Type v} {step : σ → σ ⊕ β} {s : σ}

/-- **A loop** with a bound on its steps. -/
def iterate (step : σ → σ ⊕ β) : Nat → σ → Option β
  | 0, _ => none
  | fuel + 1, s =>
    match step s with
    | .inl s' => iterate step fuel s'
    | .inr b => some b

theorem iterate_of_done {b : β} (h : step s = .inr b) (fuel : Nat) :
    iterate step (fuel + 1) s = some b := by
  rw [iterate, h]

theorem iterate_of_continue {s s' : σ} (h : step s = .inl s') (fuel : Nat) :
    iterate step (fuel + 1) s = iterate step fuel s' := by
  rw [iterate, h]

/-- **The rule for loops that end.** The induction is on the measure. -/
theorem iterate_of_invariant {I : σ → Prop} {Q : β → Prop} (measure : σ → Nat)
    (hcontinue : ∀ s s', I s → step s = .inl s' → I s' ∧ measure s' < measure s)
    (hdone : ∀ s b, I s → step s = .inr b → Q b) (h : I s) :
    ∃ b, Q b ∧ ∀ fuel, measure s < fuel → iterate step fuel s = some b := by
  induction hm : measure s using Nat.strongRecOn generalizing s with
  | ind m ih =>
    cases hstep : step s with
    | inr b =>
      refine ⟨b, hdone s b h hstep, fun fuel hfuel => ?_⟩
      obtain ⟨fuel, rfl⟩ := Nat.exists_eq_add_one_of_ne_zero (Nat.ne_zero_of_lt hfuel)
      exact iterate_of_done hstep fuel
    | inl s' =>
      obtain ⟨h', hlt⟩ := hcontinue s s' h hstep
      obtain ⟨b, hb, hall⟩ := ih _ (hm ▸ hlt) h' rfl
      refine ⟨b, hb, fun fuel hfuel => ?_⟩
      obtain ⟨fuel, rfl⟩ := Nat.exists_eq_add_one_of_ne_zero (Nat.ne_zero_of_lt hfuel)
      rw [iterate_of_continue hstep]
      exact hall fuel (by omega)

def LoopEnds (step : σ → σ ⊕ β) (s : σ) : Prop := ∃ fuel b, iterate step fuel s = some b

inductive Visits (step : σ → σ ⊕ β) (s : σ) : σ → Prop where
  | here : Visits step s s
  | next {s' s'' : σ} : Visits step s s' → step s' = .inl s'' → Visits step s s''

theorem iterate_mono {fuel fuel' : Nat} (hle : fuel ≤ fuel') {b : β}
    (h : iterate step fuel s = some b) : iterate step fuel' s = some b := by
  induction fuel generalizing s fuel' with
  | zero => cases h
  | succ fuel ih =>
    obtain ⟨fuel', rfl⟩ := Nat.exists_eq_add_one_of_ne_zero (show fuel' ≠ 0 by omega)
    cases hstep : step s with
    | inl s' =>
      rw [iterate_of_continue hstep] at h ⊢
      exact ih (by omega) h
    | inr b' =>
      rw [iterate_of_done hstep] at h ⊢
      exact h

theorem iterate_unique {fuel fuel' : Nat} {b b' : β} (h : iterate step fuel s = some b)
    (h' : iterate step fuel' s = some b') : b = b' := by
  have hb := iterate_mono (Nat.le_max_left fuel fuel') h
  have hb' := iterate_mono (Nat.le_max_right fuel fuel') h'
  rw [hb] at hb'
  exact Option.some.inj hb'

theorem LoopEnds.of_visits {s s' : σ} (h : LoopEnds step s) (hv : Visits step s s') :
    LoopEnds step s' := by
  induction hv with
  | here => exact h
  | next _ hstep ih =>
    obtain ⟨fuel, b, hb⟩ := ih
    cases fuel with
    | zero => cases hb
    | succ fuel =>
      rw [iterate_of_continue hstep] at hb
      exact ⟨fuel, b, hb⟩

theorem not_loopEnds_of_stuck (h : step s = .inl s) : ¬ LoopEnds step s := by
  rintro ⟨fuel, b, hb⟩
  induction fuel with
  | zero => cases hb
  | succ fuel ih =>
    rw [iterate_of_continue h] at hb
    exact ih hb

/-- **A loop ends** if every step from a visited state lowers a measure. -/
theorem loopEnds_of_measure (measure : σ → Nat)
    (h : ∀ s' s'', Visits step s s' → step s' = .inl s'' → measure s'' < measure s') :
    LoopEnds step s := by
  obtain ⟨b, -, hb⟩ := iterate_of_invariant (I := Visits step s) (Q := fun _ => True) measure
    (fun s' s'' hv hstep => ⟨.next hv hstep, h s' s'' hv hstep⟩) (fun _ _ _ _ => trivial) .here
  exact ⟨_, b, hb (measure s + 1) (Nat.lt_succ_self _)⟩

/-- **A loop seen after some steps**: its result, or a view of its state. -/
def progress (step : σ → σ ⊕ β) (view : σ → β) : Nat → σ → β
  | 0, s => view s
  | fuel + 1, s =>
    match step s with
    | .inl s' => progress step view fuel s'
    | .inr b => b

theorem progress_of_iterate {view : σ → β} {fuel : Nat} {b : β}
    (h : iterate step fuel s = some b) : progress step view fuel s = b := by
  induction fuel generalizing s with
  | zero => cases h
  | succ fuel ih =>
    rw [progress]
    cases hstep : step s with
    | inl s' =>
      rw [iterate_of_continue hstep] at h
      exact ih h
    | inr b' =>
      rw [iterate_of_done hstep] at h
      exact Option.some.inj h

/-- **The rule for loops that may not end.** -/
theorem progress_of_invariant {I : σ → Prop} {Q : β → Prop} {view : σ → β}
    (hcontinue : ∀ s s', I s → step s = .inl s' → I s')
    (hdone : ∀ s b, I s → step s = .inr b → Q b) (hview : ∀ s, I s → Q (view s)) (fuel : Nat)
    (h : I s) : Q (progress step view fuel s) := by
  induction fuel generalizing s with
  | zero => exact hview s h
  | succ fuel ih =>
    rw [progress]
    cases hstep : step s with
    | inl s' => exact ih (hcontinue s s' h hstep)
    | inr b => exact hdone s b h hstep

end NomoApi
