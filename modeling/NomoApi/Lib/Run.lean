import Mathlib.Data.List.Count
import Mathlib.Data.List.Infix

/-! # Runs of a deterministic transition system

A run is the fold of a step function `step : σ → ε → σ` over a list of events. This file packages
the inductions on runs: invariants, simulation, and the exact conditions on the steps of a run under
which a property always holds. -/

namespace NomoApi

open List

universe u v

variable {σ : Type u} {ε : Type v} {step : σ → ε → σ} {es : List ε} {s : σ} {I : σ → Prop}
  {C : σ → ε → Prop}

/-- **The state a run ends in**: the events applied one after the other. -/
def run (step : σ → ε → σ) (s : σ) (es : List ε) : σ := es.foldl step s

@[simp] theorem run_nil (s : σ) : run step s [] = s := rfl

@[simp] theorem run_cons (s : σ) (e : ε) (es : List ε) :
    run step s (e :: es) = run step (step s e) es := rfl

theorem run_append (s : σ) (es fs : List ε) :
    run step s (es ++ fs) = run step (run step s es) fs := List.foldl_append ..

/-- **Invariant rule**: what holds initially and is kept by every step holds after every run. -/
theorem run_induction (hstep : ∀ s e, I s → I (step s e)) (h0 : I s) (es : List ε) :
    I (run step s es) := by
  induction es generalizing s with
  | nil => exact h0
  | cons e es ih => exact ih (hstep s e h0)

/-- **Invariant rule for the events of the run**: only those need keep the invariant. -/
theorem run_induction_mem (hstep : ∀ s, ∀ e ∈ es, I s → I (step s e)) (h0 : I s) :
    I (run step s es) := by
  induction es generalizing s with
  | nil => exact h0
  | cons e es ih =>
    exact ih (fun s e he => hstep s e (mem_cons_of_mem _ he)) (hstep s e mem_cons_self h0)

/-- **Touched at most once**: if only the events that touch something can take it from `P` to `Q`,
and at most one event of the run does, then it ends in `P` or in `Q`. -/
theorem run_once {P Q : σ → Prop} (touches : ε → Bool) (hkeep : ∀ s, ∀ e ∈ es, touches e = false →
      (P s → P (step s e)) ∧ (Q s → Q (step s e)))
    (hPQ : ∀ s, ∀ e ∈ es, touches e = true → P s → P (step s e) ∨ Q (step s e))
    (hcount : es.countP touches ≤ 1) (h0 : P s) : P (run step s es) ∨ Q (run step s es) := by
  induction es generalizing s with
  | nil => exact .inl h0
  | cons e es ih =>
    have hkeep' := fun s e he => hkeep s e (mem_cons_of_mem _ he)
    cases htouch : touches e with
    | false =>
      rw [countP_cons_of_neg (by simp [htouch])] at hcount
      exact ih hkeep' (fun s e he => hPQ s e (mem_cons_of_mem _ he)) hcount
        ((hkeep s e mem_cons_self htouch).1 h0)
    | true =>
      -- The rest of the run does not touch it any more.
      rw [countP_cons_of_pos htouch] at hcount
      have hzero : ∀ e ∈ es, touches e = false := by
        have hnone := countP_eq_zero.mp (Nat.le_zero.mp (Nat.le_of_succ_le_succ hcount))
        exact fun e he => by simpa using hnone e he
      rw [run_cons]
      refine (hPQ s e mem_cons_self htouch h0).imp (fun hp => ?_) (fun hq => ?_)
      · exact run_induction_mem (fun s e he => (hkeep' s e he (hzero e he)).1) hp
      · exact run_induction_mem (fun s e he => (hkeep' s e he (hzero e he)).2) hq

/-- **Simulation rule**: if, under an invariant, every step of one system is a run of another one
through `abs`, then so is every run. -/
theorem run_simulation {σ' : Type u} {ε' : Type v} {step' : σ' → ε' → σ'}
    {abs : σ → σ'} (hstep : ∀ s e, I s → I (step s e))
    (hsim : ∀ s e, I s → ∃ fs, abs (step s e) = run step' (abs s) fs) (h0 : I s)
    (es : List ε) : ∃ fs, abs (run step s es) = run step' (abs s) fs := by
  induction es generalizing s with
  | nil => exact ⟨[], rfl⟩
  | cons e es ih =>
    obtain ⟨fs, hfs⟩ := hsim s e h0
    obtain ⟨gs, hgs⟩ := ih (hstep s e h0)
    exact ⟨fs ++ gs, by rw [run_cons, hgs, hfs, run_append]⟩

/-- `P` holds in **every state the run reaches**, the first and the last included. -/
def Always (P : σ → Prop) (step : σ → ε → σ) (s : σ) (es : List ε) : Prop :=
  ∀ pre, pre <+: es → P (run step s pre)

/-- Every event of the run meets the condition `C` in its state. -/
def AllSteps (C : σ → ε → Prop) (step : σ → ε → σ) : σ → List ε → Prop
  | _, [] => True
  | s, e :: es => C s e ∧ AllSteps C step (step s e) es

@[simp] theorem allSteps_nil (C : σ → ε → Prop) (s : σ) : AllSteps C step s [] := trivial

@[simp] theorem allSteps_cons (C : σ → ε → Prop) (s : σ) (e : ε) (es : List ε) :
    AllSteps C step s (e :: es) ↔ C s e ∧ AllSteps C step (step s e) es := Iff.rfl

instance AllSteps.decidable {C : σ → ε → Prop} [∀ s e, Decidable (C s e)] :
    (s : σ) → (es : List ε) → Decidable (AllSteps C step s es)
  | _, [] => .isTrue trivial
  | s, e :: es => @instDecidableAnd _ _ _ (AllSteps.decidable (step s e) es)

theorem allSteps_of_mem (h : ∀ e ∈ es, ∀ s, C s e) (s : σ) : AllSteps C step s es := by
  induction es generalizing s with
  | nil => trivial
  | cons e es ih =>
    exact ⟨h e mem_cons_self s, ih (fun e he => h e (mem_cons_of_mem _ he)) _⟩

theorem allSteps_of_forall (h : ∀ s e, C s e) (s : σ) (es : List ε) :
    AllSteps C step s es := allSteps_of_mem (fun e _ s => h s e) s

theorem allSteps_const_iff {C : ε → Prop} :
    AllSteps (fun _ e => C e) step s es ↔ ∀ e ∈ es, C e := by
  induction es generalizing s with
  | nil => simp
  | cons e es ih => rw [allSteps_cons, ih, forall_mem_cons]

theorem AllSteps.and {C D : σ → ε → Prop} (hC : AllSteps C step s es)
    (hD : AllSteps D step s es) : AllSteps (fun s e => C s e ∧ D s e) step s es := by
  induction es generalizing s with
  | nil => trivial
  | cons e es ih => exact ⟨⟨hC.1, hD.1⟩, ih hC.2 hD.2⟩

theorem allSteps_congr {C D : σ → ε → Prop}
    (hstep : ∀ s e, I s → D s e → I (step s e)) (hCD : ∀ s e, I s → (C s e ↔ D s e))
    (h0 : I s) (es : List ε) : AllSteps C step s es ↔ AllSteps D step s es := by
  induction es generalizing s with
  | nil => exact Iff.rfl
  | cons e es ih =>
    rw [allSteps_cons, allSteps_cons, hCD s e h0]
    exact and_congr_right fun hD => ih (hstep s e h0 hD)

/-- **A property of the steps** that meet `C` under an invariant. -/
theorem AllSteps.of_invariant {C P : σ → ε → Prop}
    (hstep : ∀ s e, I s → C s e → I (step s e)) (hP : ∀ s e, I s → C s e → P s e)
    (h0 : I s) (hC : AllSteps C step s es) : AllSteps P step s es := by
  induction es generalizing s with
  | nil => trivial
  | cons e es ih => exact ⟨hP s e h0 hC.1, ih (hstep s e h0 hC.1) hC.2⟩

/-- **The exact condition of a run's end.** If the steps that meet `C` keep `I`, the others lead
from `I` to `B`, no step leaves `B`, and `I` means `P` while `B` excludes it, then `P` holds at the
end iff all steps meet `C`. -/
theorem run_iff_allSteps {I B P : σ → Prop} {A C : σ → ε → Prop}
    (hI : ∀ s e, I s → A s e → C s e → I (step s e))
    (hB : ∀ s e, I s → A s e → ¬ C s e → B (step s e))
    (hkeep : ∀ s e, B s → A s e → B (step s e)) (hIP : ∀ s, I s → P s) (hBP : ∀ s, B s → ¬ P s)
    (h0 : I s) (hA : AllSteps A step s es) : P (run step s es) ↔ AllSteps C step s es := by
  have hbroken : ∀ {s : σ} {es : List ε}, B s → AllSteps A step s es → B (run step s es) := by
    intro s es hs hA
    induction es generalizing s with
    | nil => exact hs
    | cons e es ih => exact ih (hkeep s e hs hA.1) hA.2
  induction es generalizing s with
  | nil => exact iff_of_true (hIP s h0) trivial
  | cons e es ih =>
    rw [run_cons, allSteps_cons]
    by_cases hC : C s e
    · exact (ih (hI s e h0 hA.1 hC) hA.2).trans (and_iff_right hC).symm
    · have hend : B (run step (step s e) es) := hbroken (hB s e h0 hA.1 hC) hA.2
      exact iff_of_false (hBP _ hend) fun h => hC h.1

@[simp] theorem always_nil (P : σ → Prop) (s : σ) : Always P step s [] ↔ P s := by
  constructor
  · intro h; exact h [] nil_prefix
  · intro h pre hpre
    obtain rfl := prefix_nil.mp hpre
    exact h

theorem always_cons (P : σ → Prop) (s : σ) (e : ε) (es : List ε) :
    Always P step s (e :: es) ↔ P s ∧ Always P step (step s e) es := by
  constructor
  · intro h
    exact ⟨h [] nil_prefix,
      fun pre hpre => h (e :: pre) (cons_prefix_cons.mpr ⟨rfl, hpre⟩)⟩
  · rintro ⟨h0, h⟩ pre hpre
    cases pre with
    | nil => exact h0
    | cons e' pre =>
      obtain ⟨rfl, hrest⟩ := cons_prefix_cons.mp hpre
      exact h pre hrest

/-- **Conditional invariant rule**, for a run all of whose steps meet `C`. -/
theorem always_of_allSteps (hstep : ∀ s e, I s → C s e → I (step s e)) (h0 : I s)
    (hC : AllSteps C step s es) : Always I step s es := by
  induction es generalizing s with
  | nil => exact (always_nil I s).mpr h0
  | cons e es ih =>
    rw [always_cons]
    exact ⟨h0, ih (hstep s e h0 hC.1) hC.2⟩

theorem Always.mono {P Q : σ → Prop} (hPQ : ∀ s, P s → Q s)
    (h : Always P step s es) : Always Q step s es := fun pre hpre => hPQ _ (h pre hpre)

/-- **The exact condition of a run.** If, under `I`, a step keeps `P` exactly when it meets `C`, and
the steps that keep `P` keep `I`, then `P` holds in every state iff all steps meet `C`. -/
theorem always_iff_allSteps {I P : σ → Prop} {A C : σ → ε → Prop}
    (hP : ∀ s e, I s → P s → A s e → (P (step s e) ↔ C s e))
    (hI : ∀ s e, I s → P s → A s e → C s e → I (step s e)) (hI0 : I s) (hP0 : P s)
    (hA : AllSteps A step s es) : Always P step s es ↔ AllSteps C step s es := by
  induction es generalizing s with
  | nil => simpa using hP0
  | cons e es ih =>
    obtain ⟨hA0, hA⟩ := hA
    rw [always_cons, allSteps_cons]
    constructor
    · rintro ⟨-, h⟩
      have hnext : P (step s e) := h [] nil_prefix
      have hC : C s e := (hP s e hI0 hP0 hA0).mp hnext
      exact ⟨hC, (ih (hI s e hI0 hP0 hA0 hC) hnext hA).mp h⟩
    · rintro ⟨hC, h⟩
      have hnext : P (step s e) := (hP s e hI0 hP0 hA0).mpr hC
      exact ⟨hP0, (ih (hI s e hI0 hP0 hA0 hC) hnext hA).mpr h⟩

end NomoApi
