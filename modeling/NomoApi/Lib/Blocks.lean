import Mathlib.Data.List.Range

/-! # Streams of numbered blocks

A block is started, gets parts and is stopped; several may be open at once. Every part must belong
to an open block of its kind, only open blocks are stopped, and a number is used once. -/

namespace NomoApi.Blocks

universe u

variable {κ : Type u}

inductive Event (κ : Type u) where
  | start (i : Nat) (kind : κ)
  | part (i : Nat) (kind : κ)
  | stop (i : Nat)
  deriving DecidableEq

/-- The open blocks with their kinds, and the numbers that were used. -/
structure State (κ : Type u) where
  opened : Nat → Option κ
  used : Nat → Bool

open State

def State.init : State κ := ⟨fun _ => none, fun _ => false⟩

def State.add (s : State κ) (i : Nat) (kind : κ) : State κ :=
  ⟨Function.update s.opened i (some kind), Function.update s.used i true⟩

def State.remove (s : State κ) (i : Nat) : State κ :=
  { s with opened := Function.update s.opened i none }

section

variable (s : State κ) (i j : Nat)

theorem State.opened_add (kind : κ) :
    (s.add i kind).opened j = if j = i then some kind else s.opened j := Function.update_apply ..

theorem State.used_add (kind : κ) :
    (s.add i kind).used j = if j = i then true else s.used j := Function.update_apply ..

theorem State.opened_remove :
    (s.remove i).opened j = if j = i then none else s.opened j := Function.update_apply ..

end

def State.Closed (s : State κ) : Prop := ∀ i, s.opened i = none

variable [DecidableEq κ]

def step (s : State κ) : Event κ → Option (State κ)
  | .start i kind => if s.used i then none else some (s.add i kind)
  | .part i kind => if s.opened i = some kind then some s else none
  | .stop i => if s.opened i = none then none else some (s.remove i)

def run (s : State κ) : List (Event κ) → Option (State κ)
  | [] => some s
  | e :: es => (step s e).bind fun s => run s es

@[simp] theorem run_nil (s : State κ) : run s [] = some s := rfl

theorem run_cons (s : State κ) (e : Event κ) (es : List (Event κ)) :
    run s (e :: es) = (step s e).bind fun s => run s es := rfl

theorem run_append (s : State κ) (es fs : List (Event κ)) :
    run s (es ++ fs) = (run s es).bind fun s => run s fs := by
  induction es generalizing s with
  | nil => rfl
  | cons e es ih =>
    rw [List.cons_append, run_cons, run_cons]
    cases step s e with
    | none => rfl
    | some s' => exact ih s'

/-- Stops of `n` blocks from the number `lo` on. -/
def stops (lo n : Nat) : List (Event κ) := (List.range n).map fun j => .stop (lo + j)

/-! ### Blocks in an interval -/

omit [DecidableEq κ] in
/-- **The open blocks are those from `lo` to `hi`**, all of one kind, and no number from `hi` on was
used. -/
structure Interval (s : State κ) (lo hi : Nat) (kind : κ) : Prop where
  opened : ∀ i, s.opened i = if lo ≤ i ∧ i < hi then some kind else none
  used : ∀ i, s.used i = true → i < hi

omit [DecidableEq κ] in
theorem Interval.init (kind : κ) : Interval (init : State κ) 0 0 kind where
  opened i := by rw [if_neg (by omega)]; rfl
  used i h := by cases h

variable {s : State κ} {lo hi : Nat} {kind : κ}

omit [DecidableEq κ] in
theorem Interval.closed (h : Interval s lo hi kind) (hle : hi ≤ lo) : s.Closed := by
  intro i
  rw [h.opened i, if_neg (by omega)]

omit [DecidableEq κ] in
theorem Interval.restart (h : Interval s lo hi kind) (hle : hi ≤ lo) {lo' : Nat} (hlo : hi ≤ lo')
    (kind' : κ) : Interval s lo' lo' kind' where
  opened i := by rw [h.closed hle i, if_neg (by omega)]
  used i hi := Nat.lt_of_lt_of_le (h.used i hi) hlo

theorem Interval.start (h : Interval s lo hi kind) (hle : lo ≤ hi) :
    ∃ s', step s (.start hi kind) = some s' ∧ Interval s' lo (hi + 1) kind := by
  have hnew : s.used hi = false := by
    cases hused : s.used hi with
    | false => rfl
    | true => exact absurd (h.used hi hused) (Nat.lt_irrefl hi)
  refine ⟨s.add hi kind, by simp only [step, hnew, Bool.false_eq_true, if_false], ?_, ?_⟩
  · intro i
    rw [opened_add, h.opened i]
    by_cases hi' : i = hi
    · rw [if_pos hi', if_pos (by omega)]
    · rw [if_neg hi']
      simp only [show lo ≤ i ∧ i < hi + 1 ↔ lo ≤ i ∧ i < hi by omega]
  · intro i hused
    rw [used_add] at hused
    by_cases hi' : i = hi
    · omega
    · rw [if_neg hi'] at hused
      have := h.used i hused
      omega

theorem Interval.part {i : Nat} (h : Interval s lo hi kind) (hlo : lo ≤ i) (hhi : i < hi) :
    step s (.part i kind) = some s := by
  have hopen : s.opened i = some kind := by rw [h.opened i, if_pos ⟨hlo, hhi⟩]
  simp only [step, hopen, if_true]

theorem Interval.stop (h : Interval s lo hi kind) (hlt : lo < hi) :
    ∃ s', step s (.stop lo) = some s' ∧ Interval s' (lo + 1) hi kind := by
  have hopen : s.opened lo = some kind := by rw [h.opened lo, if_pos ⟨le_rfl, hlt⟩]
  refine ⟨s.remove lo, by simp only [step, hopen, reduceCtorEq, if_false], ?_, h.used⟩
  intro i
  rw [opened_remove, h.opened i]
  by_cases hi' : i = lo
  · rw [if_pos hi', if_neg (by omega)]
  · rw [if_neg hi']
    simp only [show lo ≤ i ∧ i < hi ↔ lo + 1 ≤ i ∧ i < hi by omega]

omit [DecidableEq κ] in
theorem stops_succ (lo n : Nat) : (stops lo (n + 1) : List (Event κ)) =
    .stop lo :: stops (lo + 1) n := by
  simp only [stops, List.range_succ_eq_map, List.map_cons, List.map_map, Nat.add_zero]
  congr 2
  funext j
  simp only [Function.comp_apply, Nat.succ_eq_add_one]
  congr 1
  omega

theorem Interval.stops {n : Nat} (h : Interval s lo (lo + n) kind) :
    ∃ s', run s (stops lo n) = some s' ∧ Interval s' (lo + n) (lo + n) kind := by
  induction n generalizing s lo with
  | zero => exact ⟨s, rfl, h⟩
  | succ n ih =>
    obtain ⟨s₁, hstep, h₁⟩ := h.stop (by omega)
    have hshift : lo + (n + 1) = lo + 1 + n := by omega
    rw [hshift] at h₁ ⊢
    obtain ⟨s₂, hrun, h₂⟩ := ih h₁
    exact ⟨s₂, by rw [stops_succ, run_cons, hstep, Option.bind_some, hrun], h₂⟩

/-! ### A block that is missing -/

variable {s' : State κ} {h : Nat}

theorem opened_of_step {e : Event κ} (hstep : step s e = some s') (hclosed : s.opened h = none)
    (hstart : ∀ kind, e ≠ .start h kind) : s'.opened h = none := by
  cases e with
  | start i kind =>
    obtain ⟨-, ⟨⟩⟩ := Option.ite_none_left_eq_some.mp hstep
    have hne : h ≠ i := by
      rintro rfl
      exact hstart kind rfl
    rw [opened_add, if_neg hne, hclosed]
  | part i kind =>
    obtain ⟨-, ⟨⟩⟩ := Option.ite_none_right_eq_some.mp hstep
    exact hclosed
  | stop i =>
    obtain ⟨-, ⟨⟩⟩ := Option.ite_none_left_eq_some.mp hstep
    rw [opened_remove, hclosed, ite_self]

theorem opened_of_run {es : List (Event κ)} (hrun : run s es = some s')
    (hclosed : s.opened h = none) (hstart : ∀ kind, .start h kind ∉ es) : s'.opened h = none := by
  induction es generalizing s with
  | nil =>
    cases hrun
    exact hclosed
  | cons e es ih =>
    rw [run_cons] at hrun
    obtain ⟨s₁, hstep, hrun⟩ := Option.bind_eq_some_iff.mp hrun
    refine ih hrun (opened_of_step hstep hclosed ?_) ?_
    · rintro kind rfl
      exact hstart kind List.mem_cons_self
    · exact fun kind hmem => hstart kind (List.mem_cons_of_mem _ hmem)

theorem run_stops_eq_none {n : Nat} (hlo : lo ≤ h) (hhi : h < lo + n)
    (hclosed : s.opened h = none) : run s (stops lo n) = none := by
  induction n generalizing s lo with
  | zero => omega
  | succ n ih =>
    rw [stops_succ, run_cons]
    by_cases heq : h = lo
    · subst heq
      simp only [step, hclosed, if_true, Option.bind_none]
    · cases hstep : step s (.stop lo) with
      | none => rfl
      | some s' =>
        exact ih (by omega) (by omega) (opened_of_step hstep hclosed (by simp))

/-- **A stream without stops leaves a block open**, if it is not empty or one was open before. -/
theorem not_closed_of_run {es : List (Event κ)} (hrun : run s es = some s')
    (hstop : ∀ i, .stop i ∉ es) (h : es ≠ [] ∨ ¬ s.Closed) : ¬ s'.Closed := by
  induction es generalizing s with
  | nil =>
    cases hrun
    exact h.resolve_left (fun hnil => hnil rfl)
  | cons e es ih =>
    rw [run_cons] at hrun
    obtain ⟨s₁, hstep, hrun⟩ := Option.bind_eq_some_iff.mp hrun
    refine ih hrun (fun i hmem => hstop i (List.mem_cons_of_mem _ hmem)) (.inr fun hclosed => ?_)
    cases e with
    | start i kind =>
      obtain ⟨-, ⟨⟩⟩ := Option.ite_none_left_eq_some.mp hstep
      have hopen := hclosed i
      rw [opened_add, if_pos rfl] at hopen
      cases hopen
    | part i kind =>
      obtain ⟨hopen, ⟨⟩⟩ := Option.ite_none_right_eq_some.mp hstep
      rw [hclosed i] at hopen
      cases hopen
    | stop i => exact hstop i List.mem_cons_self

end NomoApi.Blocks
