import Mathlib.Algebra.Ring.Int.Defs
import Mathlib.Data.Fintype.BigOperators
import NomoApi.Lib.Run

/-! # Processes that share a state

Each process is a program, given by what its next statement does to the shared state and to its
local phase; an event names the process that takes its next step, so that a run is an interleaving.
-/

namespace NomoApi

open List Function Finset

universe u v w x

variable {σ : Type u} {ι : Type v} {φ : Type w} {ε : Type x}

/-- **The shared state and the phases of the processes.** -/
structure Processes (σ : Type u) (ι : Type v) (φ : Type w) where
  shared : σ
  phase : ι → φ

/-- **What happens to a transaction**: its next statement, or an abort by the database. -/
inductive TxEvent (ι : Type v) where
  | statement (i : ι)
  | abort (i : ι) (text : String)

def TxEvent.who : TxEvent ι → ι
  | .statement i => i
  | .abort i _ => i

variable [DecidableEq ι]

/-- **One step of one process.** -/
def interleave (who : ε → ι) (next : ε → σ → φ → σ × φ) (p : Processes σ ι φ) (e : ε) :
    Processes σ ι φ where
  shared := (next e p.shared (p.phase (who e))).1
  phase := Function.update p.phase (who e) (next e p.shared (p.phase (who e))).2

section Step

variable {who : ε → ι} {next : ε → σ → φ → σ × φ} {p : Processes σ ι φ} {e : ε}

theorem shared_interleave :
    (interleave who next p e).shared = (next e p.shared (p.phase (who e))).1 := rfl

theorem phase_interleave_self :
    (interleave who next p e).phase (who e) = (next e p.shared (p.phase (who e))).2 :=
  update_self ..

theorem phase_interleave_of_ne {j : ι} (h : j ≠ who e) :
    (interleave who next p e).phase j = p.phase j :=
  update_of_ne h _ _

/-- **A property of every process** survives a step if all of them bear the change. -/
theorem forall_interleave {J : ι → σ → φ → Prop}
    (hself : J (who e) (next e p.shared (p.phase (who e))).1 (next e p.shared (p.phase (who e))).2)
    (hother : ∀ j, j ≠ who e → J j (next e p.shared (p.phase (who e))).1 (p.phase j)) (j : ι) :
    J j (interleave who next p e).shared ((interleave who next p e).phase j) := by
  by_cases hj : j = who e
  · subst hj
    rw [phase_interleave_self]
    exact hself
  · rw [phase_interleave_of_ne hj]
    exact hother j hj

/-- **A sum over the processes** changes by what the one that steps contributes. -/
theorem sum_interleave [Fintype ι] (c : ι → φ → Int) :
    ∑ i, c i ((interleave who next p e).phase i) = ∑ i, c i (p.phase i) +
        (c (who e) (next e p.shared (p.phase (who e))).2 - c (who e) (p.phase (who e))) := by
  have hrest : ∑ i ∈ univ.erase (who e), c i ((interleave who next p e).phase i) =
      ∑ i ∈ univ.erase (who e), c i (p.phase i) := by
    refine sum_congr rfl fun i hi => ?_
    rw [phase_interleave_of_ne (ne_of_mem_erase hi)]
  rw [← add_sum_erase _ _ (mem_univ (who e)), hrest,
    ← add_sum_erase _ (fun i => c i (p.phase i)) (mem_univ (who e)),
    phase_interleave_self]
  omega

end Step

/-! ### One at a time -/

section Serial

variable {who : ε → ι} {next : ε → σ → φ → σ × φ}

/-- **The processes run one at a time**: none is busy and the shared state is at rest, or one is
busy and its phase fits it. -/
def Serial (busy : φ → Bool) (rest : σ → Prop) (fits : σ → φ → Prop) (p : Processes σ ι φ) :
    Prop :=
  ((∀ i, busy (p.phase i) = false) ∧ rest p.shared) ∨
    ∃ i, busy (p.phase i) = true ∧ (∀ j, j ≠ i → busy (p.phase j) = false) ∧
      fits p.shared (p.phase i)

/-- A process that stops leaves the shared state at rest. -/
def Settles (busy : φ → Bool) (rest : σ → Prop) (fits : σ → φ → Prop) (r : σ × φ) : Prop :=
  (busy r.2 = false ∧ rest r.1) ∨ busy r.2 = true ∧ fits r.1 r.2

theorem serial_interleave {busy : φ → Bool} {rest : σ → Prop} {fits : σ → φ → Prop}
    {p : Processes σ ι φ} {e : ε} (hidle : busy (p.phase (who e)) = false → rest p.shared →
      Settles busy rest fits (next e p.shared (p.phase (who e))))
    (hbusy : busy (p.phase (who e)) = true → fits p.shared (p.phase (who e)) →
      Settles busy rest fits (next e p.shared (p.phase (who e)))) (h : Serial busy rest fits p)
    (hstart : busy (p.phase (who e)) = false → (∀ j, busy (p.phase j) = false) ∨
      next e p.shared (p.phase (who e)) = (p.shared, p.phase (who e))) :
    Serial busy rest fits (interleave who next p e) := by
  -- the process that takes the step is the only one that can be busy
  have hsolo : ∀ hothers : ∀ j, j ≠ who e → busy (p.phase j) = false,
      Settles busy rest fits (next e p.shared (p.phase (who e))) →
        Serial busy rest fits (interleave who next p e) := by
    intro hothers hsettles
    have hafter : ∀ j, j ≠ who e → busy ((interleave who next p e).phase j) = false := by
      intro j hj
      rw [phase_interleave_of_ne hj]
      exact hothers j hj
    rcases hsettles with ⟨hfree, hrest⟩ | ⟨hbusy', hfits⟩
    · refine .inl ⟨fun j => ?_, hrest⟩
      by_cases hj : j = who e
      · rw [hj, phase_interleave_self]
        exact hfree
      · exact hafter j hj
    · refine .inr ⟨who e, ?_, hafter, ?_⟩
      · rw [phase_interleave_self]
        exact hbusy'
      · rw [phase_interleave_self]
        exact hfits
  rcases h with ⟨hall, hrest⟩ | ⟨i, hi, hothers, hfits⟩
  · exact hsolo (fun j _ => hall j) (hidle (hall _) hrest)
  · by_cases hwho : who e = i
    · subst hwho
      exact hsolo hothers (hbusy hi hfits)
    · rcases hstart (hothers _ hwho) with hall | hnothing
      · exact absurd (hall i) (by rw [hi]; decide)
      · have hsame : interleave who next p e = p := by
          unfold interleave
          rw [hnothing, update_eq_self]
        rw [hsame]
        exact .inr ⟨i, hi, hothers, hfits⟩

end Serial

/-! ### Without taking turns -/

section Alone

variable {who : ε → ι} {next : ε → σ → φ → σ × φ}

/-- **A process that runs alone** for some events. -/
def alone (next : ε → σ → φ → σ × φ) (es : List ε) (start : σ × φ) : σ × φ :=
  es.foldl (fun s e => next e s.1 s.2) start

theorem run_alone {i : ι} {es : List ε} (h : ∀ e ∈ es, who e = i) (p : Processes σ ι φ) :
    run (interleave who next) p es = ⟨(alone next es (p.shared, p.phase i)).1,
        Function.update p.phase i (alone next es (p.shared, p.phase i)).2⟩ := by
  induction es generalizing p with
  | nil => rw [run_nil, alone, foldl_nil, update_eq_self]
  | cons e es ih =>
    obtain rfl := h e mem_cons_self
    rw [run_cons, ih fun e' he' => h e' (mem_cons_of_mem e he')]
    simp [interleave, alone]

variable (next) in
theorem run_each {P : σ → Prop} {f g : ι → φ} {script : ι → List ε} {l : List ι} (hl : l.Nodup)
    (hown : ∀ i ∈ l, ∀ e ∈ script i, who e = i) (hdo : ∀ i ∈ l, ∀ s, P s →
      P (alone next (script i) (s, f i)).1 ∧ (alone next (script i) (s, f i)).2 = g i)
    {p : Processes σ ι φ} (hP : P p.shared) (hf : ∀ i ∈ l, p.phase i = f i) :
    P (run (interleave who next) p (l.flatMap script)).shared ∧
      (∀ i ∈ l, (run (interleave who next) p (l.flatMap script)).phase i = g i) ∧
      ∀ i ∉ l, (run (interleave who next) p (l.flatMap script)).phase i = p.phase i := by
  induction l generalizing p with
  | nil => exact ⟨hP, fun i hi => absurd hi not_mem_nil, fun i _ => rfl⟩
  | cons i l ih =>
    obtain ⟨hi, hl⟩ := nodup_cons.mp hl
    rw [flatMap_cons, run_append, run_alone (hown i mem_cons_self), hf i mem_cons_self]
    obtain ⟨hP', hg⟩ := hdo i mem_cons_self p.shared hP
    have hkept : ∀ j, j ≠ i → update p.phase i
        (alone next (script i) (p.shared, f i)).2 j = p.phase j :=
      fun j hj => update_of_ne hj _ _
    obtain ⟨hshared, hin, hout⟩ := ih hl (fun j hj => hown j (mem_cons_of_mem i hj))
      (fun j hj => hdo j (mem_cons_of_mem i hj))
      (p := ⟨(alone next (script i) (p.shared, f i)).1,
        update p.phase i (alone next (script i) (p.shared, f i)).2⟩) hP'
      (fun j hj => (hkept j fun heq => hi (heq ▸ hj)).trans (hf j (mem_cons_of_mem i hj)))
    refine ⟨hshared, fun j hj => ?_, fun j hj => ?_⟩
    · rcases mem_cons.mp hj with rfl | hj
      · rw [hout j hi, ← hg]
        exact update_self ..
      · exact hin j hj
    · obtain ⟨hne, hj⟩ := not_or.mp (fun h => hj (mem_cons.mpr h))
      rw [hout j hj]
      exact hkept j hne

end Alone

end NomoApi
