import NomoApi.Lib.Run

/-! # Agents that race to close a guarded cell

A shared cell is written by any number of agents, with a compare-and-swap on the *tag* of the cell
that they have read while it was open. An agent whose write closed the cell may then *act*. Tags may
recur while the cell is open, but a closed tag is never equal to an open one: so at most one agent
ever acts. -/

namespace NomoApi.Cas

universe u v w

variable {σ : Type u} {τ : Type v} {ι : Type w}

/-- **Compare and swap** guarded by the tag `old`: whether it took effect, and the cell. -/
def swap [DecidableEq τ] (tag : σ → τ) (old : τ) (new cell : σ) : Bool × σ :=
  if tag cell = old then (true, new) else (false, cell)

inductive Phase (σ : Type u) where
  | idle
  | holding (snapshot : σ)
  | owing
  | done

/-- The cell, the agents, and the agents that have acted, latest first. -/
structure State (σ : Type u) (ι : Type w) where
  cell : σ
  phase : ι → Phase σ
  acts : List ι

open State

inductive Event (σ : Type u) (ι : Type w) where
  | read (i : ι)
  | write (i : ι) (new : σ) (owes : Bool)
  | act (i : ι)
  | leave (i : ι)

section

variable (tag : σ → τ) (closed : τ → Bool)

/-- Agent `i` **has a claim** on the cell: it owes its act, or has acted. -/
def State.Claims (s : State σ ι) (i : ι) : Prop := s.phase i = .owing ∨ i ∈ s.acts

/-- **The invariant of the race.** -/
structure Inv (s : State σ ι) : Prop where
  held : ∀ i snapshot, s.phase i = .holding snapshot → closed (tag snapshot) = false
  sole : ∀ i j, s.Claims i → s.Claims j → i = j
  shut : ∀ i, s.Claims i → closed (tag s.cell) = true
  spent : ∀ i ∈ s.acts, s.phase i = .done
  once : s.acts.Nodup

end

variable {tag : σ → τ} {closed : τ → Bool}

variable {s : State σ ι}

theorem Inv.not_claims (h : Inv tag closed s) (hopen : closed (tag s.cell) = false) (i : ι) :
    ¬ s.Claims i :=
  fun hi => Bool.false_ne_true (hopen.symm.trans (h.shut i hi))

theorem Inv.setCell (h : Inv tag closed s) (hopen : closed (tag s.cell) = false) (new : σ) :
    Inv tag closed { s with cell := new } :=
  { h with shut := fun i hi => absurd hi (h.not_claims hopen i) }

def start (cell : σ) : State σ ι := ⟨cell, fun _ => .idle, []⟩

theorem inv_start (cell : σ) : Inv tag closed (start cell : State σ ι) where
  held _ _ h := by cases h
  sole _ _ h _ := by rcases h with h | h <;> cases h
  shut _ h := by rcases h with h | h <;> cases h
  spent _ h := by cases h
  once := List.nodup_nil

variable [DecidableEq ι]

/-- Agent `i` moves on to phase `p`. -/
def State.move (s : State σ ι) (i : ι) (p : Phase σ) : State σ ι :=
  { s with phase := Function.update s.phase i p }

@[simp] theorem State.move_phase_self (s : State σ ι) (i : ι) (p : Phase σ) :
    (s.move i p).phase i = p := Function.update_self ..

variable {i : ι}

@[simp] theorem State.move_phase_of_ne (s : State σ ι) {j : ι} (h : j ≠ i) (p : Phase σ) :
    (s.move i p).phase j = s.phase j := Function.update_of_ne h ..

variable {p : Phase σ}

theorem State.claims_of_move {j : ι} (hp : p ≠ .owing) (h : (s.move i p).Claims j) :
    s.Claims j := by
  refine h.imp_left fun hj => ?_
  by_cases hij : j = i
  · subst hij
    exact absurd ((move_phase_self ..).symm.trans hj) hp
  · rwa [move_phase_of_ne s hij] at hj

theorem State.held_move
    (h : ∀ j snapshot, s.phase j = .holding snapshot → closed (tag snapshot) = false)
    (hp : ∀ snapshot, p = .holding snapshot → closed (tag snapshot) = false) (j : ι)
    (snapshot : σ) : (s.move i p).phase j = .holding snapshot → closed (tag snapshot) = false :=
  (Function.forall_update_iff s.phase
    fun _ q => ∀ snapshot, q = .holding snapshot → closed (tag snapshot) = false).mpr
    ⟨hp, fun j _ => h j⟩ j snapshot

theorem State.spent_move (h : ∀ j ∈ s.acts, j ≠ i → s.phase j = .done)
    (hp : i ∈ s.acts → p = .done) : ∀ j ∈ s.acts, (s.move i p).phase j = .done :=
  (Function.forall_update_iff s.phase fun j q => j ∈ s.acts → q = .done).mpr
    ⟨hp, fun j hij hj => h j hj hij⟩

theorem Inv.move (h : Inv tag closed s) (hp : p ≠ .owing)
    (hheld : ∀ snapshot, p = .holding snapshot → closed (tag snapshot) = false)
    (hdone : s.phase i = .done → p = .done) : Inv tag closed (s.move i p) where
  held := held_move h.held hheld
  sole j k hj hk := h.sole j k (claims_of_move hp hj) (claims_of_move hp hk)
  shut j hj := h.shut j (claims_of_move hp hj)
  spent := spent_move (fun j hj _ => h.spent j hj) fun hi => hdone (h.spent i hi)
  once := h.once

/-- **Closing the cell** gives the one agent that closed it its claim. -/
theorem Inv.win (h : Inv tag closed s) (hopen : closed (tag s.cell) = false) {new : σ}
    (hnew : closed (tag new) = true) : Inv tag closed ({ s with cell := new }.move i .owing) := by
  have hclaim : ∀ j, ({ s with cell := new }.move i .owing).Claims j → j = i := by
    intro j hj
    by_contra hij
    refine h.not_claims hopen j (hj.imp_left fun hj => ?_)
    rwa [move_phase_of_ne _ hij] at hj
  exact
    { held := held_move h.held nofun
      sole := fun j k hj hk => (hclaim j hj).trans (hclaim k hk).symm
      shut := fun _ _ => hnew
      spent := fun j hj => absurd (.inr hj) (h.not_claims hopen j)
      once := h.once }

/-- **Acting** uses up the claim of the agent that owes. -/
theorem Inv.act (h : Inv tag closed s) (hi : s.phase i = .owing) :
    Inv tag closed ({ s with acts := i :: s.acts }.move i .done) := by
  have hnot : i ∉ s.acts := fun hmem => nomatch hi.symm.trans (h.spent i hmem)
  have hclaim : ∀ j, ({ s with acts := i :: s.acts }.move i .done).Claims j → s.Claims j := by
    intro j hj
    rcases claims_of_move (by simp) hj with hj | hj
    · exact .inl hj
    · rcases List.mem_cons.mp hj with rfl | hj
      · exact .inl hi
      · exact .inr hj
  exact
    { held := held_move h.held nofun
      sole := fun j k hj hk => h.sole j k (hclaim j hj) (hclaim k hk)
      shut := fun j hj => h.shut j (hclaim j hj)
      spent := spent_move (s := { s with acts := i :: s.acts })
        (fun j hj hij => h.spent j ((List.mem_cons.mp hj).resolve_left hij)) fun _ => rfl
      once := List.nodup_cons.mpr ⟨hnot, h.once⟩ }

/-! ### Steps and runs -/

variable [DecidableEq τ]

theorem swap_of_closed {old : τ} {new cell : σ} (hcell : closed (tag cell) = true)
    (hold : closed old = false) : swap tag old new cell = (false, cell) := by
  refine if_neg fun heq => ?_
  rw [heq, hold] at hcell
  cases hcell

/-- **One step**. Events that do not fit the phase of their agent do nothing. -/
def step (tag : σ → τ) (closed : τ → Bool) (s : State σ ι) : Event σ ι → State σ ι
  | .read i =>
    match s.phase i with
    | .idle => if closed (tag s.cell) then s else s.move i (.holding s.cell)
    | _ => s
  | .write i new owes =>
    match s.phase i with
    | .holding snapshot =>
      let out := swap tag (tag snapshot) new s.cell
      { s with cell := out.2 }.move i
        (if out.1 ∧ closed (tag new) ∧ owes then .owing else .done)
    | _ => s
  | .act i =>
    match s.phase i with
    | .owing => { s with acts := i :: s.acts }.move i .done
    | _ => s
  | .leave i => s.move i .done

/-- **Every step keeps the invariant.** Only a write can close the cell, and only an open one. -/
theorem inv_step (h : Inv tag closed s) (e : Event σ ι) : Inv tag closed (step tag closed s e) := by
  cases e with
  | read i =>
    simp only [step]
    split
    · rename_i hidle
      split
      · exact h
      · rename_i hopen
        refine h.move (by simp) ?_ (by simp [hidle])
        rintro _ ⟨rfl⟩
        simpa using hopen
    · exact h
  | write i new owes =>
    simp only [step]
    split
    · rename_i snapshot hi
      have hsnap := h.held i snapshot hi
      by_cases htag : tag s.cell = tag snapshot
      · have hopen : closed (tag s.cell) = false := by rw [htag, hsnap]
        rw [swap, if_pos htag]
        split
        · rename_i hwin
          exact h.win hopen hwin.2.1
        · exact (h.setCell hopen new).move (by simp) (by simp) (fun _ => rfl)
      · rw [swap, if_neg htag]
        simpa using h.move (i := i) (p := .done) (by simp) (by simp) (fun _ => rfl)
    · exact h
  | act i =>
    simp only [step]
    split
    · rename_i hi
      exact h.act hi
    · exact h
  | leave i => exact h.move (by simp) (by simp) (fun _ => rfl)

theorem step_cell_of_closed (h : Inv tag closed s) (hclosed : closed (tag s.cell) = true)
    (e : Event σ ι) : (step tag closed s e).cell = s.cell := by
  cases e with
  | read i =>
    simp only [step]
    split
    · rw [if_pos hclosed]
    · rfl
  | write i new owes =>
    simp only [step]
    split
    · rename_i snapshot hi
      rw [swap_of_closed hclosed (h.held i snapshot hi)]
      rfl
    · rfl
  | act i =>
    simp only [step]
    split <;> rfl
  | leave i => rfl

theorem inv_run (cell : σ) (es : List (Event σ ι)) :
    Inv tag closed (run (step tag closed) (start cell) es) :=
  run_induction (I := Inv tag closed) (fun _ e h => inv_step h e) (inv_start cell) es

/-- **At most one agent ever acts**, in every interleaving. -/
theorem run_acts_le_one (cell : σ) (es : List (Event σ ι)) :
    (run (step tag closed) (start cell) es).acts.length ≤ 1 := by
  have hinv : Inv tag closed (run (step tag closed) (start cell) es) := inv_run cell es
  generalize run (step tag closed) (start cell) es = s at hinv
  match hacts : s.acts with
  | [] => exact Nat.zero_le 1
  | [_] => exact Nat.le_refl 1
  | i :: j :: rest =>
    have hij : i = j := hinv.sole i j (.inr (by simp [hacts])) (.inr (by simp [hacts]))
    have hnodup := hinv.once
    rw [hacts, hij] at hnodup
    simp at hnodup

/-- **Once the cell is closed it stays as it is.** -/
theorem run_cell_of_closed (cell : σ) (es fs : List (Event σ ι))
    (hclosed : closed (tag (run (step tag closed) (start cell) es).cell) = true) :
    (run (step tag closed) (run (step tag closed) (start cell) es) fs).cell =
      (run (step tag closed) (start cell) es).cell := by
  have hinv : Inv tag closed (run (step tag closed) (start cell) es) := inv_run cell es
  generalize run (step tag closed) (start cell) es = s at hinv hclosed
  -- The invariant and the value of the cell are carried together through the rest of the run.
  have hkeep : Inv tag closed (run (step tag closed) s fs) ∧
      (run (step tag closed) s fs).cell = s.cell := by
    refine run_induction (I := fun t => Inv tag closed t ∧ t.cell = s.cell) ?_ ⟨hinv, rfl⟩ fs
    rintro t e ⟨ht, hcell⟩
    refine ⟨inv_step ht e, ?_⟩
    rw [step_cell_of_closed ht (by rw [hcell]; exact hclosed), hcell]
  exact hkeep.2

end NomoApi.Cas
