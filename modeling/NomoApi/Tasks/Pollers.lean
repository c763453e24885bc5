import NomoApi.Lib.Cas
import NomoApi.Tasks.Poll

/-! # Pollers racing for one task

Any number of pollers run `updateVideoSingleTask` and `sweepTimedOutTasks` on one task row, in any
interleaving of their three steps. They are an instance of the race of `NomoApi.Cas`, with the
status as the tag (**`Pollers.step_refines`**). -/

namespace NomoApi

open Function Cas.State

inductive PollerPhase where
  | idle
  | loaded (t : Task)
  | timedOut (t : Task)
  | billing (t : Task) (taskResult : TaskInfo) (shouldSettle shouldRefund : Bool)
  | done

/-- The task table, the books, the runs, and those that have billed, latest first. -/
structure Pollers where
  rows : TaskTable
  ledger : Ledger
  phase : Nat → PollerPhase
  billed : List Nat

inductive PollerEvent where
  | load (i : Nat)
  | loadTimedOut (i : Nat) (cutoff : Int)
  | update (i : Nat) (fetch : FetchResult) (now : Int) (fault : Option String)
  | timeOut (i : Nat) (taskTimeoutMinutes now : Int) (fault : Option String)
  | bill (i : Nat) (env : BillingEnv)

namespace Pollers

def move (s : Pollers) (i : Nat) (p : PollerPhase) : Pollers :=
  { s with phase := Function.update s.phase i p }

def written (s : Pollers) (i : Nat) (out : Bool × TaskTable) (owes : Bool)
    (billing : PollerPhase) : Pollers :=
  { s with rows := out.2 }.move i (if out.1 ∧ owes then billing else .done)

/-- The row of the race, if run `i` may load it. -/
def load (s : Pollers) (id : Int) (i : Nat) (p : Task → Bool) (phase : Task → PollerPhase) :
    Pollers :=
  match s.phase i, s.rows.find? id with
  | .idle, some row => if row.Unfinished ∧ p row then s.move i (phase row) else s
  | _, _ => s

/-- **One step of the race for row `id`.** -/
def step (serverAddress : String) (id : Int) (s : Pollers) : PollerEvent → Pollers
  | .load i => s.load id i (fun _ => true) .loaded
  | .loadTimedOut i cutoff => s.load id i (fun t => t.submitTime < cutoff) .timedOut
  | .update i fetch now fault =>
    match s.phase i with
    | .loaded t =>
      let out := pollTask serverAddress now fetch t.getUpstreamTaskID t
      match out.action with
      | .stop _ => s.move i .done
      | .proceed r save settle refund =>
        s.written i
          (save.perform fault (updateWithStatus out.task t.status s.rows) s.rows)
          (settle || refund) (.billing out.task r settle refund)
    | _ => s
  | .timeOut i minutes now fault =>
    match s.phase i with
    | .timedOut t =>
      let after := timeOutTask minutes now t
      s.written i
        (SaveKind.finish.perform fault (updateWithStatus after t.status s.rows) s.rows)
        (refundsTimeOut t) (.billing after (failTaskInfo after.failReason) false true)
    | _ => s
  | .bill i env =>
    match s.phase i with
    | .billing t r settle refund =>
      { s with
        ledger := (billPoll env r settle refund t s.ledger).2
        billed := i :: s.billed }.move i .done
    | _ => s

def start (rows : TaskTable) (ledger : Ledger) : Pollers := ⟨rows, ledger, fun _ => .idle, []⟩

/-! ### The race behind the pollers -/

def tag (row : Option Task) : Option TaskStatus := row.map Task.status

def closed (status : Option TaskStatus) : Bool := status.elim true TaskStatus.isDone

def absPhase : PollerPhase → Cas.Phase (Option Task)
  | .idle => .idle
  | .loaded t => .holding (some t)
  | .timedOut t => .holding (some t)
  | .billing .. => .owing
  | .done => .done

/-- **The race for row `id`**: the row is the cell, and billing is the act. -/
def race (id : Int) (s : Pollers) : Cas.State (Option Task) Nat :=
  ⟨s.rows.find? id, fun i => absPhase (s.phase i), s.billed⟩

/-- What the runs hold is the row `id` as it was while unfinished. -/
def Held (id : Int) (s : Pollers) : Prop :=
  ∀ i t, s.phase i = .loaded t ∨ s.phase i = .timedOut t → t.Unfinished ∧ t.id = id

theorem race_move (id : Int) (s : Pollers) (i : Nat) (p : PollerPhase) :
    race id (s.move i p) = (race id s).move i (absPhase p) := by
  simp only [race, move, move]
  congr 1
  funext j
  by_cases hj : j = i
  · subst hj
    rw [update_self, update_self]
  · rw [update_of_ne hj, update_of_ne hj]

theorem race_setRows (id : Int) (s : Pollers) (rows : TaskTable) :
    race id { s with rows := rows } = { race id s with cell := rows.find? id } := rfl

theorem updateWithStatus_swap (t : Task) (fromStatus : TaskStatus) (rows : TaskTable) :
    (updateWithStatus t fromStatus rows).1 =
        (Cas.swap tag (some fromStatus) (some t) (rows.find? t.id)).1 ∧
      (updateWithStatus t fromStatus rows).2.find? t.id =
        (Cas.swap tag (some fromStatus) (some t) (rows.find? t.id)).2 := by
  unfold updateWithStatus Cas.swap
  cases hrow : rows.find? t.id with
  | none => simp [tag, hrow]
  | some row =>
    by_cases hstatus : row.status = fromStatus
    · simp [tag, hstatus, Table.find?_save rfl hrow]
    · simp [tag, hstatus, hrow]

variable {id : Int} {s : Pollers} {i : Nat}

theorem race_written {t after : Task} {owes : Bool} {bt : Task} {br : TaskInfo} {bs bf : Bool}
    (hphase : absPhase (s.phase i) = .holding (some t)) (hid : after.id = id)
    (howes : owes = true → after.status.isDone = true) :
    race id (s.written i (updateWithStatus after t.status s.rows) owes (.billing bt br bs bf)) =
      Cas.step tag closed (race id s) (.write i (some after) owes) := by
  subst hid
  obtain ⟨hwon, hrow⟩ := updateWithStatus_swap after t.status s.rows
  have hstep : Cas.step tag closed (race after.id s) (.write i (some after) owes) =
      { race after.id s with
        cell := (Cas.swap tag (some t.status) (some after) (s.rows.find? after.id)).2 }.move i
          (if (Cas.swap tag (some t.status) (some after) (s.rows.find? after.id)).1 ∧
            closed (tag (some after)) ∧ owes then .owing else .done) := by
    simp only [Cas.step]
    rw [show (race after.id s).phase i = .holding (some t) from hphase]
    rfl
  rw [hstep, written, race_move, race_setRows, hrow, hwon]
  congr 1
  by_cases hcond : (Cas.swap tag (some t.status) (some after) (s.rows.find? after.id)).1 = true ∧
      owes = true
  · have hclosed : closed (tag (some after)) = true := howes hcond.2
    rw [if_pos hcond, if_pos ⟨hcond.1, hclosed, hcond.2⟩]
    rfl
  · rw [if_neg hcond, if_neg fun h => hcond ⟨h.1, h.2.2⟩]
    rfl

theorem race_leave (id : Int) (s : Pollers) (i : Nat) :
    race id (s.move i .done) = Cas.step tag closed (race id s) (.leave i) := by
  rw [race_move]
  rfl

theorem Held.move (h : Held id s) {p : PollerPhase}
    (hp : ∀ t, p = .loaded t ∨ p = .timedOut t → t.Unfinished ∧ t.id = id) :
    Held id (s.move i p) := by
  intro j t hj
  by_cases hij : j = i
  · subst hij
    simp only [Pollers.move, update_self] at hj
    exact hp t hj
  · simp only [Pollers.move, update_of_ne hij] at hj
    exact h j t hj

theorem Held.load (h : Held id s) (i : Nat) (p : Task → Bool) {phase : Task → PollerPhase}
    (hphase : ∀ row t, phase row = .loaded t ∨ phase row = .timedOut t → t = row) :
    Held id (s.load id i p phase) := by
  unfold Pollers.load
  split
  · rename_i row _ hrow
    split
    · rename_i hun
      refine h.move fun t ht => ?_
      rw [hphase row t ht]
      exact ⟨hun.1, (Table.find?_eq_some.mp hrow).2⟩
    · exact h
  · exact h

theorem Held.written (h : Held id s) (i : Nat) (out : Bool × TaskTable) (owes : Bool) (t : Task)
    (r : TaskInfo) (settle refund : Bool) :
    Held id (s.written i out owes (.billing t r settle refund)) := by
  refine Held.move (s := { s with rows := out.2 }) h fun t' ht' => ?_
  split at ht' <;> simp at ht'

theorem held_step (serverAddress : String) (h : Held id s) (e : PollerEvent) :
    Held id (step serverAddress id s e) := by
  cases e with
  | load i => exact h.load i _ (by simp)
  | loadTimedOut i cutoff => exact h.load i _ (by simp)
  | update i fetch now fault =>
    simp only [step]
    split
    · split
      · exact h.move (by simp)
      · exact h.written _ _ _ _ _ _ _
    · exact h
  | timeOut i minutes now fault =>
    simp only [step]
    split
    · exact h.written _ _ _ _ _ _ _
    · exact h
  | bill i env =>
    simp only [step]
    split
    · exact Held.move (s := { s with ledger := _, billed := _ }) h (by simp)
    · exact h

theorem race_load (i : Nat) (p : Task → Bool) {phase : Task → PollerPhase}
    (hphase : ∀ t, absPhase (phase t) = .holding (some t)) :
    ∃ fs, race id (s.load id i p phase) = run (Cas.step tag closed) (race id s) fs := by
  unfold Pollers.load
  split
  · rename_i row hidle hrow
    split
    · rename_i hun
      refine ⟨[.read i], ?_⟩
      have hopen : closed (tag (s.rows.find? id)) = false := by
        rw [hrow]
        exact hun.1.isDone
      rw [run_cons, run_nil, race_move, hphase]
      simp only [Cas.step]
      rw [show (race id s).phase i = .idle by simp [race, hidle, absPhase]]
      rw [show (race id s).cell = s.rows.find? id from rfl, hopen, hrow]
      rfl
    · exact ⟨[], rfl⟩
  · exact ⟨[], rfl⟩

theorem race_save {t after : Task} {r : TaskInfo} {save : SaveKind} {settle refund : Bool}
    (hphase : s.phase i = .loaded t) (ht : t.Unfinished) (hid : after.id = id)
    (h : Polled t after r save settle refund) (fault : Option String) : ∃ fs, race id (s.written i
        (save.perform fault (updateWithStatus after t.status s.rows) s.rows) (settle || refund)
        (.billing after r settle refund)) = run (Cas.step tag closed) (race id s) fs := by
  have hhold : absPhase (s.phase i) = .holding (some t) := by rw [hphase]; rfl
  have hleave : ∀ b : Bool, (b && (settle || refund)) = false →
      race id (s.written i (b, s.rows) (settle || refund) (.billing after r settle refund)) =
        run (Cas.step tag closed) (race id s) [.leave i] := by
    intro b hb
    rw [run_cons, run_nil, ← race_leave, written, if_neg (by simpa using hb)]
  cases save with
  | finish =>
    cases fault with
    | none => exact ⟨[.write i (some after) (settle || refund)],
        race_written hhold hid (isDone_of_owes h)⟩
    | some err => exact ⟨[.leave i], hleave false rfl⟩
  | refresh =>
    -- Nobody looks at whether this write won, but nothing is billed after it either.
    have howes := not_owes_of_ne_finish ht h (by simp)
    cases fault with
    | none =>
      refine ⟨[.write i (some after) false], ?_⟩
      have hwrite :=
        @race_written id s i t after false after r settle refund hhold hid (by simp)
      rw [run_cons, run_nil, ← hwrite, howes]
      simp [SaveKind.perform, written]
    | some err => exact ⟨[.leave i], hleave true (by simpa using howes)⟩
  | skip =>
    have howes := not_owes_of_ne_finish ht h (by simp)
    exact ⟨[.leave i], hleave true (by simpa using howes)⟩

theorem step_refines (serverAddress : String) (h : Held id s) (e : PollerEvent) :
    ∃ fs, race id (step serverAddress id s e) = run (Cas.step tag closed) (race id s) fs := by
  cases e with
  | load i => exact race_load i _ fun _ => rfl
  | loadTimedOut i cutoff => exact race_load i _ fun _ => rfl
  | update i fetch now fault =>
    simp only [step]
    split
    · rename_i t hphase
      obtain ⟨hun, hid⟩ := h i t (.inl hphase)
      split
      · exact ⟨[.leave i], race_leave id s i⟩
      · rename_i haction
        have hpolled := pollTask_proceed haction
        have hafter : (pollTask serverAddress now fetch t.getUpstreamTaskID t).task.id = t.id :=
          Task.id_of_fixed hpolled.fixed
        exact race_save hphase hun (hafter.trans hid) hpolled fault
    · exact ⟨[], rfl⟩
  | timeOut i minutes now fault =>
    simp only [step]
    split
    · rename_i t hphase
      obtain ⟨hun, hid⟩ := h i t (.inr hphase)
      have hhold : absPhase (s.phase i) = .holding (some t) := by rw [hphase]; rfl
      cases fault with
      | none =>
        exact ⟨[.write i (some (timeOutTask minutes now t)) (refundsTimeOut t)],
          race_written hhold hid fun _ => TaskStatus.isDone_failure⟩
      | some err =>
        refine ⟨[.leave i], ?_⟩
        rw [run_cons, run_nil, ← race_leave]
        simp [written, SaveKind.perform]
    · exact ⟨[], rfl⟩
  | bill i env =>
    simp only [step]
    split
    · rename_i hphase
      refine ⟨[.act i], ?_⟩
      rw [run_cons, run_nil, race_move]
      simp only [Cas.step]
      rw [show (race id s).phase i = .owing by simp [race, hphase, absPhase]]
      rfl
    · exact ⟨[], rfl⟩

/-- **Every run of the pollers is a run of the race.** -/
theorem run_refines (serverAddress : String) (h : Held id s) (es : List PollerEvent) :
    ∃ fs, race id (run (step serverAddress id) s es) = run (Cas.step tag closed) (race id s) fs :=
  run_simulation (I := Held id) (fun _ e h => held_step serverAddress h e)
    (fun _ e h => step_refines serverAddress h e) h es

end Pollers

/-- **At most one run bills a task, and a terminal status is final**, in every interleaving of any
number of polls and sweeps on one row. -/
theorem at_most_one_billing (serverAddress : String) (id : Int) (rows : TaskTable)
    (ledger : Ledger) (es : List PollerEvent) :
    (run (Pollers.step serverAddress id) (Pollers.start rows ledger) es).billed.length ≤ 1 ∧
      ∀ pre post, es = pre ++ post → ∀ row,
        (run (Pollers.step serverAddress id) (Pollers.start rows ledger) pre).rows.find? id =
          some row → row.status.isDone = true →
        ∃ row', (run (Pollers.step serverAddress id) (Pollers.start rows ledger) es).rows.find? id =
          some row' ∧ row'.status = row.status := by
  have hheld : Pollers.Held id (Pollers.start rows ledger) := by
    rintro i t (h | h) <;> cases h
  constructor
  · obtain ⟨fs, hfs⟩ := Pollers.run_refines serverAddress hheld es
    have hacts : (run (Pollers.step serverAddress id) (Pollers.start rows ledger) es).billed =
        (run (Cas.step Pollers.tag Pollers.closed) (Cas.start (rows.find? id)) fs).acts :=
      congrArg acts hfs
    rw [hacts]
    exact Cas.run_acts_le_one (rows.find? id) fs
  · rintro pre post rfl row hrow hdone
    obtain ⟨fs, hfs⟩ := Pollers.run_refines serverAddress hheld pre
    -- The second part of the run is a run of the race from where the first part ended.
    have hmid : Pollers.Held id
        (run (Pollers.step serverAddress id) (Pollers.start rows ledger) pre) :=
      run_induction (I := Pollers.Held id) (fun _ e h => Pollers.held_step serverAddress h e)
        hheld pre
    obtain ⟨gs, hgs⟩ := Pollers.run_refines serverAddress hmid post
    have hcell := congrArg cell hfs
    have hclosed : Pollers.closed (Pollers.tag
        (run (Cas.step Pollers.tag Pollers.closed) (Cas.start (rows.find? id)) fs).cell) =
          true := by
      have hsome := hcell.symm.trans hrow
      rw [show (Cas.start (rows.find? id) : Cas.State (Option Task) Nat) =
        Pollers.race id (Pollers.start rows ledger) from rfl, hsome]
      exact hdone
    have hstay := Cas.run_cell_of_closed (rows.find? id) fs gs hclosed
    refine ⟨row, ?_, rfl⟩
    rw [run_append]
    have hend := congrArg cell hgs
    rw [hfs] at hend
    exact hend.trans (hstay.trans (hcell.symm.trans hrow))

end NomoApi
