import NomoApi.Tasks.Suno

/-! # How much a Suno task is refunded

`updateSunoTasks` refunds a failed task before it saves the row. The refund is paid again when an
answer names the task twice, or when the save fails and the task is polled again. -/

namespace NomoApi

open Table

structure SunoRound where
  limit : Nat
  nullFault : Option String
  env : SunoEnv

def platformTasks (limit : Nat) (platform : String) (rows : TaskTable) : TaskTable :=
  (unfinishedTasks limit rows).filter fun t => t.platform = platform

/-- **A round of Suno polling**: load the unfinished tasks, fail those without an upstream ID, and
go through the channels. -/
def sunoRound (w : TaskWorld) (e : SunoRound) : TaskWorld :=
  let tasks := platformTasks e.limit "suno" w.rows
  let st := updateAllSunoTasks e.env tasks
    (.start (failNullTasks e.nullFault tasks w.rows) tasks w.ledger)
  ⟨st.rows, st.ledger⟩

/-- **What `RefundTaskQuota` has returned for a row**, in total. -/
def refunded (id : Int) (w : TaskWorld) : Int :=
  ((w.ledger.refundsOf id).map fun a => -a.delta).sum

def SunoItem.Fails (item : SunoItem) : Prop := item.failReason ≠ "" ∨ item.status = .failure
deriving Decidable

/-- The item gives the task a status other than `FAILURE`, and no reason to fail. -/
def SunoItem.Quiet (item : SunoItem) : Prop :=
  item.failReason = "" ∧ item.status ≠ .failure ∧ item.status ≠ ⟨""⟩
deriving Decidable

/-- **Careful items**: after one that tells of a failure, the save succeeds and the rest are quiet.
-/
def Careful : List SunoVisit → Prop
  | [] => True
  | v :: vs => (v.item.Fails → v.fault = none ∧ ∀ w ∈ vs, w.item.Quiet) ∧ Careful vs

instance : (vs : List SunoVisit) → Decidable (Careful vs)
  | [] => .isTrue trivial
  | _ :: vs =>
    have : Decidable (Careful vs) := instDecidableCareful vs
    inferInstanceAs (Decidable ((_ → _) ∧ _))

/-- **The round is careful with the row `id`.** -/
def SunoRound.CarefulWith (id : Int) (w : TaskWorld) (e : SunoRound) : Prop :=
  Careful (visitsOf (platformTasks e.limit "suno" w.rows) id
    (sunoSteps e.env (platformTasks e.limit "suno" w.rows)))
deriving Decidable

/-! ### Within a round -/

def PaidOnce (id quota : Int) (ledger : Ledger) : Prop :=
  ledger.refundsOf id = [] ∨ ∃ a, ledger.refundsOf id = [a] ∧ a.delta = -quota

structure RowHeld (id quota : Int) (st : PollState) (m row : Task) : Prop where
  inMemory : st.mem.find? id = some m
  inTable : st.rows.find? id = some row
  memQuota : m.quota = quota
  rowQuota : row.quota = quota

/-- **The task has not failed yet** in this round. -/
def Going (id quota : Int) (st : PollState) : Prop :=
  ∃ m row, RowHeld id quota st m row ∧ st.ledger.refundsOf id = [] ∧ m.status ≠ .failure

/-- **The task has failed** in this round: complete in memory and in the table, and refunded at most
once. -/
def Failed (id quota : Int) (st : PollState) : Prop :=
  ∃ m row, RowHeld id quota st m row ∧ PaidOnce id quota st.ledger ∧ m.progress = "100%" ∧
    row.progress = "100%"

section

variable {quota : Int} {st : PollState} {m row : Task} {id : Int}

section

variable (h : RowHeld id quota st m row)

include h

theorem RowHeld.bulk (fault : Option String) (ids : List Int) (reason : String) :
    ∃ row', RowHeld id quota (st.failBulk fault ids reason) m row' ∧
      (row.progress = "100%" → row'.progress = "100%") := by
  unfold PollState.failBulk
  cases fault with
  | some _ => exact ⟨row, h, fun hp => hp⟩
  | none =>
    refine ⟨if id ∈ ids then row.bulkFail (some reason) else row,
      ⟨h.inMemory, ?_, h.memQuota, ?_⟩, ?_⟩
    · dsimp only
      rw [find?_taskBulkUpdateByID, h.inTable]
      rfl
    · split <;> exact h.rowQuota
    · intro hp
      split
      · rfl
      · exact hp

theorem RowHeld.same {st' : PollState} (hsame : st.SameAt id st') :
    RowHeld id quota st' m row :=
  ⟨hsame.mem.trans h.inMemory, hsame.rows.trans h.inTable, h.memQuota, h.rowQuota⟩

theorem RowHeld.self (v : SunoVisit) :
    RowHeld id quota (saveSunoItem v m st) (applySunoItem v.item m)
      (if v.fault = none then applySunoItem v.item m else row) := by
  have hid : m.id = id := (find?_eq_some.mp h.inMemory).2
  subst hid
  obtain ⟨hmem, hrows, -⟩ := saveSunoItem_self v h.inMemory h.inTable
  refine ⟨hmem, hrows, h.memQuota, ?_⟩
  split
  · exact h.memQuota
  · exact h.rowQuota

end

theorem refunds_of_not_fails {item : SunoItem} (h : ¬ item.Fails) (hm : m.status ≠ .failure) :
    item.refunds m = false ∧ item.newStatus m ≠ .failure := by
  obtain ⟨hreason, hstatus⟩ := not_or.mp h
  have hnew : item.newStatus m ≠ .failure := by
    unfold SunoItem.newStatus
    split
    · exact hstatus
    · exact hm
  exact ⟨decide_eq_false (not_or.mpr ⟨hreason, hnew⟩), hnew⟩

theorem refunds_of_quiet {item : SunoItem} (h : item.Quiet) (m : Task) :
    item.refunds m = false := by
  have hnew : item.newStatus m = item.status := if_pos h.2.2
  refine decide_eq_false (not_or.mpr ⟨not_not.mpr h.1, ?_⟩)
  rw [hnew]
  exact h.2.1

theorem progress_of_fails {item : SunoItem} (h : item.Fails) (m : Task) :
    (applySunoItem item m).progress = "100%" := by
  have hrefunds : item.refunds m = true := by
    refine decide_eq_true (h.imp_right fun hstatus => ?_)
    rw [SunoItem.newStatus, if_pos (by rw [hstatus]; decide), hstatus]
  exact if_pos (.inl hrefunds)

variable {v : SunoVisit}

section

variable (h : RowHeld id quota st m row) (hbook : st.ledger.refundsOf id = [])

include h hbook

theorem Going.item (hm : m.status ≠ .failure) (hv : ¬ v.item.Fails) :
    Going id quota (saveSunoItem v m st) := by
  obtain ⟨hrefunds, hnew⟩ := refunds_of_not_fails hv hm
  have hid : m.id = id := (find?_eq_some.mp h.inMemory).2
  refine ⟨_, _, h.self v, ?_, hnew⟩
  subst hid
  rw [(saveSunoItem_self v h.inMemory h.inTable).2.2, hrefunds, hbook]
  simp

theorem Going.fail (hv : v.item.Fails) (hfault : v.fault = none) :
    Failed id quota (saveSunoItem v m st) := by
  have hid : m.id = id := (find?_eq_some.mp h.inMemory).2
  refine ⟨_, _, h.self v, ?_, progress_of_fails hv m, ?_⟩
  · subst hid
    rw [PaidOnce, (saveSunoItem_self v h.inMemory h.inTable).2.2, hbook]
    split
    · exact .inr ⟨_, rfl, by rw [← h.memQuota]; rfl⟩
    · exact .inl rfl
  · rw [if_pos hfault]
    exact progress_of_fails hv m

end

theorem Failed.item (h : RowHeld id quota st m row) (hpaid : PaidOnce id quota st.ledger)
    (hm : m.progress = "100%") (hrow : row.progress = "100%") (hv : v.item.Quiet) :
    Failed id quota (saveSunoItem v m st) := by
  have hid : m.id = id := (find?_eq_some.mp h.inMemory).2
  have hprogress : (applySunoItem v.item m).progress = "100%" := by
    simp only [applySunoItem]
    split
    · rfl
    · exact hm
  refine ⟨_, _, h.self v, ?_, hprogress, ?_⟩
  · subst hid
    rw [PaidOnce, (saveSunoItem_self v h.inMemory h.inTable).2.2, refunds_of_quiet hv m]
    simpa [PaidOnce] using hpaid
  · split
    · exact hprogress
    · exact hrow

variable {tasks : TaskTable}

theorem visitsOf_cons (tasks : TaskTable) (id : Int) (step : SunoStep) (steps : List SunoStep) :
    visitsOf tasks id (step :: steps) = visitsOf tasks id steps ∨
      ∃ v, visitsOf tasks id (step :: steps) = v :: visitsOf tasks id steps := by
  cases step with
  | failChannel c ids => exact .inl rfl
  | item v =>
    by_cases h : (taskM tasks v.item.taskID).any (fun t => t.id = id) = true
    · exact .inr ⟨v, by simp [visitsOf, h]⟩
    · exact .inl (by simp [visitsOf, h])

theorem Careful.tail {step : SunoStep} {steps : List SunoStep}
    (h : Careful (visitsOf tasks id (step :: steps))) : Careful (visitsOf tasks id steps) := by
  rcases visitsOf_cons tasks id step steps with heq | ⟨v, heq⟩ <;> rw [heq] at h
  · exact h
  · exact h.2

theorem quiet_tail {step : SunoStep} {steps : List SunoStep}
    (h : ∀ v ∈ visitsOf tasks id (step :: steps), v.item.Quiet) :
    ∀ v ∈ visitsOf tasks id steps, v.item.Quiet := by
  rcases visitsOf_cons tasks id step steps with heq | ⟨w, heq⟩ <;> rw [heq] at h
  · exact h
  · exact fun v hv => h v (List.mem_cons_of_mem w hv)

theorem going_failed_of_held {st' : PollState} (hheld : ∀ m row, RowHeld id quota st m row →
      ∃ row', RowHeld id quota st' m row' ∧ (row.progress = "100%" → row'.progress = "100%"))
    (hbooks : st'.ledger.refundsOf id = st.ledger.refundsOf id) :
    (Going id quota st → Going id quota st') ∧ (Failed id quota st → Failed id quota st') := by
  constructor
  · rintro ⟨m, row, hrow, hbook, hm⟩
    obtain ⟨row', hrow', -⟩ := hheld m row hrow
    exact ⟨m, row', hrow', hbooks.trans hbook, hm⟩
  · rintro ⟨m, row, hrow, hpaid, hm, hprogress⟩
    obtain ⟨row', hrow', hprogress'⟩ := hheld m row hrow
    refine ⟨m, row', hrow', ?_, hm, hprogress' hprogress⟩
    rw [PaidOnce, hbooks]
    exact hpaid

/-- **Through a round**: a task is going, or it has failed. -/
theorem going_or_failed_run (env : SunoEnv) (tasks : TaskTable) (steps : List SunoStep)
    (st : PollState) (h : (Going id quota st ∧ Careful (visitsOf tasks id steps)) ∨
      (Failed id quota st ∧ ∀ v ∈ visitsOf tasks id steps, v.item.Quiet)) :
    Going id quota (run (SunoStep.perform env tasks) st steps) ∨
      Failed id quota (run (SunoStep.perform env tasks) st steps) := by
  induction steps generalizing st with
  | nil => exact h.imp And.left And.left
  | cons step steps ih =>
    rw [run_cons]
    apply ih
    -- a piece of work that is no item of the row leaves both cases as they are
    have hkeep : ∀ st', (Going id quota st → Going id quota st') ∧
        (Failed id quota st → Failed id quota st') →
        (Going id quota st' ∧ Careful (visitsOf tasks id steps)) ∨
          (Failed id quota st' ∧ ∀ v ∈ visitsOf tasks id steps, v.item.Quiet) := by
      rintro st' ⟨hgoing, hfailed⟩
      exact h.imp (fun h => ⟨hgoing h.1, h.2.tail⟩) fun h => ⟨hfailed h.1, quiet_tail h.2⟩
    have hsame : ∀ st', st.SameAt id st' → _ := fun st' hsame =>
      hkeep st' (going_failed_of_held
        (fun _ row hheld => ⟨row, hheld.same hsame, fun hprogress => hprogress⟩) hsame.refunds)
    rcases sunoStep_cases env tasks st step with
      ⟨p, hstep⟩ | ⟨c, ids, fault, reason, -, hstep⟩ | ⟨v, t, m, rfl, ht, hfind, hstep⟩ <;>
      rw [hstep]
    · exact hsame _ ⟨rfl, rfl, rfl, rfl⟩
    · exact hkeep _ (going_failed_of_held
        (fun m row hheld => hheld.bulk fault (failedIDs tasks ids) reason)
        (by cases fault <;> rfl))
    · have hmid : m.id = t.id := (find?_eq_some.mp hfind).2
      by_cases hid : t.id = id
      · -- The item reaches the row.
        rw [hid] at hfind
        have hvisits : visitsOf tasks id (.item v :: steps) = v :: visitsOf tasks id steps := by
          simp [visitsOf, ht, hid]
        rw [hvisits] at h
        rcases h with ⟨⟨n, row, hheld, hbook, hn⟩, hfail, hcareful⟩ |
          ⟨⟨n, row, hheld, hpaid, hn, hrow⟩, hquiet⟩
        · obtain rfl : m = n := Option.some.inj (hfind.symm.trans hheld.inMemory)
          by_cases hv : v.item.Fails
          · exact .inr ⟨Going.fail hheld hbook hv (hfail hv).1, (hfail hv).2⟩
          · exact .inl ⟨Going.item hheld hbook hn hv, hcareful⟩
        · obtain rfl : m = n := Option.some.inj (hfind.symm.trans hheld.inMemory)
          exact .inr ⟨Failed.item hheld hpaid hn hrow (hquiet v List.mem_cons_self),
            fun w hw => hquiet w (List.mem_cons_of_mem v hw)⟩
      · -- The item belongs to another row.
        have hne : id ≠ m.id := by
          rw [hmid]
          exact fun heq => hid heq.symm
        exact hsame _ (saveSunoItem_of_ne v hne st)

/-! ### From round to round -/

def NotLoaded (tasks : TaskTable) (id : Int) : Prop := ∀ t ∈ tasks, t.id ≠ id

theorem NotLoaded.not_failed (h : NotLoaded tasks id) (ids : List String) :
    id ∉ failedIDs tasks ids := fun hmem =>
  let ⟨t, ht, heq⟩ := mem_failedIDs hmem
  h t ht heq

theorem run_of_notLoaded (env : SunoEnv) (h : NotLoaded tasks id) (steps : List SunoStep)
    (st : PollState) : st.SameAt id (run (SunoStep.perform env tasks) st steps) :=
  sameAt_run (J := fun _ => True) (fun _ _ _ => trivial)
    (fun st' _ _ => sunoPerform_untouched env tasks st' (fun _ ids _ => h.not_failed ids)
      fun _ t _ ht => h t (taskM_eq_some ht).1) trivial steps

theorem find?_failNullTasks (fault : Option String) (tasks rows : TaskTable)
    (h : rows.find? id = some row) :
    ∃ row', (failNullTasks fault tasks rows).find? id = some row' ∧ row'.quota = row.quota ∧
      (NotLoaded tasks id → row' = row) := by
  unfold failNullTasks
  split
  · exact ⟨row, h, rfl, fun _ => rfl⟩
  · refine ⟨_, by rw [find?_taskBulkUpdateByID, h]; rfl, ?_, ?_⟩
    · split <;> rfl
    · intro hnot
      refine if_neg fun hmem => ?_
      obtain ⟨t, ht, heq, -⟩ := mem_nullTaskIds hmem
      exact hnot t ht heq

/-- **Between rounds** a row has its quota, and once anything was refunded it is complete. -/
def Accounted (id quota : Int) (w : TaskWorld) : Prop :=
  ∃ row, w.rows.find? id = some row ∧ row.quota = quota ∧
    (w.ledger.refundsOf id = [] ∨ PaidOnce id quota w.ledger ∧ row.progress = "100%")

theorem accounted_sunoRound {w : TaskWorld} (h : Accounted id quota w) {e : SunoRound}
    (hcareful : e.CarefulWith id w) : Accounted id quota (sunoRound w e) := by
  obtain ⟨row, hrow, hquota, hbook⟩ := h
  simp only [sunoRound]
  unfold SunoRound.CarefulWith at hcareful
  generalize htasks : platformTasks e.limit "suno" w.rows = tasks at hcareful ⊢
  rw [updateAllSunoTasks_eq_run]
  obtain ⟨row', hrow', hquota', hnot⟩ := find?_failNullTasks e.nullFault tasks w.rows hrow
  by_cases hloaded : NotLoaded tasks id
  · obtain ⟨-, hrows, hbooks, -⟩ := run_of_notLoaded e.env hloaded (sunoSteps e.env tasks)
      (.start (failNullTasks e.nullFault tasks w.rows) tasks w.ledger)
    refine ⟨row, ?_, hquota, ?_⟩
    · rw [hrows, ← hnot hloaded]
      exact hrow'
    · rw [PaidOnce, hbooks]
      exact hbook
  · unfold NotLoaded at hloaded
    push Not at hloaded
    obtain ⟨t, ht, rfl⟩ := hloaded
    have hmem : t ∈ w.rows ∧ t.Unfinished := by
      rw [← htasks] at ht
      exact mem_unfinishedTasks (mem_filter.mp ht).1
    obtain rfl : t = row := eq_of_find? hmem.1 rfl hrow
    have hnone : w.ledger.refundsOf t.id = [] :=
      hbook.resolve_right fun hpaid => hmem.2.1 hpaid.2
    have hstart : Going t.id quota
        (.start (failNullTasks e.nullFault tasks w.rows) tasks w.ledger) :=
      ⟨t, row', ⟨find?_key ht, hrow', hquota, hquota'.trans hquota⟩, hnone, hmem.2.2.1⟩
    rcases going_or_failed_run e.env tasks (sunoSteps e.env tasks) _ (.inl ⟨hstart, hcareful⟩) with
      ⟨m, r, hheld, hbooks, -⟩ | ⟨m, r, hheld, hpaid, -, hprogress⟩
    · exact ⟨r, hheld.inTable, hheld.rowQuota, .inl hbooks⟩
    · exact ⟨r, hheld.inTable, hheld.rowQuota, .inr ⟨hpaid, hprogress⟩⟩

theorem PaidOnce.refunded_le {w : TaskWorld} (h : PaidOnce id quota w.ledger)
    (hquota : 0 ≤ quota) : refunded id w ≤ quota := by
  rcases h with hnone | ⟨a, hone, hdelta⟩
  · simpa [refunded, hnone] using hquota
  · simp [refunded, hone, hdelta]

end

/-- **A Suno task is never refunded more than its quota**, over any number of rounds that are
careful with it. -/
theorem suno_refunds_le {w : TaskWorld} {s : Task} (hs : s ∈ w.rows) (hquota : 0 ≤ s.quota)
    (hnone : w.ledger.refundsOf s.id = []) {es : List SunoRound}
    (hcareful : AllSteps (fun w e => e.CarefulWith s.id w) sunoRound w es) :
    Always (fun w => refunded s.id w ≤ s.quota) sunoRound w es := by
  have hstart : Accounted s.id s.quota w := ⟨s, find?_key hs, rfl, .inl hnone⟩
  have halways : Always (Accounted s.id s.quota) sunoRound w es :=
    always_of_allSteps (I := Accounted s.id s.quota) (fun _ _ h hc => accounted_sunoRound h hc)
      hstart hcareful
  refine halways.mono ?_
  rintro w ⟨row, -, -, hbook⟩
  have hpaid : PaidOnce s.id s.quota w.ledger := hbook.elim .inl And.left
  exact hpaid.refunded_le hquota

def sunoTask : Task where
  id := 1
  taskID := "task"
  platform := "suno"
  userId := 1
  group := "default"
  channelId := 1
  quota := 10
  action := "MUSIC"
  status := .submitted
  failReason := ""
  submitTime := 1750000000
  startTime := 0
  finishTime := 0
  progress := "0%"
  originModelName := "model"
  privateData := ⟨"", "u", "", "wallet", 0, 0, none⟩
  data := []

def sunoWorld : TaskWorld := ⟨.singleton sunoTask, ⟨[], []⟩⟩

def failedItem : SunoVisit where
  item := ⟨"u", .failure, "rejected", 0, 0, 0, []⟩
  fault := none
  billing := ⟨none, fun _ => "", fun _ _ => 0, fun _ _ => none⟩

def sunoAnswer (visits : List SunoVisit) : SunoRound where
  limit := 100
  nullFault := none
  env :=
    { order := .given Int
      channelError := fun _ => none
      bulkFault := fun _ => none
      adaptorFound := true
      fetch := fun _ => .items visits
      marshal := id }

/-- An answer that names the failed task twice refunds it twice: the zero time of the item counts as
a change. -/
theorem refunded_repeated_item :
    ¬ refunded sunoTask.id (run sunoRound sunoWorld [sunoAnswer [failedItem, failedItem]]) ≤
      sunoTask.quota := by
  decide

/-- An answer that names the failed task once refunds it once. -/
theorem suno_refunds_single_item :
    Always (fun w => refunded sunoTask.id w ≤ sunoTask.quota) sunoRound sunoWorld
      [sunoAnswer [failedItem], sunoAnswer [failedItem]] :=
  suno_refunds_le (List.mem_singleton_self sunoTask) (by decide) rfl
    ⟨by decide, by decide, trivial⟩

end NomoApi
