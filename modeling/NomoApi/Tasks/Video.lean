import NomoApi.Lib.Grouping
import NomoApi.Lib.Run
import NomoApi.Tasks.Poll

/-! # A round of video polling

`taskM` maps an upstream task ID to *one* task in memory, `taskChannelM` lists the upstream IDs by
channel. `updateVideoTasks` polls the IDs of a channel, each time the task that `taskM` holds. A
poll sees what the polls before it did to the task in memory. -/

namespace NomoApi

open List

structure TaskWorld where
  rows : TaskTable
  ledger : Ledger

structure Poll where
  channelId : Int
  row : Int
deriving DecidableEq

/-- **The state of a polling round**: the table, the tasks in memory, the books, the polls, latest
first, and whether there was a panic. -/
structure PollState where
  rows : TaskTable
  mem : TaskTable
  ledger : Ledger
  polls : List Poll
  panicked : Bool

open PollState

structure VisitEnv where
  fetch : FetchResult
  now : Int
  fault : Option String
  billing : BillingEnv

structure VideoEnv where
  serverAddress : String
  order : MapOrder Int
  channelError : Int → Option String
  adaptorFound : Bool
  bulkFault : Int → Option String
  visit : Int → Nat → VisitEnv

namespace PollState

def pollsOf (st : PollState) (id : Int) : Nat := st.polls.countP fun p => p.row = id

end PollState

/-! ### Grouping -/

def pollable (tasks : TaskTable) : List Task := tasks.rows.filter fun t => t.getUpstreamTaskID ≠ ""

def taskM (tasks : TaskTable) (upstreamID : String) : Option Task :=
  (pollable tasks).reverse.find? fun t => t.getUpstreamTaskID = upstreamID

def taskChannelM (order : MapOrder Int) (tasks : TaskTable) : List (Int × List String) :=
  (grouped order Task.channelId (pollable tasks)).map fun g => (g.1, g.2.map Task.getUpstreamTaskID)

def nullTaskIds (tasks : TaskTable) : List Int :=
  (tasks.rows.filter fun t => t.getUpstreamTaskID = "").map Task.id

/-- **The rows without an upstream ID** are set to `FAILURE` in bulk. -/
def failNullTasks (fault : Option String) (tasks rows : TaskTable) : TaskTable :=
  match fault with
  | some _ => rows
  | none => taskBulkUpdateByID (nullTaskIds tasks) none rows

/-- The rows that `taskM` holds for these IDs. -/
def failedIDs (tasks : TaskTable) (taskIds : List String) : List Int :=
  taskIds.filterMap fun u => (taskM tasks u).map Task.id

variable {tasks : TaskTable}

theorem taskM_eq_some {u : String} {s : Task} (h : taskM tasks u = some s) :
    s ∈ tasks ∧ s.getUpstreamTaskID = u ∧ u ≠ "" := by
  have hmem := mem_of_find?_eq_some h
  have hkey : s.getUpstreamTaskID = u := by simpa using find?_some h
  rw [mem_reverse, pollable, mem_filter] at hmem
  refine ⟨hmem.1, hkey, ?_⟩
  have hne := hmem.2
  rw [hkey] at hne
  simpa using hne

variable {id : Int}

theorem mem_failedIDs {taskIds : List String} (h : id ∈ failedIDs tasks taskIds) :
    ∃ t ∈ tasks, t.id = id := by
  obtain ⟨u, -, hu⟩ := mem_filterMap.mp h
  obtain ⟨t, ht, rfl⟩ := Option.map_eq_some_iff.mp hu
  exact ⟨t, (taskM_eq_some ht).1, rfl⟩

theorem mem_nullTaskIds (h : id ∈ nullTaskIds tasks) :
    ∃ t ∈ tasks, t.id = id ∧ t.getUpstreamTaskID = "" := by
  obtain ⟨t, ht, rfl⟩ := mem_map.mp h
  obtain ⟨hmem, hnull⟩ := mem_filter.mp ht
  exact ⟨t, hmem, rfl, of_decide_eq_true hnull⟩

/-! ### Polling -/

def finishVisit (visit : VisitEnv) (channelId : Int) (t : Task) (out : PollOutcome)
    (st : PollState) : PollState :=
  match out.action with
  -- nothing is written, but what the poll put into the shared task stays in memory
  | .stop _ => { st with mem := st.mem.save out.task, polls := ⟨channelId, t.id⟩ :: st.polls }
  | .proceed r save settle refund =>
    -- the guard is the status in memory, which an earlier poll of the round may have set
    let write := save.perform visit.fault (updateWithStatus out.task t.status st.rows) st.rows
    let bill :=
      billPoll visit.billing r (write.1 && settle) (write.1 && refund) out.task st.ledger
    { st with
      rows := write.2, mem := st.mem.save bill.1, ledger := bill.2
      polls := ⟨channelId, t.id⟩ :: st.polls }

variable (env : VideoEnv)

/-- **The poll of the task `t`** in memory, through a channel. -/
def visitTask (channelId : Int) (t : Task) (st : PollState) : PollState :=
  let visit := env.visit t.id (st.pollsOf t.id)
  finishVisit visit channelId t
    (pollTask env.serverAddress visit.now visit.fetch t.getUpstreamTaskID t) st

def updateVideoSingleTask (tasks : TaskTable) (channelId : Int) (taskId : String)
    (st : PollState) : PollState :=
  match (taskM tasks taskId).bind fun t => st.mem.find? t.id with
  -- an ID without a task is an error, which the caller logs
  | none => st
  | some t => visitTask env channelId t st

/-- The rows of a channel that does not load are set to `FAILURE` in bulk. -/
def PollState.failBulk (fault : Option String) (ids : List Int) (failReason : String)
    (st : PollState) : PollState :=
  match fault with
  | some _ => st
  | none => { st with rows := taskBulkUpdateByID ids (some failReason) st.rows }

def failVideoTasks (tasks : TaskTable) (channelId : Int) (taskIds : List String)
    (st : PollState) : PollState :=
  st.failBulk (env.bulkFault channelId) (failedIDs tasks taskIds)
    s!"Failed to get channel info, channel ID: {channelId}"

/-- **The polls of one channel.** -/
def updateVideoTasks (tasks : TaskTable) (channelId : Int) (taskIds : List String)
    (st : PollState) : PollState :=
  match env.channelError channelId with
  | some _ => failVideoTasks env tasks channelId taskIds st
  | none =>
    if env.adaptorFound then
      -- a poll that fails does not keep the next one from being made
      taskIds.foldl (fun st taskId => updateVideoSingleTask env tasks channelId taskId st) st
    else st

/-- **`UpdateVideoTasks`**: all channels, in the order of the map. -/
def updateAllVideoTasks (tasks : TaskTable) (st : PollState) : PollState :=
  (taskChannelM env.order tasks).foldl
    (fun st g => updateVideoTasks env tasks g.1 g.2 st) st

def PollState.start (rows tasks : TaskTable) (ledger : Ledger) : PollState :=
  ⟨rows, tasks, ledger, [], false⟩

/-- **A round of video polling** of the tasks read from the table. -/
def videoRound (rows tasks : TaskTable) : PollState :=
  updateAllVideoTasks env tasks (.start rows tasks ⟨[], []⟩)

/-! ### What a poll does to the round -/

/-- **The effect of a poll of `t`** on the state of the round. -/
structure Visited (channelId : Int) (t : Task) (st st' : PollState) : Prop where
  polls : st'.polls = ⟨channelId, t.id⟩ :: st.polls
  task : ∃ t', st'.mem = st.mem.save t' ∧ t'.id = t.id ∧
    t'.perCallBilling = t.perCallBilling ∧ (t.perCallBilling = true → t'.quota = t.quota)
  rows : ∀ id, id ≠ t.id → st'.rows.find? id = st.rows.find? id
  others : ∀ id, id ≠ t.id → st'.ledger.refundsOf id = st.ledger.refundsOf id
  refunds : st'.ledger.refundsOf t.id = st.ledger.refundsOf t.id ∨
    t.quota ≠ 0 ∧ ∃ a, st'.ledger.refundsOf t.id = a :: st.ledger.refundsOf t.id

theorem find?_perform_of_ne {after : Task} (h : id ≠ after.id) (save : SaveKind)
    (fault : Option String) (fromStatus : TaskStatus) (rows : TaskTable) :
    (save.perform fault (updateWithStatus after fromStatus rows) rows).2.find? id =
      rows.find? id := by
  have hupdate := find?_updateWithStatus_of_ne h fromStatus rows
  cases save <;> cases fault <;> first | exact hupdate | rfl

/-- **A poll that bills** refunds at most once: a task that failed is not settled. -/
theorem billed_refundsOf {t after : Task} {r : TaskInfo} {save : SaveKind} {settle refund : Bool}
    (h : Polled t after r save settle refund) (won : Bool) (env : BillingEnv) (ledger : Ledger) :
    (billPoll env r (won && settle) (won && refund) after ledger).2.refundsOf t.id =
        ledger.refundsOf t.id ∨
      t.quota ≠ 0 ∧ ∃ a, (billPoll env r (won && settle) (won && refund) after ledger).2.refundsOf
        t.id = a :: ledger.refundsOf t.id := by
  cases hrefund : won && refund with
  | false =>
    left
    rw [Ledger.refundsOf, billPoll_refunds_of_not, Ledger.refundsOf]
  | true =>
    obtain ⟨rfl, hr⟩ := Bool.and_eq_true_iff.mp hrefund
    rw [h.refund] at hr
    obtain ⟨hfailure, hquota⟩ := of_decide_eq_true hr
    have hsettle : settle = false := by rw [h.settle, hfailure]; rfl
    have hbill : (billPoll env r (true && settle) true after ledger).2 =
        refundTaskQuota env after ledger := by rw [hsettle]; rfl
    rw [hbill, ← Task.id_of_fixed h.fixed, refundsOf_refundTaskQuota]
    split
    · exact .inr ⟨hquota, _, rfl⟩
    · exact .inl rfl

theorem visitTask_visited (channelId : Int) (t : Task) (st : PollState) :
    Visited channelId t st (visitTask env channelId t st) := by
  simp only [visitTask]
  generalize env.visit t.id (st.pollsOf t.id) = visit
  have hfixed := pollTask_fixed env.serverAddress visit.now visit.fetch t.getUpstreamTaskID t
  have hproceed := fun r save settle refund => @pollTask_proceed t env.serverAddress visit.now r
    save settle refund visit.fetch t.getUpstreamTaskID
  generalize pollTask env.serverAddress visit.now visit.fetch t.getUpstreamTaskID t = out
    at hfixed hproceed
  have hid := Task.id_of_fixed hfixed
  have hcall := Task.perCallBilling_of_fixed hfixed
  unfold finishVisit
  split
  · exact
      { polls := rfl
        task := ⟨_, rfl, hid, hcall, fun _ => Task.quota_of_fixed hfixed⟩
        rows := fun _ _ => rfl
        others := fun _ _ => rfl
        refunds := .inl rfl }
  · rename_i r save settle refund haction
    obtain ⟨⟨q, hq⟩, hper⟩ := billPoll_task visit.billing r
      ((save.perform visit.fault (updateWithStatus out.task t.status st.rows) st.rows).1 && settle)
      ((save.perform visit.fault (updateWithStatus out.task t.status st.rows) st.rows).1 && refund)
      out.task st.ledger
    exact
      { polls := rfl
        task := by
          refine ⟨_, rfl, ?_, ?_, ?_⟩
          · rw [hq]; exact hid
          · rw [hq]; exact hcall
          · intro ht
            rw [hper (by rw [hcall]; exact ht)]
            exact Task.quota_of_fixed hfixed
        rows := fun id hne => find?_perform_of_ne (by rw [hid]; exact hne) ..
        others := fun id hne =>
          billPoll_refundsOf_of_ne _ r _ _ (by rw [hid]; exact hne.symm) _
        refunds := billed_refundsOf (hproceed _ _ _ _ haction) _ _ _ }

/-! ### A round as a run -/

inductive VideoStep where
  | failChannel (channelId : Int) (taskIds : List String)
  | poll (channelId : Int) (taskId : String)

open VideoStep

def channelSteps (g : Int × List String) : List VideoStep :=
  match env.channelError g.1 with
  | some _ => [.failChannel g.1 g.2]
  | none => if env.adaptorFound then g.2.map (.poll g.1) else []

def VideoStep.perform (tasks : TaskTable) (st : PollState) : VideoStep → PollState
  | .failChannel channelId taskIds => failVideoTasks env tasks channelId taskIds st
  | .poll channelId taskId => updateVideoSingleTask env tasks channelId taskId st

def videoSteps (tasks : TaskTable) : List VideoStep :=
  (taskChannelM env.order tasks).flatMap (channelSteps env)

theorem updateVideoTasks_eq_run (tasks : TaskTable) (g : Int × List String)
    (st : PollState) : updateVideoTasks env tasks g.1 g.2 st =
      run (perform env tasks) st (channelSteps env g) := by
  unfold updateVideoTasks channelSteps
  cases env.channelError g.1 with
  | some err => rfl
  | none =>
    cases env.adaptorFound with
    | true => simp only [if_true, run, foldl_map]; rfl
    | false => rfl

theorem updateAllVideoTasks_eq_run (tasks : TaskTable) (st : PollState) :
    updateAllVideoTasks env tasks st = run (perform env tasks) st (videoSteps env tasks) := by
  simp [updateAllVideoTasks, updateVideoTasks_eq_run, videoSteps, run, foldl_flatMap]

def VideoStep.poll? (tasks : TaskTable) : VideoStep → Option Poll
  | .failChannel .. => none
  | .poll channelId taskId => (taskM tasks taskId).map fun t => ⟨channelId, t.id⟩

def PollState.Loaded (tasks : TaskTable) (st : PollState) : Prop :=
  ∀ t ∈ tasks, ∃ m, st.mem.find? t.id = some m

variable {st : PollState}

/-- **What a piece of work does** when the tasks are in memory: nothing in memory, or one poll. -/
theorem perform_cases (h : st.Loaded tasks) (step : VideoStep) :
    (step.poll? tasks = none ∧ (step.perform env tasks st).mem = st.mem ∧
        (step.perform env tasks st).ledger = st.ledger ∧
        (step.perform env tasks st).polls = st.polls) ∨
      ∃ c u s m, step = .poll c u ∧ taskM tasks u = some s ∧ st.mem.find? s.id = some m ∧
        step.perform env tasks st = visitTask env c m st := by
  cases step with
  | failChannel c ids =>
    left
    simp only [perform, failVideoTasks, failBulk]
    split <;> exact ⟨rfl, rfl, rfl, rfl⟩
  | poll c u =>
    cases htask : taskM tasks u with
    | none =>
      left
      simp [perform, poll?, updateVideoSingleTask, htask]
    | some s =>
      right
      obtain ⟨m, hm⟩ := h s (taskM_eq_some htask).1
      refine ⟨c, u, s, m, rfl, htask, hm, ?_⟩
      simp [perform, updateVideoSingleTask, htask, hm]

variable {c : Int} {m : Task} {st' : PollState}

theorem Visited.find?_mem (h : Visited c m st st') {t : Task} (ht : st.mem.find? id = some t) :
    ∃ t', st'.mem.find? id = some t' := by
  obtain ⟨m', hmem, hid, -⟩ := h.task
  rw [hmem]
  by_cases hne : id = m'.id
  · exact ⟨m', by rw [hne]; exact Table.find?_save rfl (hne ▸ ht)⟩
  · exact ⟨t, by rw [Table.find?_save_of_ne hne]; exact ht⟩

theorem loaded_perform (h : st.Loaded tasks) (step : VideoStep) :
    (step.perform env tasks st).Loaded tasks := by
  intro t ht
  obtain ⟨n, hn⟩ := h t ht
  rcases perform_cases env h step with ⟨-, hmem, -⟩ | ⟨c, u, s, m, -, -, -, hvisit⟩
  · exact ⟨n, by rw [hmem]; exact hn⟩
  · rw [hvisit]
    exact (visitTask_visited env c m st).find?_mem hn

theorem polls_run (h : st.Loaded tasks) (steps : List VideoStep) :
    (run (perform env tasks) st steps).polls =
      (steps.filterMap (poll? tasks)).reverse ++ st.polls := by
  induction steps generalizing st with
  | nil => rfl
  | cons step steps ih =>
    rw [run_cons, ih (loaded_perform env h step), filterMap_cons]
    rcases perform_cases env h step with ⟨hnone, -, -, hpolls⟩ | ⟨c, u, s, m, rfl, hs, hm, hvisit⟩
    · rw [hnone, hpolls]
    · have hpoll : poll? tasks (.poll c u) = some ⟨c, s.id⟩ := by
        rw [poll?, hs]
        rfl
      have hid : m.id = s.id := (Table.find?_eq_some.mp hm).2
      rw [hpoll, hvisit, (visitTask_visited env c m st).polls, hid, reverse_cons, append_assoc]
      rfl

theorem loaded_start (rows tasks : TaskTable) (ledger : Ledger) :
    (start rows tasks ledger).Loaded tasks := fun t ht => ⟨t, Table.find?_key ht⟩

theorem pollsOf_cons_self (h : Visited c m st st') : st'.pollsOf m.id = st.pollsOf m.id + 1 := by
  rw [pollsOf, h.polls, countP_cons_of_pos (by simp), pollsOf]

/-- **The row `id` is left alone**, in memory, in the table and in the books, and not polled. -/
structure PollState.SameAt (id : Int) (st st' : PollState) : Prop where
  mem : st'.mem.find? id = st.mem.find? id
  rows : st'.rows.find? id = st.rows.find? id
  refunds : st'.ledger.refundsOf id = st.ledger.refundsOf id
  polls : st'.pollsOf id = st.pollsOf id

theorem PollState.SameAt.trans {st'' : PollState} (h : st.SameAt id st') (h' : st'.SameAt id st'') :
    st.SameAt id st'' :=
  ⟨h'.mem.trans h.mem, h'.rows.trans h.rows, h'.refunds.trans h.refunds, h'.polls.trans h.polls⟩

theorem sameAt_failBulk (fault : Option String) {ids : List Int} (reason : String) (h : id ∉ ids) :
    st.SameAt id (st.failBulk fault ids reason) := by
  unfold failBulk
  split
  · exact ⟨rfl, rfl, rfl, rfl⟩
  · refine ⟨rfl, ?_, rfl, rfl⟩
    dsimp only
    rw [find?_taskBulkUpdateByID]
    simp [h]

theorem sameAt_run {α : Type} {step : PollState → α → PollState} {J : PollState → Prop}
    (hJ : ∀ st a, J st → J (step st a)) (hstep : ∀ st a, J st → st.SameAt id (step st a))
    (h0 : J st) (steps : List α) : st.SameAt id (run step st steps) := by
  refine (run_induction (I := fun st' => J st' ∧ st.SameAt id st') ?_ ⟨h0, rfl, rfl, rfl, rfl⟩
    steps).2
  rintro st' a ⟨hst', hsame⟩
  exact ⟨hJ st' a hst', hsame.trans (hstep st' a hst')⟩

theorem Visited.sameAt (h : Visited c m st st') (hne : id ≠ m.id) : st.SameAt id st' := by
  obtain ⟨m', hmem, hid, -⟩ := h.task
  refine ⟨?_, h.rows id hne, h.others id hne, ?_⟩
  · rw [hmem, Table.find?_save_of_ne (by rw [hid]; exact hne)]
  · rw [pollsOf, h.polls, countP_cons_of_neg (by simpa using hne.symm), pollsOf]

theorem perform_untouched (h : st.Loaded tasks) {step : VideoStep}
    (hfail : ∀ c ids, step = .failChannel c ids → id ∉ failedIDs tasks ids)
    (hpoll : ∀ c u s, step = .poll c u → taskM tasks u = some s → s.id ≠ id) :
    st.SameAt id (step.perform env tasks st) := by
  cases step with
  | failChannel c ids => exact sameAt_failBulk _ _ (hfail c ids rfl)
  | poll c u =>
    rcases perform_cases env h (.poll c u) with ⟨hnone, -⟩ | ⟨c', u', s, m, heq, hs, hm, hvisit⟩
    · have htask : taskM tasks u = none := by simpa [poll?] using hnone
      simp only [perform, updateVideoSingleTask, htask]
      exact ⟨rfl, rfl, rfl, rfl⟩
    · cases heq
      have hne : id ≠ m.id := by
        rw [(Table.find?_eq_some.mp hm).2]
        exact (hpoll c u s rfl hs).symm
      rw [hvisit]
      exact (visitTask_visited env c m st).sameAt hne

end NomoApi
