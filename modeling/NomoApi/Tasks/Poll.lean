import NomoApi.Tasks.Billing

/-! # Polling and timing out one task

`updateVideoSingleTask` of `service/task_polling.go` works out a new state of the row in memory
(`pollTask`), writes it guarded by the status the row had, and settles or refunds the task. A write
that *ends* the task must win before the task is billed; for any other write nobody looks at whether
it won. -/

namespace NomoApi

inductive ErrorBody where
  | unparsable
  | unrecognised
  | openaiError (code : String)
deriving DecidableEq

/-- **An upstream answer** that could be read, as the parsers read it. -/
structure VideoResponse where
  /-- The task in a successful response of another instance of this program. -/
  newApi : Option Task
  /-- As `ParseTaskResult` of the platform's adaptor reads it. -/
  parseTaskResult : Except String TaskInfo
  errorBody : ErrorBody
  /-- `redactVideoResponseBody` of the body. -/
  redacted : List UInt8

inductive FetchResult where
  | fetchFailed (err : String)
  | readFailed (err : String)
  | response (body : VideoResponse)

inductive SaveKind where
  /-- The write ends the task, and billing waits for it to win. -/
  | finish
  | refresh
  | skip
deriving DecidableEq

inductive PollAction where
  | stop (err : Option String)
  | proceed (taskResult : TaskInfo) (save : SaveKind) (shouldSettle shouldRefund : Bool)

structure PollOutcome where
  task : Task
  action : PollAction

/-- **The task information of a response**: the format of this program first, then the adaptor's. -/
def VideoResponse.taskResult (body : VideoResponse) : Except String TaskInfo :=
  match body.newApi with
  | some t => .ok ⟨t.status, t.failReason, t.getResultURL, t.progress, 0⟩
  | none => body.parseTaskResult

/-- **An empty status** is looked at as an error message; `none` is rate limiting. -/
def resolveEmptyStatus (body : VideoResponse) (r : TaskInfo) : Option TaskInfo :=
  if r.status = ⟨""⟩ then
    match body.errorBody with
    | .unparsable => some r
    | .unrecognised => some (failTaskInfo "upstream returned unrecognized message")
    | .openaiError code =>
      -- rate limiting is no failure of the task
      if code = "429" then none else some (failTaskInfo "upstream returned error")
  else some r

def buildProxyURL (serverAddress taskID : String) : String :=
  serverAddress ++ "/v1/videos/" ++ taskID ++ "/content"

def resultURLOf (serverAddress taskID url : String) : String :=
  if url.startsWith "data:" then buildProxyURL serverAddress taskID
  else if url ≠ "" then url
  else buildProxyURL serverAddress taskID

def progressOr (default : String) (r : TaskInfo) : String :=
  if r.progress ≠ "" then r.progress else default

/-- **The new state for a known status**: the `switch` of `updateVideoSingleTask`. -/
def applyTaskResult (serverAddress : String) (now : Int) (r : TaskInfo) (t : Task) : Option Task :=
  if r.status = .submitted then
    some { t with status := r.status, progress := progressOr progressSubmitted r }
  else if r.status = .queued then
    some { t with status := r.status, progress := progressOr progressQueued r }
  else if r.status = .inProgress then
    some { t with
      status := r.status, progress := progressOr progressInProgress r
      startTime := if t.startTime = 0 then now else t.startTime }
  else if r.status = .success then
    some { t with
      status := r.status, progress := progressOr progressComplete r
      finishTime := if t.finishTime = 0 then now else t.finishTime
      privateData := { t.privateData with
        resultURL := resultURLOf serverAddress t.taskID r.url } }
  else if r.status = .failure then
    -- A failed task is complete whatever progress the upstream named.
    some { t with
      status := r.status, progress := progressComplete
      finishTime := if t.finishTime = 0 then now else t.finishTime
      failReason := r.reason }
  else none

/-- The write that takes the row from `before` to `after`. -/
def saveKind (before after : Task) : SaveKind :=
  if after.status.isDone ∧ before.status ≠ after.status then .finish
  else if before.snapshot ≠ after.snapshot then .refresh
  else .skip

/-- The poll of `t` with the upstream result `r`, after the body was stored in `read`. An unknown
status is left in memory. -/
def pollResult (serverAddress : String) (now : Int) (r : TaskInfo) (t read : Task) : PollOutcome :=
  match applyTaskResult serverAddress now r read with
  | none =>
    ⟨{ read with status := r.status },
      .stop (some s!"unknown task status {r.status.text} for task {t.taskID}")⟩
  | some after =>
    -- the source sets the flags under the same tests, the refund only for a task with a quota
    ⟨after, .proceed r (saveKind t after) (after.status = .success)
      (after.status = .failure ∧ t.quota ≠ 0)⟩

/-- **`updateVideoSingleTask` up to its write**: the task in memory and what is to be done. -/
def pollTask (serverAddress : String) (now : Int) (fetch : FetchResult) (taskId : String)
    (t : Task) : PollOutcome :=
  match fetch with
  | .fetchFailed err => ⟨t, .stop (some s!"fetchTask failed for task {taskId}: {err}")⟩
  | .readFailed err => ⟨t, .stop (some s!"readAll failed for task {taskId}: {err}")⟩
  | .response body =>
    match body.taskResult with
    | .error err => ⟨t, .stop (some s!"parseTaskResult failed for task {taskId}: {err}")⟩
    | .ok r =>
      match resolveEmptyStatus body r with
      | none => ⟨{ t with data := body.redacted }, .stop none⟩
      | some r => pollResult serverAddress now r t { t with data := body.redacted }

/-- **The write of a poll** and whether billing may go on; `update` is what `UpdateWithStatus` does
if it does not fail. -/
def SaveKind.perform {σ : Type} (save : SaveKind) (fault : Option String) (update : Bool × σ)
    (s : σ) : Bool × σ :=
  match save, fault with
  | .finish, none => update
  | .finish, some _ => (false, s)
  -- the result of the write is dropped, so a lost race does not stop the billing
  | .refresh, none => (true, update.2)
  | .refresh, some _ => (true, s)
  | .skip, _ => (true, s)

/-- **The billing of a poll**: settle, then refund. -/
def billPoll (env : BillingEnv) (r : TaskInfo) (shouldSettle shouldRefund : Bool) (t : Task)
    (ledger : Ledger) : Task × Ledger :=
  let out := if shouldSettle then settleTaskBillingOnComplete env t r ledger else (t, ledger)
  (out.1, if shouldRefund then refundTaskQuota env out.1 out.2 else out.2)

/-! ### Timing out -/

def legacyTaskCutoff : Int := 1740182400

/-- The task belongs to the **old system**, which did its own refunds. -/
def Task.isLegacy (t : Task) : Bool := t.submitTime > 0 ∧ t.submitTime < legacyTaskCutoff

/-- **The row of a timed-out task.** -/
def timeOutTask (taskTimeoutMinutes now : Int) (t : Task) : Task :=
  { t with
    status := .failure, progress := "100%", finishTime := now
    failReason :=
      if t.isLegacy then "任务超时（旧系统遗留任务，不进行退款，请联系管理员）"
      else s!"任务超时（{taskTimeoutMinutes}分钟）" }

def refundsTimeOut (t : Task) : Bool := !t.isLegacy ∧ t.quota ≠ 0

/-! ### What a poll leaves alone -/

/-- The task with the columns that a poll may write blanked out. -/
def Task.fixed (t : Task) : Task :=
  { t with
    status := ⟨""⟩, failReason := "", startTime := 0, finishTime := 0, progress := "", data := []
    privateData := { t.privateData with resultURL := "" } }

variable {t t' : Task}

section

variable (h : t.fixed = t'.fixed)

include h

theorem Task.id_of_fixed : t.id = t'.id := by
  have hid : t.fixed.id = t'.fixed.id := by rw [h]
  exact hid

theorem Task.quota_of_fixed : t.quota = t'.quota := by
  have hquota : t.fixed.quota = t'.fixed.quota := by rw [h]
  exact hquota

theorem Task.perCallBilling_of_fixed : t.perCallBilling = t'.perCallBilling := by
  have hper : t.fixed.perCallBilling = t'.fixed.perCallBilling := by rw [h]
  exact hper

theorem Task.submitTime_of_fixed : t.submitTime = t'.submitTime := by
  have htime : t.fixed.submitTime = t'.fixed.submitTime := by rw [h]
  exact htime

theorem Task.taskFunding_of_fixed : taskFunding t = taskFunding t' := by
  have hfunding : taskFunding t.fixed = taskFunding t'.fixed := by rw [h]
  exact hfunding

end

variable {serverAddress : String} {now : Int} {r : TaskInfo} {after : Task}

/-- **Applying an upstream result** gives the row its status and keeps the fixed columns. -/
theorem applyTaskResult_spec (h : applyTaskResult serverAddress now r t = some after) :
    after.fixed = t.fixed ∧ after.status = r.status := by
  unfold applyTaskResult at h
  repeat' split at h
  all_goals cases h
  all_goals exact ⟨rfl, rfl⟩

/-- **What a poll that goes on to write has decided.** -/
structure Polled (t after : Task) (r : TaskInfo) (save : SaveKind) (settle refund : Bool) :
    Prop where
  fixed : after.fixed = t.fixed
  status : after.status = r.status
  save : save = saveKind t after
  settle : settle = decide (after.status = .success)
  refund : refund = decide (after.status = .failure ∧ t.quota ≠ 0)

theorem pollResult_fixed (serverAddress : String) (now : Int) (r : TaskInfo) {read : Task}
    (hread : read.fixed = t.fixed) :
    (pollResult serverAddress now r t read).task.fixed = t.fixed := by
  unfold pollResult
  split
  · exact hread
  · rename_i happly
    exact (applyTaskResult_spec happly).1.trans hread

theorem pollTask_fixed (serverAddress : String) (now : Int) (fetch : FetchResult) (taskId : String)
    (t : Task) : (pollTask serverAddress now fetch taskId t).task.fixed = t.fixed := by
  unfold pollTask
  split
  · rfl
  · rfl
  · split
    · rfl
    · split
      · rfl
      · exact pollResult_fixed serverAddress now _ rfl

variable {save : SaveKind} {settle refund : Bool}

theorem pollResult_proceed {r' : TaskInfo} {read : Task} (hread : read.fixed = t.fixed)
    (h : (pollResult serverAddress now r t read).action = .proceed r' save settle refund) :
    Polled t (pollResult serverAddress now r t read).task r' save settle refund := by
  unfold pollResult at h ⊢
  split at h
  · cases h
  · rename_i after happly
    cases h
    obtain ⟨hfixed, hstatus⟩ := applyTaskResult_spec happly
    exact ⟨hfixed.trans hread, hstatus, rfl, rfl, rfl⟩

theorem pollTask_proceed {fetch : FetchResult} {taskId : String}
    (h : (pollTask serverAddress now fetch taskId t).action = .proceed r save settle refund) :
    Polled t (pollTask serverAddress now fetch taskId t).task r save settle refund := by
  unfold pollTask at h ⊢
  split at h
  · cases h
  · cases h
  · split at h
    · cases h
    · split at h
      · cases h
      · exact pollResult_proceed rfl h

theorem isDone_of_finish (h : saveKind t after = .finish) : after.status.isDone = true := by
  unfold saveKind at h
  split at h
  · rename_i hdone
    exact hdone.1
  · split at h <;> cases h

theorem isDone_of_ne_finish (ht : t.Unfinished) (h : saveKind t after ≠ .finish) :
    after.status.isDone = false := by
  by_contra hdone
  refine h (if_pos ⟨by simpa using hdone, fun heq => hdone ?_⟩)
  rw [← heq]
  exact ht.isDone

theorem not_owes_of_ne_finish (ht : t.Unfinished) (h : Polled t after r save settle refund)
    (hsave : save ≠ .finish) : (settle || refund) = false := by
  have hdone : after.status.isDone = false :=
    isDone_of_ne_finish ht (by rw [← h.save]; exact hsave)
  obtain ⟨hsuccess, hfailure⟩ := TaskStatus.isDone_eq_false.mp hdone
  rw [h.settle, h.refund]
  simp [hsuccess, hfailure]

theorem isDone_of_owes (h : Polled t after r save settle refund)
    (howes : (settle || refund) = true) : after.status.isDone = true := by
  rw [h.settle, h.refund] at howes
  rcases Bool.or_eq_true_iff.mp howes with hs | hf
  · rw [of_decide_eq_true hs]
    rfl
  · rw [(of_decide_eq_true hf).1]
    rfl

/-! ### What billing a poll does -/

section

variable (env : BillingEnv) (r : TaskInfo)

/-- **Billing changes at most the quota in memory**, and not that of a task billed per call. -/
theorem billPoll_task (settle refund : Bool) (t : Task) (ledger : Ledger) :
    (∃ q, (billPoll env r settle refund t ledger).1 = { t with quota := q }) ∧
      (t.perCallBilling = true → (billPoll env r settle refund t ledger).1 = t) := by
  obtain ⟨hquota, -, hper⟩ := settleTaskBillingOnComplete_spec env t r ledger
  cases settle with
  | false => exact ⟨⟨t.quota, rfl⟩, fun _ => rfl⟩
  | true => exact ⟨hquota, hper⟩

theorem billPoll_refunds_of_not (settle : Bool) (t : Task) (ledger : Ledger) :
    (billPoll env r settle false t ledger).2.refunds = ledger.refunds := by
  cases settle with
  | false => rfl
  | true => exact (settleTaskBillingOnComplete_spec env t r ledger).2.1

theorem billPoll_refundsOf_of_ne (settle refund : Bool) {id : Int} (h : t.id ≠ id)
    (ledger : Ledger) :
    (billPoll env r settle refund t ledger).2.refundsOf id = ledger.refundsOf id := by
  have hsettled := billPoll_refunds_of_not env r settle t ledger
  cases refund with
  | false => rw [Ledger.refundsOf, hsettled, Ledger.refundsOf]
  | true =>
    obtain ⟨q, hq⟩ := (billPoll_task env r settle true t ledger).1
    have hid : (billPoll env r settle true t ledger).1.id ≠ id := by rw [hq]; exact h
    have hrefund := refundsOf_refundTaskQuota_of_ne env hid (billPoll env r settle false t ledger).2
    rw [show (billPoll env r settle true t ledger).2 =
      refundTaskQuota env (billPoll env r settle true t ledger).1
        (billPoll env r settle false t ledger).2 from rfl, hrefund,
      Ledger.refundsOf, hsettled, Ledger.refundsOf]

end

end NomoApi
