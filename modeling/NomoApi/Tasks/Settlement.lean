import NomoApi.Tasks.Video

/-! # The quota of a task that succeeded

When a poll finds that a task has succeeded, `updateVideoSingleTask` writes the row and then settles
the task; the new quota is set in memory only. -/

namespace NomoApi

open List

/-! ### The books -/

/-- **What was charged for a row**, less what was returned. -/
def Ledger.net (ledger : Ledger) (id : Int) : Int :=
  (((ledger.refunds ++ ledger.settlements).filter fun a => a.row = id).map Adjustment.delta).sum

theorem net_settlement (ledger : Ledger) (a : Adjustment) :
    Ledger.net { ledger with settlements := a :: ledger.settlements } a.row =
      ledger.net a.row + a.delta := by
  have hcons : (a :: ledger.settlements).filter (fun b => b.row = a.row) =
      a :: ledger.settlements.filter fun b => b.row = a.row :=
    filter_cons_of_pos (by simp)
  rw [Ledger.net, Ledger.net, filter_append, filter_append, hcons, map_append,
    map_append, map_cons, sum_append, sum_append, sum_cons]
  dsimp only
  omega

variable (env : BillingEnv) (t : Task)

/-- **The price that a settlement asks for**: that of the adaptor, or else of the tokens. -/
def settledQuota (r : TaskInfo) : Option Int :=
  if t.perCallBilling then none
  else if env.adjustBillingOnComplete t r > 0 then some (env.adjustBillingOnComplete t r)
  else if r.totalTokens > 0 then env.quotaByTokens t r.totalTokens
  else none

theorem settleTaskBillingOnComplete_eq (r : TaskInfo)
    (ledger : Ledger) : settleTaskBillingOnComplete env t r ledger =
      match settledQuota env t r with
      | some q => recalculateTaskQuota env t q ledger
      | none => (t, ledger) := by
  rw [settleTaskBillingOnComplete, settledQuota]
  split
  · rfl
  · split
    · rfl
    · split
      · cases env.quotaByTokens t r.totalTokens <;> rfl
      · rfl

theorem net_recalculate {env : BillingEnv} (hfunding : env.fundingFault = none) (t : Task)
    (q : Int) (ledger : Ledger) : (recalculateTaskQuota env t q ledger).2.net t.id =
      ledger.net t.id + if 0 < q then q - t.quota else 0 := by
  rw [recalculateTaskQuota, hfunding]
  split
  · rename_i hq
    rw [if_neg (not_lt.mpr hq), add_zero]
  · rename_i hq
    rw [if_pos (not_le.mp hq)]
    by_cases hsame : q - t.quota = 0
    · rw [if_pos hsame, hsame, add_zero]
    · rw [if_neg hsame]
      exact net_settlement ledger (adjustment env t (q - t.quota))

theorem net_settle {env : BillingEnv} (hfunding : env.fundingFault = none) (t : Task)
    (r : TaskInfo) (ledger : Ledger) : (settleTaskBillingOnComplete env t r ledger).2.net t.id =
      ledger.net t.id + match settledQuota env t r with
        | some q => if 0 < q then q - t.quota else 0
        | none => 0 := by
  rw [settleTaskBillingOnComplete_eq]
  cases settledQuota env t r with
  | none => exact (add_zero _).symm
  | some q => exact net_recalculate hfunding t q ledger

/-! ### The row -/

/-- **Nothing is left to settle**: billed per call, or no price other than the quota. -/
def NothingToSettle (r : TaskInfo) : Prop :=
  t.perCallBilling = true ∨
    if env.adjustBillingOnComplete t r > 0 then env.adjustBillingOnComplete t r = t.quota
    else r.totalTokens > 0 →
      ∀ q, env.quotaByTokens t r.totalTokens = some q → 0 < q → q = t.quota

theorem nothingToSettle_iff (r : TaskInfo) : NothingToSettle env t r ↔
      ∀ q, settledQuota env t r = some q → 0 < q → q = t.quota := by
  rw [NothingToSettle, settledQuota]
  by_cases hcall : t.perCallBilling = true
  · rw [if_pos hcall]
    exact iff_of_true (Or.inl hcall) fun q hq => by cases hq
  · rw [if_neg hcall, or_iff_right hcall]
    by_cases hadjust : env.adjustBillingOnComplete t r > 0
    · rw [if_pos hadjust, if_pos hadjust]
      constructor
      · intro h q hq _
        cases hq
        exact h
      · exact fun h => h _ rfl hadjust
    · rw [if_neg hadjust, if_neg hadjust]
      by_cases htokens : r.totalTokens > 0
      · rw [if_pos htokens]
        exact ⟨fun h => h htokens, fun h _ => h⟩
      · rw [if_neg htokens]
        exact iff_of_true (fun h => absurd h htokens) fun q hq => by cases hq

/-- **The poll of a task that succeeded**: the row is written, and then the task is settled. -/
theorem visitTask_succeeded {env : VideoEnv} {channelId : Int} {t row : Task} {st : PollState}
    {body : VideoResponse} {r : TaskInfo}
    (hfetch : (env.visit t.id (st.pollsOf t.id)).fetch = .response body)
    (hresult : body.taskResult = .ok r) (hsuccess : r.status = .success)
    (hbefore : t.status ≠ .success)
    (hrow : st.rows.find? t.id = some row) (hstatus : row.status = t.status)
    (hfault : (env.visit t.id (st.pollsOf t.id)).fault = none) :
    ∃ after : Task, after.fixed = t.fixed ∧ after.status = .success ∧
      (pollTask env.serverAddress (env.visit t.id (st.pollsOf t.id)).now (.response body)
        t.getUpstreamTaskID t).task = after ∧
      (visitTask env channelId t st).rows = st.rows.save after ∧
      (visitTask env channelId t st).ledger =
        (settleTaskBillingOnComplete (env.visit t.id (st.pollsOf t.id)).billing after r
          st.ledger).2 := by
  obtain ⟨after, happly⟩ : ∃ after, applyTaskResult env.serverAddress
      (env.visit t.id (st.pollsOf t.id)).now r { t with data := body.redacted } = some after := by
    rw [applyTaskResult, hsuccess]
    exact ⟨_, rfl⟩
  obtain ⟨hfixed, hafter⟩ := applyTaskResult_spec happly
  have hdone : after.status = .success := hafter.trans hsuccess
  have hempty : resolveEmptyStatus body r = some r := by
    rw [resolveEmptyStatus, hsuccess]
    rfl
  have hsave : saveKind t after = .finish := by
    rw [saveKind, hdone]
    exact if_pos ⟨rfl, hbefore⟩
  have hpoll : pollTask env.serverAddress (env.visit t.id (st.pollsOf t.id)).now (.response body)
      t.getUpstreamTaskID t = ⟨after, .proceed r .finish true false⟩ := by
    simp only [pollTask, hresult, hempty, pollResult, happly, hsave, hdone]
    rfl
  -- the status in the row is the one the task had in memory, so that the write wins
  have hwon : updateWithStatus after t.status st.rows = (true, st.rows.save after) := by
    have hid : after.id = t.id := Task.id_of_fixed hfixed
    rw [← hstatus]
    exact updateWithStatus_won (hid ▸ hrow)
  refine ⟨after, hfixed, hdone, by rw [hpoll], ?_, ?_⟩
  · rw [visitTask, hfetch, hpoll, finishVisit, hfault, hwon]
    rfl
  · rw [visitTask, hfetch, hpoll, finishVisit, hfault, hwon]
    rfl

/-- **Which rows show what was charged**, for a task that is found to have succeeded, all statements
in order: iff nothing was left to settle. -/
theorem succeeded_quota_iff {env : VideoEnv} {tasks : TaskTable} {channelId : Int}
    {taskId : String} {st : PollState} {s t row : Task} {body : VideoResponse} {r : TaskInfo}
    (hs : taskM tasks taskId = some s) (ht : st.mem.find? s.id = some t)
    (hfetch : (env.visit t.id (st.pollsOf t.id)).fetch = .response body)
    (hresult : body.taskResult = .ok r) (hsuccess : r.status = .success)
    (hbefore : t.status ≠ .success)
    (hrow : st.rows.find? t.id = some row) (hstatus : row.status = t.status)
    (hquota : row.quota = t.quota) (hfault : (env.visit t.id (st.pollsOf t.id)).fault = none)
    (hfunding : (env.visit t.id (st.pollsOf t.id)).billing.fundingFault = none)
    {charged : Int} (hcharged : charged + st.ledger.net t.id = row.quota) :
    ∃ row', (updateVideoSingleTask env tasks channelId taskId st).rows.find? t.id = some row' ∧
      row'.status = .success ∧ (row'.quota =
          charged + (updateVideoSingleTask env tasks channelId taskId st).ledger.net t.id ↔
        NothingToSettle (env.visit t.id (st.pollsOf t.id)).billing
          (pollTask env.serverAddress (env.visit t.id (st.pollsOf t.id)).now (.response body)
            t.getUpstreamTaskID t).task r) := by
  have hvisit : updateVideoSingleTask env tasks channelId taskId st =
      visitTask env channelId t st := by
    rw [updateVideoSingleTask, hs, Option.bind_some, ht]
  obtain ⟨after, hfixed, hdone, hpolled, hrows, hledger⟩ :=
    @visitTask_succeeded env channelId t row st body r hfetch hresult hsuccess hbefore hrow hstatus
      hfault
  have hid : after.id = t.id := Task.id_of_fixed hfixed
  have hafter : after.quota = t.quota := Task.quota_of_fixed hfixed
  have hnet := net_settle hfunding after r st.ledger
  rw [hid] at hnet
  rw [hvisit, hrows, hledger, hpolled]
  refine ⟨after, Table.find?_save hid hrow, hdone, ?_⟩
  rw [nothingToSettle_iff, hnet, hafter]
  cases settledQuota (env.visit t.id (st.pollsOf t.id)).billing after r with
  | none =>
    refine iff_of_true ?_ fun q hq => by cases hq
    dsimp only
    omega
  | some q =>
    dsimp only
    by_cases hpos : 0 < q
    · rw [if_pos hpos]
      constructor
      · intro h q' hq' _
        cases hq'
        omega
      · intro h
        have := h q rfl hpos
        omega
    · rw [if_neg hpos]
      refine iff_of_true (by omega) fun q' hq' hpos' => ?_
      cases hq'
      exact absurd hpos' hpos

/-! ### A task that costs more than was charged for it -/

def queuedTask : Task where
  id := 1
  taskID := "task_1"
  platform := "sora"
  userId := 1
  group := "default"
  channelId := 1
  quota := 100
  action := "generate"
  status := .queued
  failReason := ""
  submitTime := 1800000000
  startTime := 0
  finishTime := 0
  progress := "20%"
  originModelName := "sora-2"
  privateData :=
    { key := "", upstreamTaskID := "video_1", resultURL := "", billingSource := "wallet"
      subscriptionId := 0, tokenId := 0, billingContext := none }
  data := []

def succeededBody : VideoResponse where
  newApi := none
  parseTaskResult := .ok ⟨.success, "", "result.mp4", "100%", 0⟩
  errorBody := .unparsable
  redacted := []

def pricingEnv (price : Int) : VideoEnv where
  serverAddress := ""
  order := .given Int
  channelError _ := none
  adaptorFound := true
  bulkFault _ := none
  visit _ _ :=
    { fetch := .response succeededBody
      now := 1800000100
      fault := none
      billing :=
        { fundingFault := none
          resolveTokenKey := fun _ => ""
          adjustBillingOnComplete := fun _ _ => price
          quotaByTokens := fun _ _ => none } }

def queuedRound : PollState :=
  .start (Table.singleton queuedTask) (Table.singleton queuedTask) ⟨[], []⟩

/-- A task whose price is its quota. -/
theorem priced_as_charged :
    ∃ row, (updateVideoSingleTask (pricingEnv 100) (Table.singleton queuedTask) 1 "video_1"
        queuedRound).rows.find? 1 = some row ∧ row.status = .success ∧
      (row.quota = 100 + (updateVideoSingleTask (pricingEnv 100) (Table.singleton queuedTask) 1
          "video_1" queuedRound).ledger.net 1 ↔ NothingToSettle ((pricingEnv 100).visit 1 0).billing
          (pollTask "" 1800000100 (.response succeededBody) "video_1" queuedTask).task
          ⟨.success, "", "result.mp4", "100%", 0⟩) :=
  @succeeded_quota_iff (pricingEnv 100) (Table.singleton queuedTask) 1 "video_1" queuedRound
    queuedTask queuedTask queuedTask succeededBody ⟨.success, "", "result.mp4", "100%", 0⟩
    rfl rfl rfl rfl rfl (by decide) rfl rfl rfl rfl rfl 100 rfl

/-- **The row keeps the old quota**: 200 more are charged, and the row still says 100. -/
theorem row_keeps_quota :
    ((updateVideoSingleTask (pricingEnv 300) (Table.singleton queuedTask) 1 "video_1"
        queuedRound).rows.find? 1).map (fun row => (row.status, row.quota)) = some (.success, 100) ∧
      100 + (updateVideoSingleTask (pricingEnv 300) (Table.singleton queuedTask) 1 "video_1"
        queuedRound).ledger.net 1 = 300 := by
  decide +kernel

end NomoApi
