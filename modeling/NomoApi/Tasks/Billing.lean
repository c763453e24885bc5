import NomoApi.Tasks.Task

/-! # Billing of asynchronous tasks

When a task ends, `RefundTaskQuota` returns the quota of a failed one, `RecalculateTaskQuota`
settles the difference to the actual quota (`service/task_billing.go`). The books are the
adjustments that the funding source accepted; whether it does is part of the environment. -/

namespace NomoApi

structure TaskInfo where
  status : TaskStatus
  reason : String
  url : String
  progress : String
  totalTokens : Int
deriving DecidableEq

def failTaskInfo (reason : String) : TaskInfo := ⟨.failure, reason, "", "", 0⟩

inductive TaskFunding where
  | wallet (userId : Int)
  | subscription (id : Int)
deriving DecidableEq

def taskIsSubscription (t : Task) : Bool :=
  t.privateData.billingSource = "subscription" ∧ t.privateData.subscriptionId > 0

/-- The funding source that `taskAdjustFunding` moves. -/
def taskFunding (t : Task) : TaskFunding :=
  if taskIsSubscription t then .subscription t.privateData.subscriptionId else .wallet t.userId

/-- One adjustment: `delta > 0` is a charge, `delta < 0` a return. -/
structure Adjustment where
  row : Int
  source : TaskFunding
  delta : Int
  token : Option Int
deriving DecidableEq

/-- The adjustments by `RefundTaskQuota` and by `RecalculateTaskQuota`. -/
structure Ledger where
  refunds : List Adjustment
  settlements : List Adjustment
deriving DecidableEq

structure BillingEnv where
  fundingFault : Option String
  /-- `resolveTokenKey`: empty when the token is gone. -/
  resolveTokenKey : Int → String
  /-- `AdjustBillingOnComplete` of the platform's adaptor. -/
  adjustBillingOnComplete : Task → TaskInfo → Int
  /-- What `RecalculateTaskQuotaByTokens` computes; `none` where it gives up. -/
  quotaByTokens : Task → Int → Option Int

variable (env : BillingEnv) (t : Task)

def taskAdjustTokenQuota (delta : Int) : Option Int :=
  if t.privateData.tokenId ≤ 0 ∨ delta = 0 then none
  else if env.resolveTokenKey t.privateData.tokenId = "" then none
  else some t.privateData.tokenId

def adjustment (delta : Int) : Adjustment :=
  ⟨t.id, taskFunding t, delta, taskAdjustTokenQuota env t delta⟩

def refundTaskQuota (ledger : Ledger) : Ledger :=
  -- a failing adjustment is logged, and nobody tries again
  if t.quota = 0 then ledger
  else match env.fundingFault with
    | some _ => ledger
    | none => { ledger with refunds := adjustment env t (-t.quota) :: ledger.refunds }

/-- The new quota stays in memory. -/
def recalculateTaskQuota (actualQuota : Int) (ledger : Ledger) : Task × Ledger :=
  -- a price that is not positive leaves the pre-charge as the price
  if actualQuota ≤ 0 then (t, ledger)
  else if actualQuota - t.quota = 0 then (t, ledger)
  else match env.fundingFault with
    | some _ => (t, ledger)
    | none =>
      ({ t with quota := actualQuota },
        { ledger with
          settlements := adjustment env t (actualQuota - t.quota) :: ledger.settlements })

/-- **Billed per call**: settling on completion is skipped. -/
def Task.perCallBilling : Bool :=
  match t.privateData.billingContext with
  | some bc => bc.perCallBilling
  | none => false

def settleTaskBillingOnComplete (taskResult : TaskInfo) (ledger : Ledger) : Task × Ledger :=
  if t.perCallBilling then (t, ledger)
  -- the adaptor's word comes first, then the tokens, then the pre-charge
  else if env.adjustBillingOnComplete t taskResult > 0 then
    recalculateTaskQuota env t (env.adjustBillingOnComplete t taskResult) ledger
  else if taskResult.totalTokens > 0 then
    match env.quotaByTokens t taskResult.totalTokens with
    | some actualQuota => recalculateTaskQuota env t actualQuota ledger
    | none => (t, ledger)
  else (t, ledger)

/-! ### What the calls leave alone -/

/-- **The refunds made for a row.** -/
def Ledger.refundsOf (ledger : Ledger) (id : Int) : List Adjustment :=
  ledger.refunds.filter fun a => a.row = id

theorem refundsOf_refundTaskQuota_of_ne {t : Task} {id : Int} (h : t.id ≠ id)
    (ledger : Ledger) : (refundTaskQuota env t ledger).refundsOf id = ledger.refundsOf id := by
  unfold refundTaskQuota
  split
  · rfl
  · split
    · rfl
    · simp [Ledger.refundsOf, adjustment, h]

theorem refundsOf_refundTaskQuota (ledger : Ledger) :
    (refundTaskQuota env t ledger).refundsOf t.id = if t.quota ≠ 0 ∧ env.fundingFault = none then
        adjustment env t (-t.quota) :: ledger.refundsOf t.id else ledger.refundsOf t.id := by
  unfold refundTaskQuota
  by_cases hq : t.quota = 0
  · simp [hq]
  · cases hf : env.fundingFault with
    | some e => simp [hq]
    | none => simp [hq, Ledger.refundsOf, adjustment]

/-- **What settling may do to the task**: nothing, or set the quota in memory. -/
theorem settleTaskBillingOnComplete_spec (r : TaskInfo) (ledger : Ledger) :
    (∃ q, (settleTaskBillingOnComplete env t r ledger).1 = { t with quota := q }) ∧
      (settleTaskBillingOnComplete env t r ledger).2.refunds = ledger.refunds ∧
      (t.perCallBilling = true → (settleTaskBillingOnComplete env t r ledger).1 = t) := by
  have hsame : ∃ q, t = { t with quota := q } := ⟨t.quota, rfl⟩
  have hrecalc : ∀ q, (∃ q', (recalculateTaskQuota env t q ledger).1 = { t with quota := q' }) ∧
      (recalculateTaskQuota env t q ledger).2.refunds = ledger.refunds := by
    intro q
    unfold recalculateTaskQuota
    split
    · exact ⟨hsame, rfl⟩
    · split
      · exact ⟨hsame, rfl⟩
      · split
        · exact ⟨hsame, rfl⟩
        · exact ⟨⟨q, rfl⟩, rfl⟩
  unfold settleTaskBillingOnComplete
  split
  · exact ⟨hsame, rfl, fun _ => rfl⟩
  · rename_i hper
    have hno : t.perCallBilling = true → ∀ P : Prop, P := fun h => absurd h hper
    split
    · exact ⟨(hrecalc _).1, (hrecalc _).2, fun h => hno h _⟩
    · split
      · split
        · exact ⟨(hrecalc _).1, (hrecalc _).2, fun h => hno h _⟩
        · exact ⟨hsame, rfl, fun _ => rfl⟩
      · exact ⟨hsame, rfl, fun _ => rfl⟩

end NomoApi
