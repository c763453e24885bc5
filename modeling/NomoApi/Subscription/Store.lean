import NomoApi.Lib.Table
import NomoApi.Lib.Text
import NomoApi.Lib.Calendar
import NomoApi.Lib.Transaction
import Mathlib.Data.List.Sort

/-! # Subscription plans, subscriptions and pre-consume records

The tables behind subscription billing (`model/subscription.go`) and the functions on a single row.
Amounts and times have no bound; the 64-bit wrap-around is modelled where a duration is turned into
nanoseconds. -/

namespace NomoApi

structure SubscriptionPlan where
  id : Int
  title : String
  durationUnit : String
  durationValue : Int
  customSeconds : Int
  maxPurchasePerUser : Int
  /-- The group a buyer is moved to, empty for no change. -/
  upgradeGroup : String
  totalAmount : Int
  quotaResetPeriod : String
  quotaResetCustomSeconds : Int
  deriving DecidableEq

inductive SubscriptionStatus where
  | active
  | expired
  | cancelled
  deriving DecidableEq

structure UserSubscription where
  id : Int
  userId : Int
  planId : Int
  amountTotal : Int
  amountUsed : Int
  startTime : Int
  endTime : Int
  status : SubscriptionStatus
  source : String
  lastResetTime : Int
  nextResetTime : Int
  upgradeGroup : String
  prevUserGroup : String
  deriving DecidableEq

def UserSubscription.withUsed (sub : UserSubscription) (used : Int) : UserSubscription :=
  { sub with amountUsed := used }

@[simp] theorem UserSubscription.withUsed_id (sub : UserSubscription) (used : Int) :
    (sub.withUsed used).id = sub.id := rfl

@[simp] theorem UserSubscription.withUsed_amountUsed (sub : UserSubscription) (used : Int) :
    (sub.withUsed used).amountUsed = used := rfl

inductive RecordStatus where
  | consumed
  | refunded
  deriving DecidableEq

/-- The request id has a unique index. -/
structure SubscriptionPreConsumeRecord where
  requestId : String
  userId : Int
  userSubscriptionId : Int
  preConsumed : Int
  status : RecordStatus
  deriving DecidableEq

abbrev SubscriptionTable := Table UserSubscription UserSubscription.id

abbrev RecordTable := Table SubscriptionPreConsumeRecord SubscriptionPreConsumeRecord.requestId

@[ext] structure SubscriptionStore where
  subs : SubscriptionTable
  records : RecordTable

/-! ## Durations and reset times -/

def calcPlanEndTime (loc : Location) (start : Int) (plan : SubscriptionPlan) : Except Halt Int :=
  if plan.durationValue ≤ 0 ∧ plan.durationUnit ≠ "custom" then
    .error (.error "duration_value must be > 0")
  else if plan.durationUnit = "year" then .ok (loc.addDate start plan.durationValue 0 0)
  else if plan.durationUnit = "month" then .ok (loc.addDate start 0 plan.durationValue 0)
  else if plan.durationUnit = "day" then .ok (addSeconds start (plan.durationValue * 24 * 3600))
  else if plan.durationUnit = "hour" then .ok (addSeconds start (plan.durationValue * 3600))
  else if plan.durationUnit = "custom" then
    if plan.customSeconds ≤ 0 then .error (.error "custom_seconds must be > 0")
    else .ok (addSeconds start plan.customSeconds)
  else .error (.error ("invalid duration_unit: " ++ plan.durationUnit))

inductive ResetPeriod where
  | never
  | daily
  | weekly
  | monthly
  | custom
  deriving DecidableEq

/-- The default is no reset. -/
def normalizeResetPeriod (period : String) : ResetPeriod :=
  if trimSpace period = "daily" then .daily
  else if trimSpace period = "weekly" then .weekly
  else if trimSpace period = "monthly" then .monthly
  else if trimSpace period = "custom" then .custom
  else .never

/-- **The reset that follows `base`** (`calcNextResetTime`), `0` for none or one after the end of
the subscription. -/
def calcNextResetTime (loc : Location) (base : Int) (plan : SubscriptionPlan) (endUnix : Int) :
    Int :=
  let cut (next : Int) : Int := if endUnix > 0 ∧ next > endUnix then 0 else next
  match normalizeResetPeriod plan.quotaResetPeriod with
  | .never => 0
  | .daily => cut (loc.addDate (loc.midnight base) 0 0 1)
  | .weekly =>
    -- Sunday counts as the seventh day, so that the distance to Monday is between 1 and 7
    let weekday := if loc.weekday base = 0 then 7 else loc.weekday base
    cut (loc.addDate (loc.midnight base) 0 0 (8 - weekday))
  | .monthly => cut (loc.addDate (loc.monthStart base) 0 1 0)
  | .custom =>
    if plan.quotaResetCustomSeconds ≤ 0 then 0
    else cut (addSeconds base plan.quotaResetCustomSeconds)

/-! ## The periodic reset -/

/-- The time zone, a bound on the rounds after which a loop counts as endless, and the plan lookup
(`getSubscriptionPlanByIdTx`). -/
structure SubscriptionEnv where
  loc : Location
  fuel : Nat
  getPlan : Int → Except Halt SubscriptionPlan

/-- **The catch-up loop**: while the next reset is due, take it as the new base. Returns whether it
advanced, too. -/
def catchUp (loc : Location) (plan : SubscriptionPlan) (endTime now : Int) :
    Nat → Int → Int → Bool → Except Halt (Int × Int × Bool)
  -- a plan whose next reset never passes `now` keeps the source in this loop
  | 0, _, _, _ => .error .diverge
  | fuel + 1, base, next, advanced =>
    if next > 0 ∧ next ≤ now then
      catchUp loc plan endTime now fuel next (calcNextResetTime loc next plan endTime) true
    else .ok (base, next, advanced)

inductive ResetDecision where
  | keep
  | schedule (base next : Int)
  | reset (base next : Int)
  deriving DecidableEq

/-- The decision part of **`maybeResetUserSubscriptionWithPlanTx`**. -/
def resetDecision (env : SubscriptionEnv) (sub : UserSubscription) (plan : SubscriptionPlan)
    (now : Int) : Except Halt ResetDecision :=
  -- a stored reset time is trusted until it has come
  if sub.nextResetTime > 0 ∧ sub.nextResetTime > now then .ok .keep
  else if normalizeResetPeriod plan.quotaResetPeriod = .never then .ok .keep
  else
    let base := if sub.lastResetTime ≤ 0 then sub.startTime else sub.lastResetTime
    do
      let (base, next, advanced) ← catchUp env.loc plan sub.endTime now env.fuel base
        (calcNextResetTime env.loc base plan sub.endTime) false
      if advanced then return .reset base next
      -- a row created without reset times gets them now and keeps its used amount
      else if sub.nextResetTime = 0 ∧ next > 0 then return .schedule base next
      else return .keep

def ResetDecision.apply (d : ResetDecision) (sub : UserSubscription) : UserSubscription :=
  match d with
  | .keep => sub
  | .schedule base next => { sub with nextResetTime := next, lastResetTime := base }
  | .reset base next =>
    { sub with amountUsed := 0, lastResetTime := base, nextResetTime := next }

/-- The row and the table after the reset. `saveFault` is the outcome of `tx.Save`. -/
def maybeResetUserSubscriptionWithPlanTx (env : SubscriptionEnv) (saveFault : Option String)
    (sub : UserSubscription) (plan : SubscriptionPlan) (now : Int) (st : SubscriptionStore) :
    Except Halt (UserSubscription × SubscriptionStore) := do
  match ← resetDecision env sub plan now with
  | .keep => return (sub, st)
  | d =>
    attempt saveFault
    return (d.apply sub, { st with subs := st.subs.save (d.apply sub) })

@[simp] theorem ResetDecision.apply_id (d : ResetDecision) (sub : UserSubscription) :
    (d.apply sub).id = sub.id := by cases d <;> rfl

variable {env : SubscriptionEnv} {sub : UserSubscription} {plan : SubscriptionPlan} {now : Int}

theorem maybeReset_eq_ok {saveFault : Option String} {sub' : UserSubscription}
    {st st' : SubscriptionStore} (hsub : sub ∈ st.subs)
    (h : maybeResetUserSubscriptionWithPlanTx env saveFault sub plan now st = .ok (sub', st')) :
    ∃ d, resetDecision env sub plan now = .ok d ∧ sub' = d.apply sub ∧
      st' = { st with subs := st.subs.save (d.apply sub) } := by
  unfold maybeResetUserSubscriptionWithPlanTx at h
  obtain ⟨d, hd, h⟩ := bind_eq_ok.mp h
  refine ⟨d, hd, ?_⟩
  cases d with
  | keep =>
    cases h
    exact ⟨rfl, by rw [ResetDecision.apply, Table.save_of_mem hsub]⟩
  | schedule base next =>
    obtain ⟨_, -, h⟩ := bind_eq_ok.mp h
    cases h
    exact ⟨rfl, rfl⟩
  | reset base next =>
    obtain ⟨_, -, h⟩ := bind_eq_ok.mp h
    cases h
    exact ⟨rfl, rfl⟩

/-- A reset of the row is due at `now`: the plan's next reset time has come. -/
def ResetDue (env : SubscriptionEnv) (now : Int) (sub : UserSubscription) : Prop :=
  let base := if sub.lastResetTime ≤ 0 then sub.startTime else sub.lastResetTime
  ∃ plan, env.getPlan sub.planId = .ok plan ∧
    0 < calcNextResetTime env.loc base plan sub.endTime ∧
    calcNextResetTime env.loc base plan sub.endTime ≤ now

theorem catchUp_advanced {loc : Location} {endTime base next : Int} {fuel : Nat} {base' next' : Int}
    (h : catchUp loc plan endTime now fuel base next false = .ok (base', next', true)) :
    0 < next ∧ next ≤ now := by
  cases fuel with
  | zero => cases h
  | succ fuel =>
    by_contra hdue
    rw [catchUp, if_neg hdue] at h
    cases h

theorem resetDecision_reset_due {base next : Int}
    (h : resetDecision env sub plan now = .ok (.reset base next)) :
    let base := if sub.lastResetTime ≤ 0 then sub.startTime else sub.lastResetTime
    0 < calcNextResetTime env.loc base plan sub.endTime ∧
      calcNextResetTime env.loc base plan sub.endTime ≤ now := by
  unfold resetDecision at h
  split at h
  · cases h
  · split at h
    · cases h
    · obtain ⟨⟨base', next', advanced⟩, hloop, h⟩ := bind_eq_ok.mp h
      cases advanced with
      | true => exact catchUp_advanced hloop
      | false =>
        dsimp only at h
        rw [if_neg Bool.false_ne_true] at h
        split at h <;> cases h

def dueReset (env : SubscriptionEnv) (now : Int) (sub : UserSubscription) : UserSubscription :=
  match (do resetDecision env sub (← env.getPlan sub.planId) now) with
  | .ok d => d.apply sub
  | .error _ => sub

theorem dueReset_eq {d : ResetDecision} (hplan : env.getPlan sub.planId = .ok plan)
    (hd : resetDecision env sub plan now = .ok d) : dueReset env now sub = d.apply sub := by
  have hbind : (do resetDecision env sub (← env.getPlan sub.planId) now) = .ok d :=
    bind_eq_ok.mpr ⟨plan, hplan, hd⟩
  rw [dueReset, hbind]

section

variable (env : SubscriptionEnv) (now : Int) (sub : UserSubscription)

@[simp] theorem dueReset_id : (dueReset env now sub).id = sub.id := by
  unfold dueReset
  split
  · rw [ResetDecision.apply_id]
  · rfl

@[simp] theorem dueReset_userId : (dueReset env now sub).userId = sub.userId := by
  unfold dueReset
  split
  · rename_i d _
    cases d <;> rfl
  · rfl

theorem dueReset_amountUsed : (dueReset env now sub).amountUsed = sub.amountUsed ∨
      (dueReset env now sub).amountUsed = 0 ∧ ResetDue env now sub := by
  unfold dueReset
  split
  · rename_i d hbind
    obtain ⟨plan, hplan, hd⟩ := bind_eq_ok.mp hbind
    cases d with
    | keep => exact .inl rfl
    | schedule base next => exact .inl rfl
    | reset base next => exact .inr ⟨rfl, plan, hplan, resetDecision_reset_due hd⟩
  · exact .inl rfl

end

end NomoApi
