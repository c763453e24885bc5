import NomoApi.Lib.CivilDates
import NomoApi.Subscription.Store
import Mathlib.Algebra.Order.Ring.Unbundled.Rat

/-! # Reset times advance

The catch-up loop of `maybeResetUserSubscriptionWithPlanTx` ends if every reset time is later than
the one before. A custom period is turned into 64-bit nanoseconds, and the controllers
(`controller/subscription.go`) accept any positive number of seconds: one that wraps around to less
than a second leads back, or nowhere. -/

namespace NomoApi

open Location

/-! ### The controllers -/

/-- **`AdminUpsertSubscriptionPlanRequest`**: the plan, with the columns that only the controllers
look at. -/
structure PlanRequest extends SubscriptionPlan where
  priceAmount : ℚ
  currency : String
  deriving DecidableEq

def ResetPeriod.text : ResetPeriod → String
  | .never => "never"
  | .daily => "daily"
  | .weekly => "weekly"
  | .monthly => "monthly"
  | .custom => "custom"

theorem normalizeResetPeriod_text (p : ResetPeriod) : normalizeResetPeriod p.text = p := by
  cases p <;> decide +kernel

/-- **The checks and defaults of a plan**; `hasGroup` says whether a group has a ratio. -/
def checkPlan (hasGroup : String → Bool) (req : PlanRequest) : Except String PlanRequest :=
  if trimSpace req.title = "" then .error "套餐标题不能为空"
  else if req.priceAmount < 0 then .error "价格不能为负数"
  else if req.priceAmount > 9999 then .error "价格不能超过9999"
  else
    let durationUnit := if req.durationUnit = "" then "month" else req.durationUnit
    let durationValue :=
      if req.durationValue ≤ 0 ∧ durationUnit ≠ "custom" then 1 else req.durationValue
    let upgradeGroup := trimSpace req.upgradeGroup
    let period := normalizeResetPeriod req.quotaResetPeriod
    if req.maxPurchasePerUser < 0 then .error "购买上限不能为负数"
    else if req.totalAmount < 0 then .error "总额度不能为负数"
    else if upgradeGroup ≠ "" ∧ ¬ hasGroup upgradeGroup then .error "升级分组不存在"
    -- there is no upper bound
    else if period = .custom ∧ req.quotaResetCustomSeconds ≤ 0 then
      .error "自定义重置周期需大于0秒"
    else
      .ok { req with currency := "USD", durationUnit, durationValue, upgradeGroup,
                     quotaResetPeriod := period.text }

/-- The plan as it is stored, with the id `newId`. -/
def adminCreateSubscriptionPlan (hasGroup : String → Bool) (newId : Int)
    (createFault : Option String) (req : PlanRequest) : Except String PlanRequest := do
  let plan ← checkPlan hasGroup { req with id := 0 }
  match createFault with
  | some text => .error text
  | none => .ok { plan with id := newId }

def adminUpdateSubscriptionPlan (hasGroup : String → Bool) (id : Int) (updateFault : Option String)
    (req : PlanRequest) : Except String PlanRequest :=
  if id ≤ 0 then .error "无效的ID"
  else do
    let plan ← checkPlan hasGroup req
    match updateFault with
    | some text => .error text
    | none => .ok { plan with id }

structure AcceptedPlan where
  plan : PlanRequest
  accepted : ∃ hasGroup id fault req, adminCreateSubscriptionPlan hasGroup id fault req = .ok plan ∨
    adminUpdateSubscriptionPlan hasGroup id fault req = .ok plan

theorem checkPlan_eq_ok {hasGroup : String → Bool} {req plan : PlanRequest}
    (h : checkPlan hasGroup req = .ok plan) :
    normalizeResetPeriod plan.quotaResetPeriod = .custom → 0 < plan.quotaResetCustomSeconds := by
  unfold checkPlan at h
  obtain ⟨-, h⟩ := ite_error_eq_ok.mp h
  obtain ⟨-, h⟩ := ite_error_eq_ok.mp h
  obtain ⟨-, h⟩ := ite_error_eq_ok.mp h
  dsimp only at h
  obtain ⟨-, h⟩ := ite_error_eq_ok.mp h
  obtain ⟨-, h⟩ := ite_error_eq_ok.mp h
  obtain ⟨-, h⟩ := ite_error_eq_ok.mp h
  obtain ⟨hcustom, h⟩ := ite_error_eq_ok.mp h
  cases h
  dsimp only
  rw [normalizeResetPeriod_text]
  intro hperiod
  by_contra hle
  exact hcustom ⟨hperiod, by omega⟩

theorem AcceptedPlan.seconds_pos (p : AcceptedPlan) :
    normalizeResetPeriod p.plan.quotaResetPeriod = .custom →
      0 < p.plan.quotaResetCustomSeconds := by
  obtain ⟨hasGroup, id, fault, req, h | h⟩ := p.accepted
  · obtain ⟨plan, hcheck, h⟩ := bind_eq_ok.mp h
    cases fault with
    | some text => cases h
    | none =>
      have hpos := checkPlan_eq_ok hcheck
      rw [← Except.ok.inj h]
      exact hpos
  · obtain ⟨-, h⟩ := ite_error_eq_ok.mp h
    obtain ⟨plan, hcheck, h⟩ := bind_eq_ok.mp h
    cases fault with
    | some text => cases h
    | none =>
      have hpos := checkPlan_eq_ok hcheck
      rw [← Except.ok.inj h]
      exact hpos

/-! ### The catch-up loop -/

section CatchUp

variable {loc : Location} {plan : SubscriptionPlan} {endTime now : Int}

theorem catchUp_of_not_due {fuel : Nat} {base next : Int} {advanced : Bool}
    (h : ¬ (next > 0 ∧ next ≤ now)) :
    catchUp loc plan endTime now (fuel + 1) base next advanced = .ok (base, next, advanced) := by
  rw [catchUp, if_neg h]

theorem catchUp_ends (hadvance : ∀ base, calcNextResetTime loc base plan endTime = 0 ∨
      base < calcNextResetTime loc base plan endTime) {fuel : Nat} {base next : Int}
    {advanced : Bool} (hfuel : (now + 1 - next).toNat < fuel) :
    ∃ r, catchUp loc plan endTime now fuel base next advanced = .ok r := by
  induction fuel generalizing base next advanced with
  | zero => omega
  | succ fuel ih =>
    by_cases hdue : next > 0 ∧ next ≤ now
    · rw [catchUp, if_pos hdue]
      rcases hadvance next with hzero | hlt
      · -- there is no further reset, so the next round is the last
        obtain ⟨fuel, rfl⟩ : ∃ m, fuel = m + 1 := ⟨fuel - 1, by omega⟩
        rw [hzero]
        exact ⟨_, catchUp_of_not_due (by omega)⟩
      · exact ih (by omega)
    · exact ⟨_, catchUp_of_not_due hdue⟩

/-- **The loop does not end** at a due reset time that is its own successor. -/
theorem catchUp_diverges {next : Int} (hdue : next > 0 ∧ next ≤ now)
    (hnext : calcNextResetTime loc next plan endTime = next) (fuel : Nat) (base : Int)
    (advanced : Bool) : catchUp loc plan endTime now fuel base next advanced = .error .diverge := by
  induction fuel generalizing base advanced with
  | zero => rfl
  | succ fuel ih =>
    rw [catchUp, if_pos hdue, hnext]
    exact ih next true

end CatchUp

/-! ### Reset times in UTC -/

/-- **The next reset is later**, or there is none. -/
def ResetAdvances (plan : SubscriptionPlan) : Prop :=
  ∀ base endUnix, calcNextResetTime .utc base plan endUnix = 0 ∨
    base < calcNextResetTime .utc base plan endUnix

/-- **The catch-up loop ends** for every subscription at every time, with enough rounds. -/
def CatchUpEnds (plan : SubscriptionPlan) : Prop :=
  ∀ (sub : UserSubscription) (now : Int), ∃ rounds, ∀ env : SubscriptionEnv, env.loc = .utc →
    rounds ≤ env.fuel → ∃ d, resetDecision env sub plan now = .ok d

theorem lt_calendarReset (t : Int) : t < utc.addDate (utc.midnight t) 0 0 1 ∧
      t < utc.addDate (utc.midnight t) 0 0
        (8 - if utc.weekday t = 0 then 7 else utc.weekday t) ∧
      t < utc.addDate (utc.monthStart t) 0 1 0 := by
  have hweekday : 0 ≤ utc.weekday t ∧ utc.weekday t < 7 := by
    unfold weekday
    omega
  rw [utc_midnight, utc_addDate_days, utc_addDate_days]
  refine ⟨by omega, ?_, lt_utc_nextMonth t⟩
  split <;> omega

variable {plan : SubscriptionPlan}

theorem resetAdvances_of_period (h : normalizeResetPeriod plan.quotaResetPeriod = .custom →
      1000000000 ≤ wrap64 (plan.quotaResetCustomSeconds * 1000000000)) : ResetAdvances plan := by
  intro base endUnix
  obtain ⟨hday, hweek, hmonth⟩ := lt_calendarReset base
  have hcut : ∀ next, base < next → (if endUnix > 0 ∧ next > endUnix then 0 else next) = 0 ∨
        base < if endUnix > 0 ∧ next > endUnix then 0 else next := by
    intro next hlt
    split
    · exact .inl rfl
    · exact .inr hlt
  unfold calcNextResetTime
  cases hperiod : normalizeResetPeriod plan.quotaResetPeriod with
  | never => exact .inl rfl
  | daily => exact hcut _ hday
  | weekly => exact hcut _ hweek
  | monthly => exact hcut _ hmonth
  | custom =>
    dsimp only
    split
    · exact .inl rfl
    · refine hcut _ ?_
      have hperiod := h hperiod
      unfold addSeconds
      omega

theorem exists_resetDecision {env : SubscriptionEnv} {sub : UserSubscription} {now base : Int}
    (hbase : base = if sub.lastResetTime ≤ 0 then sub.startTime else sub.lastResetTime)
    (hloop : ∃ r, catchUp env.loc plan sub.endTime now env.fuel base
      (calcNextResetTime env.loc base plan sub.endTime) false = .ok r) :
    ∃ d, resetDecision env sub plan now = .ok d := by
  obtain ⟨⟨base', next', advanced⟩, hloop⟩ := hloop
  unfold resetDecision
  split
  · exact ⟨_, rfl⟩
  · split
    · exact ⟨_, rfl⟩
    · rw [← hbase]
      dsimp only
      rw [hloop]
      cases advanced with
      | true => exact ⟨_, rfl⟩
      | false =>
        by_cases hfirst : sub.nextResetTime = 0 ∧ next' > 0
        · exact ⟨.schedule base' next', by simp [bind, Except.bind, hfirst]; rfl⟩
        · exact ⟨.keep, by simp [bind, Except.bind, hfirst]; rfl⟩

theorem ResetAdvances.catchUpEnds (h : ResetAdvances plan) : CatchUpEnds plan := by
  intro sub now
  generalize hbase : (if sub.lastResetTime ≤ 0 then sub.startTime else sub.lastResetTime) = base
  refine ⟨(now + 1 - calcNextResetTime .utc base plan sub.endTime).toNat + 1, ?_⟩
  rintro env hloc hfuel
  refine exists_resetDecision hbase.symm ?_
  rw [hloc]
  exact catchUp_ends (fun base => h base sub.endTime) (by omega)

/-- **The plans whose reset times advance**, and whose catch-up loop therefore ends. -/
theorem resetAdvances_iff (p : AcceptedPlan) :
    ResetAdvances p.plan.toSubscriptionPlan ∧ CatchUpEnds p.plan.toSubscriptionPlan ↔
      (normalizeResetPeriod p.plan.quotaResetPeriod = .custom →
        1000000000 ≤ wrap64 (p.plan.quotaResetCustomSeconds * 1000000000)) := by
  constructor
  · rintro ⟨hadvance, -⟩ hcustom
    have hpos := p.seconds_pos hcustom
    have hnext : ∀ base, calcNextResetTime .utc base p.plan.toSubscriptionPlan 0 =
        addSeconds base p.plan.quotaResetCustomSeconds := by
      intro base
      rw [calcNextResetTime, hcustom]
      dsimp only
      rw [if_neg (by omega), if_neg (by omega)]
    -- the base is chosen such that the next reset is not the zero that stands for none
    generalize hstep : wrap64 (p.plan.quotaResetCustomSeconds * 1000000000) / 1000000000 = step
    have hlater := hadvance (1 - step) 0
    rw [hnext, addSeconds, hstep] at hlater
    omega
  · intro h
    have hadvance := resetAdvances_of_period h
    exact ⟨hadvance, hadvance.catchUpEnds⟩

/-! ### A period that wraps around -/

def customPlan (seconds : Int) : PlanRequest where
  id := 1
  title := "t"
  durationUnit := "month"
  durationValue := 1
  customSeconds := 0
  maxPurchasePerUser := 0
  upgradeGroup := ""
  totalAmount := 0
  quotaResetPeriod := "custom"
  quotaResetCustomSeconds := seconds
  priceAmount := 1
  currency := "USD"

def resetAt100 : UserSubscription where
  id := 1
  userId := 1
  planId := 1
  amountTotal := 0
  amountUsed := 0
  startTime := 100
  endTime := 0
  status := .active
  source := ""
  lastResetTime := 100
  nextResetTime := 100
  upgradeGroup := ""
  prevUserGroup := ""

/-- **A period of `2 ^ 55` seconds lasts no time**: its nanoseconds are a multiple of `2 ^ 64`, and
the loop does not end. -/
theorem period_wraps_to_zero :
    adminCreateSubscriptionPlan (fun _ => false) 1 none (customPlan 36028797018963968) =
        .ok (customPlan 36028797018963968) ∧
      calcNextResetTime .utc 100 (customPlan 36028797018963968).toSubscriptionPlan 0 = 100 ∧
      ∀ env : SubscriptionEnv, env.loc = .utc →
        resetDecision env resetAt100 (customPlan 36028797018963968).toSubscriptionPlan 200 =
          .error .diverge := by
  have hnext : calcNextResetTime .utc 100 (customPlan 36028797018963968).toSubscriptionPlan 0 =
      100 := by decide +kernel
  have hperiod : normalizeResetPeriod
      (customPlan 36028797018963968).toSubscriptionPlan.quotaResetPeriod ≠ .never := by
    decide +kernel
  refine ⟨by decide +kernel, hnext, fun env hloc => ?_⟩
  have hloop := catchUp_diverges (show (100 : Int) > 0 ∧ (100 : Int) ≤ 200 by omega) hnext
    env.fuel 100 false
  have hbase : (if resetAt100.lastResetTime ≤ 0 then resetAt100.startTime
      else resetAt100.lastResetTime) = 100 := rfl
  rw [resetDecision, if_neg (by decide), if_neg hperiod, hloc]
  dsimp only
  rw [hbase, show resetAt100.endTime = 0 from rfl, hnext, hloop]
  rfl

end NomoApi
