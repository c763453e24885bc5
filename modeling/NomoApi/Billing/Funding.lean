import NomoApi.Subscription.Consume

/-! # Accounts and funding sources

A request is paid from a funding source, the wallet or a subscription, and counted against a token
(`model/user.go`, `model/token.go`, `service/funding_source.go`). With batch updates an account has
a stored column and a pending delta; its *balance* is their sum. -/

namespace NomoApi

/-! ## Accounts -/

@[ext] structure UserAccount where
  quota : Int
  pending : Int
  deriving DecidableEq

@[ext] structure TokenAccount where
  remainQuota : Int
  usedQuota : Int
  pending : Int
  deriving DecidableEq

open TokenAccount

def UserAccount.balance (u : UserAccount) : Int := u.quota + u.pending

def TokenAccount.balance (t : TokenAccount) : Int := t.remainQuota + t.pending

variable (batch : Bool) (fault : Option String)

def UserAccount.add (delta : Int) (u : UserAccount) : Except Halt UserAccount :=
  -- a batched delta waits in memory, and recording it cannot fail
  if batch then .ok { u with pending := u.pending + delta }
  else do
    attempt fault
    return { u with quota := u.quota + delta }

def TokenAccount.add (delta : Int) (t : TokenAccount) : Except Halt TokenAccount :=
  if batch then .ok { t with pending := t.pending + delta }
  else do
    attempt fault
    return { t with remainQuota := t.remainQuota + delta, usedQuota := t.usedQuota - delta }

def increaseUserQuota (quota : Int) (u : UserAccount) : Except Halt UserAccount :=
  if quota < 0 then .error (.error "quota 不能为负数！") else u.add batch fault quota

def decreaseUserQuota (quota : Int) (u : UserAccount) : Except Halt UserAccount :=
  if quota < 0 then .error (.error "quota 不能为负数！") else u.add batch fault (-quota)

def increaseTokenQuota (quota : Int) (t : TokenAccount) : Except Halt TokenAccount :=
  if quota < 0 then .error (.error "quota 不能为负数！") else t.add batch fault quota

def decreaseTokenQuota (quota : Int) (t : TokenAccount) : Except Halt TokenAccount :=
  if quota < 0 then .error (.error "quota 不能为负数！") else t.add batch fault (-quota)

variable {batch fault} {delta : Int}

theorem UserAccount.balance_add {u u' : UserAccount} (h : u.add batch fault delta = .ok u') :
    u'.balance = u.balance + delta := by
  unfold UserAccount.add at h
  split at h
  · cases h
    simp only [UserAccount.balance]; omega
  · obtain ⟨_, -, h⟩ := bind_eq_ok.mp h
    cases h
    simp only [UserAccount.balance]; omega

theorem TokenAccount.balance_add {t t' : TokenAccount} (h : t.add batch fault delta = .ok t') :
    t'.balance = t.balance + delta := by
  unfold add at h
  split at h
  · cases h
    simp only [balance]; omega
  · obtain ⟨_, -, h⟩ := bind_eq_ok.mp h
    cases h
    simp only [balance]; omega

@[simp] theorem UserAccount.add_none (batch : Bool) (delta : Int) (u : UserAccount) :
    u.add batch none delta = .ok (if batch then { u with pending := u.pending + delta }
        else { u with quota := u.quota + delta }) := by
  cases batch <;> rfl

@[simp] theorem TokenAccount.add_none (batch : Bool) (delta : Int) (t : TokenAccount) :
    t.add batch none delta = .ok (if batch then { t with pending := t.pending + delta }
        else { t with remainQuota := t.remainQuota + delta,
                      usedQuota := t.usedQuota - delta }) := by
  cases batch <;> rfl

/-- **Rolling a token charge back restores the token.** -/
theorem increaseTokenQuota_decreaseTokenQuota {quota : Int} {t t' : TokenAccount}
    (h : decreaseTokenQuota batch fault quota t = .ok t') :
    increaseTokenQuota batch none quota t' = .ok t := by
  unfold decreaseTokenQuota at h
  unfold increaseTokenQuota
  by_cases hq : quota < 0
  · rw [if_pos hq] at h; cases h
  · rw [if_neg hq] at h ⊢
    rw [add_none]
    unfold add at h
    have hcancel : ∀ x : Int, x + -quota + quota = x := fun x => by omega
    cases batch with
    | true =>
      cases h
      simp [hcancel]
    | false =>
      obtain ⟨_, -, h⟩ := bind_eq_ok.mp h
      cases h
      simp [hcancel]

/-! ## Funding sources -/

inductive BillingSource where
  | wallet
  | subscription
  deriving DecidableEq

/-- `consumed` is what was taken. -/
structure WalletFunding where
  consumed : Int
  deriving DecidableEq

/-- A successful pre-consume fills in the fields after `amount`. -/
structure SubscriptionFunding where
  requestId : String
  userId : Int
  modelName : String
  amount : Int
  subscriptionId : Int
  preConsumed : Int
  amountTotal : Int
  amountUsedAfter : Int
  planId : Int
  planTitle : String
  deriving DecidableEq

inductive FundingSource where
  | wallet (w : WalletFunding)
  | subscription (f : SubscriptionFunding)
  deriving DecidableEq

def FundingSource.source : FundingSource → BillingSource
  | .wallet _ => .wallet
  | .subscription _ => .subscription

@[ext] structure Accounts where
  user : UserAccount
  token : TokenAccount
  store : SubscriptionStore

def Accounts.withToken (a : Accounts) (token : TokenAccount) : Accounts := { a with token }

section

variable (a : Accounts) (token : TokenAccount)

@[simp] theorem Accounts.withToken_user : (a.withToken token).user = a.user := rfl

@[simp] theorem Accounts.withToken_token : (a.withToken token).token = token := rfl

@[simp] theorem Accounts.withToken_store : (a.withToken token).store = a.store := rfl

end

@[simp] theorem Accounts.withToken_self (a : Accounts) : a.withToken a.token = a := rfl

/-- The environment of the billing functions; a failure of
`GetSubscriptionPlanInfoByUserSubscriptionId` is ignored. -/
structure FundingEnv where
  sub : SubscriptionEnv
  dbNow : Int
  batchUpdateEnabled : Bool
  planInfo : Int → Option (Int × String)

structure FundingFaults where
  decreaseUser : Option String
  preConsume : PreConsumeFaults

/-- The subscription charges the amount it was built with. -/
def FundingSource.preConsume (env : FundingEnv) (f : FundingFaults) (amount : Int)
    (src : FundingSource) (a : Accounts) : Except Halt (FundingSource × Accounts) :=
  match src with
  | .wallet w =>
    if amount ≤ 0 then .ok (.wallet w, a)
    else do
      let user ← decreaseUserQuota env.batchUpdateEnabled f.decreaseUser amount a.user
      return (.wallet { consumed := amount }, { a with user })
  | .subscription s => do
      let (res, store) ← preConsumeUserSubscription env.sub f.preConsume s.requestId s.userId
        s.modelName 0 s.amount env.dbNow a.store
      -- the charge is committed by now: a failing plan lookup only leaves the plan empty
      let (planId, planTitle) := (env.planInfo res.userSubscriptionId).getD (s.planId, s.planTitle)
      return (.subscription { s with
          subscriptionId := res.userSubscriptionId
          preConsumed := res.preConsumed
          amountTotal := res.amountTotal
          amountUsedAfter := res.amountUsedAfter
          planId
          planTitle }, { a with store })

structure SettleFaults where
  user : Option String
  delta : DeltaFaults
  token : Option String

def SettleFaults.none : SettleFaults := ⟨.none, DeltaFaults.none, .none⟩

def adjustUser (batch : Bool) (fault : Option String) (delta : Int) (u : UserAccount) :
    Except Halt UserAccount :=
  if delta > 0 then decreaseUserQuota batch fault delta u
  else increaseUserQuota batch fault (-delta) u

theorem balance_adjustUser {u u' : UserAccount} (h : adjustUser batch fault delta u = .ok u') :
    u'.balance = u.balance - delta := by
  unfold adjustUser at h
  split at h
  · rw [decreaseUserQuota, if_neg (by omega)] at h
    rw [UserAccount.balance_add h]
    omega
  · rw [increaseUserQuota, if_neg (by omega)] at h
    rw [UserAccount.balance_add h]
    omega

def FundingSource.settle (batch : Bool) (f : SettleFaults) (delta : Int) (src : FundingSource)
    (a : Accounts) : Except Halt Accounts :=
  if delta = 0 then .ok a
  else
    match src with
    | .wallet _ => do
        let user ← adjustUser batch f.user delta a.user
        return { a with user }
    | .subscription s => do
        let (_, store) ← postConsumeUserSubscriptionDelta f.delta s.subscriptionId delta a.store
        return { a with store }

/-- **`refundWithRetry`**: up to `n` more attempts, numbered from `i`. -/
def retryFrom {σ : Type} (fn : Nat → σ → Except Halt Unit × σ) :
    Nat → Nat → Halt → σ → Except Halt Unit × σ
  | 0, _, lastErr, s => (.error lastErr, s)
  | n + 1, i, _, s =>
    match fn i s with
    | (.ok _, s') => (.ok (), s')
    -- the state a failed attempt leaves is where the next one starts
    | (.error e, s') => retryFrom fn n (i + 1) e s'

def maxAttempts : Nat := 3

def refundWithRetry {σ : Type} (fn : Nat → σ → Except Halt Unit × σ) (s : σ) :
    Except Halt Unit × σ :=
  retryFrom fn maxAttempts 0 .diverge s

/-- `f i` are the failures of attempt `i`. -/
def SubscriptionFunding.refund (f : Nat → RefundFaults) (s : SubscriptionFunding)
    (st : SubscriptionStore) : Except Halt Unit × SubscriptionStore :=
  -- nothing was charged, nothing is looked up
  if s.preConsumed ≤ 0 then (.ok (), st)
  else refundWithRetry (fun i => refundSubscriptionPreConsume (f i) s.requestId) st

structure SessionRefundFaults where
  user : Option String
  attempts : Nat → RefundFaults
  token : Option String

def SessionRefundFaults.none : SessionRefundFaults := ⟨.none, fun _ => RefundFaults.none, .none⟩

def FundingSource.refund (batch : Bool) (f : SessionRefundFaults) (src : FundingSource)
    (a : Accounts) : Except Halt Unit × Accounts :=
  match src with
  | .wallet w =>
    if w.consumed ≤ 0 then (.ok (), a)
    else
      match increaseUserQuota batch f.user w.consumed a.user with
      | .error e => (.error e, a)
      | .ok user => (.ok (), { a with user })
  | .subscription s =>
    ((s.refund f.attempts a.store).1, { a with store := (s.refund f.attempts a.store).2 })

end NomoApi
