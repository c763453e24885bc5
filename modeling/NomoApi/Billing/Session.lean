import NomoApi.Billing.Funding

/-! # Billing sessions: the pre-charge

`service/billing_session.go`: `NewBillingSession` picks the funding source by the user's preference,
charges token and source, and falls back to the other source. A session that cannot be opened gives
back what it took. -/

namespace NomoApi

open FundingSource

/-! ## Errors, request information and sessions -/

inductive ErrorCode where
  | invalidRequest
  | queryDataError
  | updateDataError
  | insufficientUserQuota
  | preConsumeTokenQuotaFailed
  deriving DecidableEq

/-- An API error; all errors here are not to be retried. -/
structure ApiError where
  message : String
  code : ErrorCode
  statusCode : Nat
  skipRetry : Bool
  recordErrorLog : Option Bool
  deriving DecidableEq

def newError (message : String) (code : ErrorCode) : ApiError :=
  ⟨message, code, 500, true, none⟩

def newForbidden (message : String) (code : ErrorCode) : ApiError :=
  ⟨message, code, 403, true, some false⟩

/-- How a session fails to open: with an API error, or by never returning. -/
inductive SessionHalt where
  | api (e : ApiError)
  | diverge
  deriving DecidableEq

def Halt.toSession (wrap : String → ApiError) : Halt → SessionHalt
  | .error text => .api (wrap text)
  | .diverge => .diverge

structure RelayInfo where
  userId : Int
  requestId : String
  originModelName : String
  isPlayground : Bool
  tokenUnlimited : Bool
  forcePreConsume : Bool
  userQuota : Int
  billingPreference : String
  finalPreConsumedQuota : Int
  billingSource : Option BillingSource
  subscriptionId : Int
  subscriptionPreConsumed : Int
  subscriptionPostDelta : Int
  subscriptionAmountTotal : Int
  subscriptionAmountUsedAfterPreConsume : Int
  subscriptionPlanId : Int
  subscriptionPlanTitle : String
  deriving DecidableEq

structure BillingSession where
  funding : FundingSource
  preConsumedQuota : Int
  tokenConsumed : Int
  fundingSettled : Bool
  settled : Bool
  refunded : Bool
  deriving DecidableEq

open BillingSession

def BillingSession.init (funding : FundingSource) : BillingSession :=
  ⟨funding, 0, 0, false, false, false⟩

def BillingSession.getPreConsumedQuota (s : BillingSession) : Int := s.preConsumedQuota

structure BillingState where
  info : RelayInfo
  accounts : Accounts

/-- The environment of `NewBillingSession`. Cached quotas are `none` on a miss; the cached token may
differ between the sources. -/
structure SessionEnv where
  funding : FundingEnv
  now : Int
  trustQuota : Int
  tokenQuota : Int
  formatQuota : Int → String
  cachedUserQuota : Option Int
  cachedTokenQuota : BillingSource → Option Int

structure SessionFaults where
  userQuota : Option String
  hasSub : Option String
  getToken : BillingSource → Option String
  decreaseToken : BillingSource → Option String
  rollbackToken : BillingSource → Option String
  funding : FundingFaults

inductive BillingPreference where
  | subscriptionFirst
  | walletFirst
  | subscriptionOnly
  | walletOnly
  deriving DecidableEq

/-- The default is `subscription_first`. -/
def normalizeBillingPreference (pref : String) : BillingPreference :=
  if trimSpace pref = "wallet_first" then .walletFirst
  else if trimSpace pref = "subscription_only" then .subscriptionOnly
  else if trimSpace pref = "wallet_only" then .walletOnly
  else .subscriptionFirst

/-! ## The pre-charge of one session -/

def readQuota (cached : Option Int) (fault : Option String) (stored : Int) : Except Halt Int :=
  match cached with
  | some quota => .ok quota
  | none => do
      attempt fault
      return stored

section Sessions
variable (env : SessionEnv) (f : SessionFaults)

def preConsumeTokenQuota (src : BillingSource)
    (info : RelayInfo) (quota : Int) (token : TokenAccount) : Except Halt TokenAccount :=
  if quota < 0 then .error (.error "quota 不能为负数！")
  else if info.isPlayground then .ok token
  else do
    let remainQuota ← readQuota (env.cachedTokenQuota src) (f.getToken src) token.remainQuota
    -- the check reads the cached quota and the write lowers the stored one
    if ¬ info.tokenUnlimited ∧ remainQuota < quota then
      .error (.error ("token quota is not enough, token remain quota: " ++
        env.formatQuota remainQuota ++ ", need quota: " ++ env.formatQuota quota))
    else decreaseTokenQuota env.funding.batchUpdateEnabled (f.decreaseToken src) quota token

def BillingSession.shouldTrust (info : RelayInfo) (s : BillingSession) : Bool :=
  if info.forcePreConsume then false
  else if env.trustQuota ≤ 0 then false
  else if ¬ (info.tokenUnlimited ∨ env.tokenQuota > env.trustQuota) then false
  else
    match s.funding.source with
    | .wallet => info.userQuota > env.trustQuota
    -- a subscription always records a charge, so it cannot skip it
    | .subscription => false

def BillingSession.syncRelayInfo (s : BillingSession) (info : RelayInfo) : RelayInfo :=
  match s.funding with
  | .subscription sub =>
    { info with
      finalPreConsumedQuota := s.preConsumedQuota
      billingSource := some s.funding.source
      subscriptionId := sub.subscriptionId
      subscriptionPreConsumed := sub.preConsumed
      subscriptionPostDelta := 0
      subscriptionAmountTotal := sub.amountTotal
      subscriptionAmountUsedAfterPreConsume := sub.amountUsedAfter
      subscriptionPlanId := sub.planId
      subscriptionPlanTitle := sub.planTitle }
  | .wallet _ =>
    { info with
      finalPreConsumedQuota := s.preConsumedQuota
      billingSource := some s.funding.source
      subscriptionId := 0
      subscriptionPreConsumed := 0 }

def fundingError (errMsg : String) : ApiError :=
  if contains errMsg "no active subscription" ∨ contains errMsg "subscription quota insufficient"
  then newForbidden ("订阅额度不足或未配置订阅: " ++ errMsg) .insufficientUserQuota
  else newError errMsg .updateDataError

/-- The token after `tokenConsumed` is given back; a failure is only logged. -/
def returnToken (batch : Bool) (fault : Option String) (isPlayground : Bool)
    (tokenConsumed : Int) (token : TokenAccount) : TokenAccount :=
  if tokenConsumed > 0 ∧ ¬ isPlayground then
    match increaseTokenQuota batch fault tokenConsumed token with
    | .ok token => token
    | .error _ => token
  else token

abbrev SessionResult := Except SessionHalt BillingSession × BillingState

/-- The token, then the source, and the token back when the source fails. -/
def BillingSession.preConsume (quota : Int)
    (s : BillingSession) (b : BillingState) : SessionResult :=
  let effectiveQuota := if s.shouldTrust env b.info then 0 else quota
  let src := s.funding.source
  match (if effectiveQuota > 0 then
      preConsumeTokenQuota env f src b.info effectiveQuota b.accounts.token
    else .ok b.accounts.token) with
  | .error e => (.error (e.toSession (newForbidden · .preConsumeTokenQuotaFailed)), b)
  | .ok token =>
    let tokenConsumed := if effectiveQuota > 0 then effectiveQuota else s.tokenConsumed
    match s.funding.preConsume env.funding f.funding effectiveQuota
      (b.accounts.withToken token) with
    -- the source refused: what the token was charged goes back to it
    | .error e =>
      let token := returnToken env.funding.batchUpdateEnabled (f.rollbackToken src)
        b.info.isPlayground tokenConsumed token
      (.error (e.toSession fundingError), { b with accounts := b.accounts.withToken token })
    | .ok (funding, accounts) =>
      let s' := { s with funding, tokenConsumed, preConsumedQuota := effectiveQuota }
      (.ok s', { info := s'.syncRelayInfo b.info, accounts })

/-! ## `NewBillingSession` -/

variable (preConsumedQuota : Int) (b : BillingState)

def tryWallet : SessionResult :=
  match readQuota env.cachedUserQuota f.userQuota b.accounts.user.quota with
  | .error e => (.error (e.toSession (newError · .queryDataError)), b)
  | .ok userQuota =>
    if userQuota ≤ 0 then
      (.error (.api (newForbidden ("用户额度不足, 剩余额度: " ++ env.formatQuota userQuota)
        .insufficientUserQuota)), b)
    else if userQuota - preConsumedQuota < 0 then
      (.error (.api (newForbidden ("预扣费额度失败, 用户剩余额度: " ++ env.formatQuota userQuota ++
        ", 需要预扣费额度: " ++ env.formatQuota preConsumedQuota) .insufficientUserQuota)), b)
    else
      (init (.wallet ⟨0⟩)).preConsume env f preConsumedQuota
        { b with info := { b.info with userQuota } }

def SubscriptionFunding.init (info : RelayInfo) (amount : Int) : SubscriptionFunding :=
  { requestId := info.requestId, userId := info.userId, modelName := info.originModelName
    amount, subscriptionId := 0, preConsumed := 0, amountTotal := 0, amountUsedAfter := 0
    planId := 0, planTitle := "" }

/-- A subscription is charged at least one. -/
def trySubscription : SessionResult :=
  -- a subscription refuses amounts that are not positive
  let subConsume := if preConsumedQuota ≤ 0 then 1 else preConsumedQuota
  (init (.subscription (.init b.info subConsume))).preConsume env f subConsume b

def orElseInsufficient (first second : BillingState → SessionResult) (b : BillingState) :
    SessionResult :=
  match first b with
  | (.error (.api e), b') =>
    -- any other error ends the attempt, and the second source is not tried
    if e.code = .insufficientUserQuota then second b' else (.error (.api e), b')
  | res => res

def hasActiveUserSubscription (fault : Option String) (userId now : Int) (st : SubscriptionStore) :
    Except Halt Bool :=
  if userId ≤ 0 then .error (.error "invalid userId")
  else do
    attempt fault
    return ¬ (activeSubscriptions st.subs userId now = [])

/-- The preference switch of `NewBillingSession`. -/
def newSessionFor : SessionResult :=
  match normalizeBillingPreference b.info.billingPreference with
  | .subscriptionOnly => trySubscription env f preConsumedQuota b
  | .walletOnly => tryWallet env f preConsumedQuota b
  | .walletFirst =>
    orElseInsufficient (tryWallet env f preConsumedQuota)
      (trySubscription env f preConsumedQuota) b
  | .subscriptionFirst =>
    match hasActiveUserSubscription f.hasSub b.info.userId env.now b.accounts.store with
    | .error e => (.error (e.toSession (newError · .queryDataError)), b)
    | .ok hasSub =>
      if ¬ hasSub then tryWallet env f preConsumedQuota b
      else orElseInsufficient (trySubscription env f preConsumedQuota)
        (tryWallet env f preConsumedQuota) b

def newBillingSession (info : Option RelayInfo) (preConsumedQuota : Int) (a : Accounts) :
    Except SessionHalt BillingSession × Option RelayInfo × Accounts :=
  match info with
  | none => (.error (.api (newError "relayInfo is nil" .invalidRequest)), none, a)
  | some info =>
    let out := newSessionFor env f preConsumedQuota ⟨info, a⟩
    (out.1, some out.2.info, out.2.accounts)

end Sessions

/-! ## What a pre-charge does -/

/-- **The funding source has been charged `p`**, and the other source has not. -/
def FundingCharged (env : FundingEnv) (requestId : String) (userId p : Int) (a a' : Accounts) :
    FundingSource → Prop
  | .wallet w =>
    a'.user.balance = a.user.balance - max p 0 ∧ a'.store = a.store ∧ w.consumed = max p 0
  | .subscription sub =>
    a'.user = a.user ∧ sub.requestId = requestId ∧ sub.preConsumed = p ∧
      ∃ r, Charged env.sub env.dbNow requestId userId p a.store a'.store sub.subscriptionId r

/-- **A session has been opened**: source and token are charged alike. -/
structure SessionCharged (env : FundingEnv) (requestId : String) (userId : Int)
    (isPlayground : Bool) (s : BillingSession) (a a' : Accounts) : Prop where
  funding : FundingCharged env requestId userId s.preConsumedQuota a a' s.funding
  token : a'.token.balance =
    a.token.balance - (if isPlayground then 0 else max s.preConsumedQuota 0)
  tokenConsumed : s.tokenConsumed = max s.preConsumedQuota 0
  fundingSettled : s.fundingSettled = false
  settled : s.settled = false
  refunded : s.refunded = false

def FundingSource.Ready (info : RelayInfo) (amount : Int) : FundingSource → Prop
  | .wallet w => w.consumed = 0
  | .subscription sub =>
    sub.requestId = info.requestId ∧ sub.userId = info.userId ∧ sub.amount = amount ∧ 0 < amount

variable {info : RelayInfo}

theorem FundingSource.preConsume_ok {env : FundingEnv} {f : FundingFaults} {amount : Int}
    {src src' : FundingSource} {a a' : Accounts} (hready : src.Ready info amount)
    (hfresh : a.store.records.find? info.requestId = none)
    (h : src.preConsume env f amount a = .ok (src', a')) :
    FundingCharged env info.requestId info.userId amount a a' src' ∧ a'.token = a.token := by
  cases src with
  | wallet w =>
    simp only [preConsume] at h
    split at h
    · rename_i hle
      cases h
      rw [FundingCharged, max_eq_right hle]
      exact ⟨⟨by omega, rfl, hready⟩, rfl⟩
    · obtain ⟨user, huser, h⟩ := bind_eq_ok.mp h
      cases h
      rw [decreaseUserQuota, if_neg (by omega)] at huser
      have hbal := UserAccount.balance_add huser
      rw [FundingCharged, max_eq_left (by omega)]
      exact ⟨⟨by rw [hbal]; omega, rfl, rfl⟩, rfl⟩
  | subscription sub =>
    obtain ⟨hreq, huser, hamount, -⟩ := hready
    simp only [preConsume] at h
    obtain ⟨⟨res, store⟩, hpre, h⟩ := bind_eq_ok.mp h
    rw [hreq, huser, hamount] at hpre
    cases h
    obtain ⟨hpaid, r, hcharged⟩ := preConsumeUserSubscription_charged hfresh hpre
    exact ⟨⟨rfl, hreq, hpaid, r, hcharged⟩, rfl⟩

variable {env : SessionEnv} {f : SessionFaults} {src : BillingSource} {quota : Int}
  {token token' : TokenAccount}

theorem preConsumeTokenQuota_eq_ok
    (h : preConsumeTokenQuota env f src info quota token = .ok token') :
    (info.isPlayground = true ∧ token' = token) ∨ (info.isPlayground = false ∧
        decreaseTokenQuota env.funding.batchUpdateEnabled (f.decreaseToken src) quota token =
          .ok token') := by
  unfold preConsumeTokenQuota at h
  split at h
  · cases h
  · split at h
    · rename_i hplay
      cases h
      exact .inl ⟨hplay, rfl⟩
    · rename_i hplay
      obtain ⟨remain, -, h⟩ := bind_eq_ok.mp h
      split at h
      · cases h
      · exact .inr ⟨by simpa using hplay, h⟩

theorem BillingSession.shouldTrust_subscription {s : BillingSession} {sub : SubscriptionFunding}
    (h : s.funding = .subscription sub) : s.shouldTrust env info = false := by
  unfold shouldTrust
  rw [h]
  simp [source]

theorem FundingSource.Ready.effective (env : SessionEnv) {src : FundingSource}
    (h : src.Ready info quota) :
    src.Ready info (if (init src).shouldTrust env info then 0 else quota) := by
  cases src with
  | wallet w => exact h
  | subscription sub =>
    rw [shouldTrust_subscription rfl, if_neg Bool.false_ne_true]
    exact h

section

variable (h : (if quota > 0 then preConsumeTokenQuota env f src info quota token else .ok token) =
    .ok token')

include h

theorem returnToken_preCharge : returnToken env.funding.batchUpdateEnabled none info.isPlayground
      (if quota > 0 then quota else 0) token' = token := by
  split at h
  · rename_i hq
    rw [if_pos hq, returnToken]
    rcases preConsumeTokenQuota_eq_ok h with ⟨hplay, rfl⟩ | ⟨hplay, hdec⟩
    · rw [if_neg (by simp [hplay])]
    · rw [if_pos (by simp [hplay, hq]), increaseTokenQuota_decreaseTokenQuota hdec]
  · rename_i hq
    cases h
    rw [if_neg hq, returnToken, if_neg (by simp)]

theorem balance_preCharge :
    token'.balance = token.balance - (if info.isPlayground then 0 else max quota 0) := by
  split at h
  · rename_i hq
    rcases preConsumeTokenQuota_eq_ok h with ⟨hplay, rfl⟩ | ⟨hplay, hdec⟩
    · rw [hplay, if_pos rfl, Int.sub_zero]
    · rw [decreaseTokenQuota, if_neg (by omega)] at hdec
      rw [TokenAccount.balance_add hdec, hplay, if_neg Bool.false_ne_true, max_eq_left hq.le]
      omega
  · cases h
    rw [max_eq_right (by omega), ite_self, Int.sub_zero]

end

/-- The fields of the request information that a session is tied to. -/
def SameRequest (info info' : RelayInfo) : Prop :=
  info'.requestId = info.requestId ∧ info'.userId = info.userId ∧
    info'.isPlayground = info.isPlayground

theorem SameRequest.trans {i₁ i₂ i₃ : RelayInfo} (h : SameRequest i₁ i₂) (h' : SameRequest i₂ i₃) :
    SameRequest i₁ i₃ :=
  ⟨h'.1.trans h.1, h'.2.1.trans h.2.1, h'.2.2.trans h.2.2⟩

theorem BillingSession.sameRequest_syncRelayInfo (s : BillingSession) (info : RelayInfo) :
    SameRequest info (s.syncRelayInfo info) := by
  unfold syncRelayInfo
  split <;> exact ⟨rfl, rfl, rfl⟩

/-- The request has not been charged to a subscription before. -/
abbrev BillingState.NewRequest (b : BillingState) : Prop :=
  b.accounts.store.records.find? b.info.requestId = none

/-- **All or nothing**: an error leaves the accounts as they were, a session has charged them. -/
structure AllOrNothing (env : FundingEnv) (quota : Int) (b : BillingState)
    (out : SessionResult) : Prop where
  error : ∀ e, out.1 = .error (.api e) →
    out.2.accounts = b.accounts ∧ SameRequest b.info out.2.info
  ok : ∀ s, out.1 = .ok s →
    SessionCharged env b.info.requestId b.info.userId b.info.isPlayground s b.accounts
      out.2.accounts ∧ SameRequest b.info out.2.info ∧ (0 ≤ quota → 0 ≤ s.preConsumedQuota)

section AllOrNothing

variable {env : SessionEnv} {f : SessionFaults} {quota : Int} {b : BillingState}

theorem AllOrNothing.of_error {fenv : FundingEnv} (e : SessionHalt) :
    AllOrNothing fenv quota b (.error e, b) :=
  ⟨fun _ _ => ⟨rfl, rfl, rfl, rfl⟩, fun _ h => by cases h⟩

variable (hrollback : ∀ src, f.rollbackToken src = none)

include hrollback in
theorem BillingSession.preConsume_allOrNothing {src : FundingSource}
    (hready : src.Ready b.info quota) (hfresh : b.NewRequest) :
    AllOrNothing env.funding quota b ((init src).preConsume env f quota b) := by
  have hready' := hready.effective env
  unfold preConsume
  simp only
  generalize heff : (if (init src).shouldTrust env b.info then 0 else quota) =
    effectiveQuota at hready' ⊢
  cases htoken : (if effectiveQuota > 0 then
      preConsumeTokenQuota env f (init src).funding.source b.info effectiveQuota
        b.accounts.token
    else .ok b.accounts.token) with
  | error e => exact .of_error _
  | ok token =>
    dsimp only
    cases hfund : (init src).funding.preConsume env.funding f.funding
        effectiveQuota (b.accounts.withToken token) with
    | error e =>
      refine ⟨fun _ _ => ⟨?_, rfl, rfl, rfl⟩, fun _ h => by cases h⟩
      have hback := returnToken_preCharge htoken
      show b.accounts.withToken (returnToken env.funding.batchUpdateEnabled
        (f.rollbackToken src.source) b.info.isPlayground
        (if effectiveQuota > 0 then effectiveQuota else 0) token) = b.accounts
      rw [hrollback, hback, Accounts.withToken_self]
    | ok out =>
      obtain ⟨funding, accounts⟩ := out
      have hfresh' : (b.accounts.withToken token).store.records.find? b.info.requestId = none :=
        hfresh
      obtain ⟨hcharged, htok⟩ := preConsume_ok hready' hfresh' hfund
      refine ⟨fun _ h => (by cases h), fun s h => ?_⟩
      cases h
      refine ⟨⟨hcharged, ?_, ?_, rfl, rfl, rfl⟩, sameRequest_syncRelayInfo _ _, fun hq => ?_⟩
      · rw [htok, Accounts.withToken_token]
        exact balance_preCharge htoken
      · show (if effectiveQuota > 0 then effectiveQuota else 0) = max effectiveQuota 0
        rw [max_def]
        split <;> split <;> omega
      · show 0 ≤ effectiveQuota
        rw [← heff]
        split <;> omega

include hrollback in
theorem tryWallet_allOrNothing (hfresh : b.NewRequest) :
    AllOrNothing env.funding quota b (tryWallet env f quota b) := by
  unfold tryWallet
  split
  · exact .of_error _
  · split
    · exact .of_error _
    · split
      · exact .of_error _
      · rename_i userQuota _ _ _
        have hready : (wallet ⟨0⟩).Ready { b.info with userQuota } quota := rfl
        have h := @preConsume_allOrNothing env f quota
          ⟨{ b.info with userQuota }, b.accounts⟩ hrollback (.wallet ⟨0⟩) hready hfresh
        exact ⟨h.error, h.ok⟩

include hrollback in
theorem trySubscription_allOrNothing (hfresh : b.NewRequest) :
    AllOrNothing env.funding quota b (trySubscription env f quota b) := by
  unfold trySubscription
  simp only
  generalize hamount : (if quota ≤ 0 then 1 else quota) = amount
  have hpos : 0 < amount := by rw [← hamount]; split <;> omega
  have hready : (subscription (.init b.info amount)).Ready b.info amount :=
    ⟨rfl, rfl, rfl, hpos⟩
  have h := @preConsume_allOrNothing env f amount b hrollback _ hready hfresh
  refine ⟨h.error, fun s hs => ?_⟩
  obtain ⟨hcharged, hsame, hnonneg⟩ := h.ok s hs
  exact ⟨hcharged, hsame, fun _ => hnonneg hpos.le⟩

theorem orElseInsufficient_allOrNothing {fenv : FundingEnv}
    {first second : BillingState → SessionResult}
    (hfirst : ∀ b, b.NewRequest → AllOrNothing fenv quota b (first b))
    (hsecond : ∀ b, b.NewRequest → AllOrNothing fenv quota b (second b))
    (hfresh : b.NewRequest) :
    AllOrNothing fenv quota b (orElseInsufficient first second b) := by
  have h₁ := hfirst b hfresh
  unfold orElseInsufficient
  split
  · rename_i e b' hres
    rw [hres] at h₁
    split
    · obtain ⟨hacc, hsame⟩ := h₁.error e rfl
      have h₂ := hsecond b' (by rw [BillingState.NewRequest, hacc, hsame.1]; exact hfresh)
      constructor
      · intro e' he'
        obtain ⟨hacc', hsame'⟩ := h₂.error e' he'
        exact ⟨hacc'.trans hacc, hsame.trans hsame'⟩
      · intro s hs
        obtain ⟨hcharged, hsame', hnonneg⟩ := h₂.ok s hs
        rw [hacc, hsame.1, hsame.2.1, hsame.2.2] at hcharged
        exact ⟨hcharged, hsame.trans hsame', hnonneg⟩
    · exact h₁
  · exact h₁

include hrollback in
theorem newSessionFor_allOrNothing (hfresh : b.NewRequest) :
    AllOrNothing env.funding quota b (newSessionFor env f quota b) := by
  have hwallet : ∀ b : BillingState, b.NewRequest →
      AllOrNothing env.funding quota b (tryWallet env f quota b) :=
    fun b h => tryWallet_allOrNothing hrollback h
  have hsub : ∀ b : BillingState, b.NewRequest →
      AllOrNothing env.funding quota b (trySubscription env f quota b) :=
    fun b h => trySubscription_allOrNothing hrollback h
  unfold newSessionFor
  split
  · exact hsub b hfresh
  · exact hwallet b hfresh
  · exact orElseInsufficient_allOrNothing hwallet hsub hfresh
  · split
    · exact .of_error _
    · split
      · exact hwallet b hfresh
      · exact orElseInsufficient_allOrNothing hsub hwallet hfresh

end AllOrNothing

theorem newBillingSession_some (env : SessionEnv) (f : SessionFaults) (info : RelayInfo)
    (quota : Int) (a : Accounts) : newBillingSession env f (some info) quota a =
      ((newSessionFor env f quota ⟨info, a⟩).1, some (newSessionFor env f quota ⟨info, a⟩).2.info,
        (newSessionFor env f quota ⟨info, a⟩).2.accounts) := rfl

/-- **`NewBillingSession` is all or nothing.** An error leaves wallet, token and subscriptions as
they were; a session has charged exactly one source, and the token alike. Other subscriptions see at
most resets that were due. -/
theorem newBillingSession_all_or_nothing (env : SessionEnv) (f : SessionFaults) (info : RelayInfo)
    (quota : Int) (a : Accounts) (hquota : 0 ≤ quota)
    (hfresh : a.store.records.find? info.requestId = none)
    (hrollback : ∀ src, f.rollbackToken src = none) :
    (∀ e, (newBillingSession env f (some info) quota a).1 = .error (.api e) →
      (newBillingSession env f (some info) quota a).2.2 = a) ∧
    ∀ s a', (newBillingSession env f (some info) quota a).1 = .ok s →
      (newBillingSession env f (some info) quota a).2.2 = a' → (match s.funding with
        | .wallet _ =>
          a'.user.balance = a.user.balance - s.getPreConsumedQuota ∧ a'.store = a.store
        | .subscription sub =>
          a'.user = a.user ∧
            ∃ r, Charged env.funding.sub env.funding.dbNow info.requestId info.userId
              s.getPreConsumedQuota a.store a'.store sub.subscriptionId r) ∧
      a'.token.balance =
        a.token.balance - (if info.isPlayground then 0 else s.getPreConsumedQuota) := by
  have hspec : AllOrNothing env.funding quota ⟨info, a⟩ (newSessionFor env f quota ⟨info, a⟩) :=
    newSessionFor_allOrNothing hrollback hfresh
  rw [newBillingSession_some]
  generalize newSessionFor env f quota ⟨info, a⟩ = out at hspec ⊢
  refine ⟨fun e he => (hspec.error e he).1, ?_⟩
  rintro s a' hs rfl
  obtain ⟨hcharged, -, hnonneg⟩ := hspec.ok s hs
  have hmax : max s.preConsumedQuota 0 = s.preConsumedQuota := max_eq_left (hnonneg hquota)
  have hfunding := hcharged.funding
  have htoken := hcharged.token
  rw [hmax] at htoken
  refine ⟨?_, htoken⟩
  cases hsrc : s.funding with
  | wallet w =>
    rw [hsrc, FundingCharged, hmax] at hfunding
    exact ⟨hfunding.1, hfunding.2.1⟩
  | subscription sub =>
    rw [hsrc] at hfunding
    obtain ⟨huser, -, -, hsub⟩ := hfunding
    exact ⟨huser, hsub⟩

def SessionFaults.none : SessionFaults :=
  ⟨.none, .none, fun _ => .none, fun _ => .none, fun _ => .none, ⟨.none, PreConsumeFaults.none⟩⟩

def plainEnv : SessionEnv where
  funding :=
    { sub := ⟨.utc, 10, fun id => .ok ⟨id, "basic", "month", 1, 0, 0, "", 100, "never", 0⟩⟩
      dbNow := 100
      batchUpdateEnabled := false
      planInfo := fun _ => none }
  now := 100
  trustQuota := 0
  tokenQuota := 0
  formatQuota := fun quota => toString quota
  cachedUserQuota := none
  cachedTokenQuota := fun _ => none

def plainInfo (billingPreference : String) : RelayInfo :=
  { userId := 1, requestId := "req", originModelName := "m", isPlayground := false
    tokenUnlimited := false, forcePreConsume := false, userQuota := 0, billingPreference
    finalPreConsumedQuota := 0, billingSource := none, subscriptionId := 0
    subscriptionPreConsumed := 0, subscriptionPostDelta := 0, subscriptionAmountTotal := 0
    subscriptionAmountUsedAfterPreConsume := 0, subscriptionPlanId := 0
    subscriptionPlanTitle := "" }

def walletAccounts : Accounts := ⟨⟨50, 0⟩, ⟨80, 0, 0⟩, ⟨.empty, .empty⟩⟩

/-- A wallet session over `30`. -/
theorem newBillingSession_walletAccounts :
    (newBillingSession plainEnv .none (some (plainInfo "wallet_only")) 30 walletAccounts).1 =
        .ok ⟨.wallet ⟨30⟩, 30, 30, false, false, false⟩ ∧
      (newBillingSession plainEnv .none (some (plainInfo "wallet_only")) 30
        walletAccounts).2.2.token.balance = 80 - 30 := by
  have hok : (newBillingSession plainEnv .none (some (plainInfo "wallet_only")) 30
      walletAccounts).1 = .ok ⟨.wallet ⟨30⟩, 30, 30, false, false, false⟩ := by decide
  have hall := newBillingSession_all_or_nothing plainEnv .none (plainInfo "wallet_only") 30
    walletAccounts (by decide) (by decide) (fun _ => rfl)
  have htoken := (hall.2 _ _ hok rfl).2
  exact ⟨hok, htoken.trans (by decide)⟩

end NomoApi
