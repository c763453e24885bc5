import NomoApi.Billing.Session
import NomoApi.Lib.Run

/-! # The life of a billing session

What any sequence of `Settle` and `Refund` (`service/billing_session.go`) does to the funding source
and the token. Only the first effective call should get through, but `Settle` does not look at
`refunded`. -/

namespace NomoApi

open FundingSource Option TokenAccount

/-! ## The calls -/

def adjustToken (batch : Bool) (fault : Option String) (isPlayground : Bool) (delta : Int)
    (token : TokenAccount) : Except Halt TokenAccount :=
  if isPlayground then .ok token
  else if delta > 0 then decreaseTokenQuota batch fault delta token
  else increaseTokenQuota batch fault (-delta) token

/-- A token that fails is reported, but the session counts as settled. -/
def BillingSession.settle (batch : Bool) (f : SettleFaults) (actualQuota : Int)
    (s : BillingSession) (b : BillingState) :
    Except Halt Unit × BillingSession × BillingState :=
  if s.settled then (.ok (), s, b)
  else
    let delta := actualQuota - s.preConsumedQuota
    if delta = 0 then (.ok (), { s with settled := true }, b)
    else
      match (if s.fundingSettled then .ok b.accounts
        else s.funding.settle batch f delta b.accounts) with
      | .error e => (.error e, s, b)
      | .ok accounts =>
        let s' := { s with fundingSettled := true, settled := true }
        let info :=
          if s.funding.source = .subscription then
            { b.info with subscriptionPostDelta := b.info.subscriptionPostDelta + delta }
          else b.info
        match adjustToken batch f.token b.info.isPlayground delta accounts.token with
        | .error e => (.error e, s', ⟨info, accounts⟩)
        | .ok token => (.ok (), s', ⟨info, accounts.withToken token⟩)

def BillingSession.needsRefund (s : BillingSession) : Bool :=
  if s.settled || s.refunded || s.fundingSettled then false
  else if s.tokenConsumed > 0 then true
  else
    match s.funding with
    | .subscription sub => sub.preConsumed > 0
    | .wallet _ => false

/-- **`Refund`**, at once and not in the background; failures are only logged. -/
def BillingSession.refund (batch : Bool) (f : SessionRefundFaults) (s : BillingSession)
    (b : BillingState) : BillingSession × BillingState :=
  if s.settled ∨ s.refunded ∨ ¬ s.needsRefund then (s, b)
  else
    let accounts := (s.funding.refund batch f b.accounts).2
    let token := returnToken batch f.token b.info.isPlayground s.tokenConsumed accounts.token
    ({ s with refunded := true }, { b with accounts := accounts.withToken token })

/-! ## Runs of calls -/

inductive SessionCall where
  | settle (actualQuota : Int)
  | refund
  deriving DecidableEq

open SessionCall

structure Lifecycle where
  session : BillingSession
  state : BillingState
  first : Option SessionCall

open Lifecycle

def SessionCall.Effective (s : BillingSession) : SessionCall → Prop
  | .settle _ => s.settled = false
  | .refund => s.settled = false ∧ s.refunded = false ∧ s.needsRefund = true

instance (s : BillingSession) : (c : SessionCall) → Decidable (c.Effective s)
  | .settle _ => inferInstanceAs (Decidable (_ = _))
  | .refund => inferInstanceAs (Decidable (_ ∧ _ ∧ _))

def Lifecycle.step (batch : Bool) (l : Lifecycle) (c : SessionCall) : Lifecycle :=
  let first := if c.Effective l.session then l.first <|> some c else l.first
  match c with
  | .settle actualQuota =>
    let out := l.session.settle batch .none actualQuota l.state
    ⟨out.2.1, out.2.2, first⟩
  | .refund =>
    let out := l.session.refund batch .none l.state
    ⟨out.1, out.2, first⟩

/-- **The net amount taken from the funding source** since the accounts were `a₀`; of a
subscription, since the reset that was due. -/
def FundingSource.taken (env : FundingEnv) (a₀ a : Accounts) : FundingSource → Option Int
  | .wallet _ => some (a₀.user.balance - a.user.balance)
  | .subscription sub => do
      let r₀ ← a₀.store.subs.find? sub.subscriptionId
      let r ← a.store.subs.find? sub.subscriptionId
      return r.amountUsed - (dueReset env.sub env.dbNow r₀).amountUsed

/-- **The amount that should have been taken**, by the first effective call. -/
def expectedTaken (p : Int) : Option SessionCall → Int
  | none => p
  | some (.settle q) => q
  | some .refund => 0

variable (env : FundingEnv) (a₀ : Accounts)

/-- **The books balance**: source and token have both given the expected amount. -/
def Lifecycle.Balanced (p : Int) (l : Lifecycle) : Prop :=
  l.session.funding.taken env a₀ l.state.accounts = some (expectedTaken p l.first) ∧
    a₀.token.balance - l.state.accounts.token.balance = expectedTaken p l.first
deriving Decidable

def Lifecycle.Succeeds (batch : Bool) (l : Lifecycle) : SessionCall → Prop
  | .settle q => (l.session.settle batch .none q l.state).1 = .ok ()
  | .refund => refund.Effective l.session →
      (l.session.funding.refund batch .none l.state.accounts).1 = .ok ()

/-- The used amount of a subscription does not go below zero with a total of `x`. -/
def FundingSource.Bookable (x : Int) : FundingSource → Prop
  | .wallet _ => True
  | .subscription sub => ∀ r₀, a₀.store.subs.find? sub.subscriptionId = some r₀ →
      0 ≤ (dueReset env.sub env.dbNow r₀).amountUsed + x

/-- **The condition on a call**: no effect, or exactly the pre-charge settled, or before any refund
with a total that can be booked. -/
def Lifecycle.Sound (l : Lifecycle) (c : SessionCall) : Prop :=
  ¬ c.Effective l.session ∨ c = .settle l.session.preConsumedQuota ∨
    (l.session.refunded = false ∧
      l.session.funding.Bookable env a₀ (expectedTaken 0 (some c)))

/-! ## What a settlement and a refund take -/

section Taken

variable {env : FundingEnv} {a₀ a a' : Accounts} {src : FundingSource} {batch : Bool}

theorem taken_subscription {sub : SubscriptionFunding} {t : Int} :
    (FundingSource.subscription sub).taken env a₀ a = some t ↔
      ∃ r₀ r, a₀.store.subs.find? sub.subscriptionId = some r₀ ∧
        a.store.subs.find? sub.subscriptionId = some r ∧
        r.amountUsed - (dueReset env.sub env.dbNow r₀).amountUsed = t := by
  simp only [taken, bind_eq_bind, pure_def, bind_eq_some_iff, some.injEq, exists_and_left]

theorem taken_move {sub : SubscriptionFunding} {t delta : Int} {r : UserSubscription}
    (hr : a.store.subs.find? sub.subscriptionId = some r)
    (hr' : a'.store.subs.find? sub.subscriptionId = some (r.withUsed (newUsed r.amountUsed delta)))
    (ht : (FundingSource.subscription sub).taken env a₀ a = some t) :
    ∃ t', (FundingSource.subscription sub).taken env a₀ a' = some t' ∧
      (t' = t + delta ↔ (FundingSource.subscription sub).Bookable env a₀ (t + delta)) := by
  obtain ⟨r₀, r₁, hr₀, hr₁, rfl⟩ := taken_subscription.mp ht
  rw [hr] at hr₁
  cases hr₁
  refine ⟨_, taken_subscription.mpr ⟨r₀, _, hr₀, hr', rfl⟩, ?_⟩
  simp only [Bookable, hr₀, some.injEq, forall_eq', UserSubscription.withUsed_amountUsed,
    newUsed_eq]
  split <;> omega

theorem FundingSource.settle_taken {delta t : Int} (hdelta : delta ≠ 0)
    (ht : src.taken env a₀ a = some t) (h : src.settle batch .none delta a = .ok a') :
    a'.token = a.token ∧ a'.store.records = a.store.records ∧
      ∃ t', src.taken env a₀ a' = some t' ∧ (t' = t + delta ↔ src.Bookable env a₀ (t + delta)) := by
  unfold settle at h
  rw [if_neg hdelta] at h
  cases src with
  | wallet w =>
    obtain ⟨user, huser, h⟩ := bind_eq_ok.mp h
    cases h
    have hbal := balance_adjustUser huser
    simp only [taken, some.injEq] at ht
    refine ⟨rfl, rfl, t + delta, ?_, ?_⟩
    · simp only [taken, some.injEq]
      omega
    · simp [Bookable]
  | subscription sub =>
    obtain ⟨r₀, r, -, hr, -⟩ := taken_subscription.mp ht
    obtain ⟨⟨_, store⟩, hpost, h⟩ := bind_eq_ok.mp h
    cases h
    obtain ⟨-, -, rfl⟩ := postConsumeUserSubscriptionDelta_inv hdelta hr hpost
    exact ⟨rfl, rfl, taken_move hr (SubscriptionStore.find?_move hr delta) ht⟩

/-- The source holds the record of a charge of `p`, not refunded. -/
def FundingSource.Recorded (p : Int) (st : SubscriptionStore) : FundingSource → Prop
  | .wallet w => w.consumed = p
  | .subscription sub => sub.preConsumed = p ∧
      ∃ userId, st.records.find? sub.requestId =
        some (consumedRecord sub.requestId userId sub.subscriptionId p)

theorem FundingSource.refund_taken {p t : Int} (hp : 0 < p) (hrec : src.Recorded p a.store)
    (ht : src.taken env a₀ a = some t) (h : (src.refund batch .none a).1 = .ok ()) :
    (src.refund batch .none a).2.token = a.token ∧
      ∃ t', src.taken env a₀ (src.refund batch .none a).2 = some t' ∧
        (t' = t + -p ↔ src.Bookable env a₀ (t + -p)) := by
  cases src with
  | wallet w =>
    obtain rfl : w.consumed = p := hrec
    have hpay : (wallet w).refund batch .none a = (.ok (), { a with user := (if batch then
          { a.user with pending := a.user.pending + w.consumed }
          else { a.user with quota := a.user.quota + w.consumed }) }) := by
      simp [refund, if_neg (show ¬ w.consumed ≤ 0 by omega), increaseUserQuota, if_neg (show ¬
        w.consumed < 0 by omega), SessionRefundFaults.none, UserAccount.add_none]
    rw [hpay]
    simp only [taken, some.injEq] at ht
    refine ⟨rfl, t + -w.consumed, ?_, ?_⟩
    · simp only [taken, some.injEq, UserAccount.balance] at ht ⊢
      cases batch <;> simp <;> omega
    · simp [Bookable]
  | subscription sub =>
    obtain ⟨hpre, userId, hrecord⟩ := hrec
    obtain ⟨r₀, r, -, hr, -⟩ := taken_subscription.mp ht
    have hcall : sub.refund (fun _ => .none) a.store = retryFrom
        (fun _ => refundSubscriptionPreConsume .none sub.requestId) maxAttempts 0 .diverge
        a.store := by
      rw [SubscriptionFunding.refund, if_neg (by omega), refundWithRetry]
    rcases refundSubscriptionPreConsume_none hrecord rfl hp hr with hok | ⟨e, he⟩
    · have hstore : (sub.refund (fun _ => .none) a.store).2 = (a.store.move r (-p)).mark
            (consumedRecord sub.requestId userId sub.subscriptionId p) := by
        rw [hcall, maxAttempts, retryFrom, hok]
        rfl
      refine ⟨rfl, taken_move hr ?_ ht⟩
      show (sub.refund (fun _ => .none) a.store).2.subs.find? sub.subscriptionId = _
      rw [hstore]
      exact SubscriptionStore.find?_move hr (-p)
    · -- the same attempt fails three times
      have hfail : (sub.refund (fun _ => .none) a.store).1 = .error e := by
        rw [hcall]
        simp [maxAttempts, retryFrom, he]
      have hok : (sub.refund (fun _ => .none) a.store).1 = .ok () := h
      rw [hfail] at hok
      cases hok

theorem adjustToken_none (delta : Int) (token : TokenAccount) :
    ∃ token', adjustToken batch none false delta token = .ok token' ∧
      token'.balance = token.balance - delta := by
  unfold adjustToken
  rw [if_neg Bool.false_ne_true]
  split
  · rw [decreaseTokenQuota, if_neg (by omega), add_none]
    refine ⟨_, rfl, ?_⟩
    rw [balance_add (add_none batch (-delta) token)]
    omega
  · rw [increaseTokenQuota, if_neg (by omega), add_none]
    refine ⟨_, rfl, ?_⟩
    rw [balance_add (add_none batch (-delta) token)]
    omega

theorem balance_returnToken {p : Int} (hp : 0 < p) (token : TokenAccount) :
    (returnToken batch none false p token).balance = token.balance + p := by
  unfold returnToken
  rw [if_pos ⟨hp, Bool.false_ne_true⟩, increaseTokenQuota, if_neg (by omega)]
  have hadd := add_none batch p token
  rw [hadd]
  exact balance_add hadd

end Taken

/-! ## The steps of a life -/

/-- **What holds along a life** of a session with source `src` and pre-charge `p`. -/
structure Lifecycle.Inv (src : FundingSource) (p : Int) (l : Lifecycle) : Prop where
  funding : l.session.funding = src
  preConsumed : l.session.preConsumedQuota = p
  tokenConsumed : l.session.tokenConsumed = p
  isPlayground : l.state.info.isPlayground = false
  fundingSettled : l.session.settled = false → l.session.fundingSettled = false
  untouched : l.session.settled = false → l.session.refunded = false → l.first = none
  refunded : l.session.refunded = true → l.first = some .refund
  recorded : l.session.settled = false → l.session.refunded = false →
    src.Recorded p l.state.accounts.store

section Step

variable {env : FundingEnv} {batch : Bool} {a₀ : Accounts} {src : FundingSource} {p q : Int}
  {l : Lifecycle}

theorem step_of_not_effective {c : SessionCall} (h : ¬ c.Effective l.session) :
    l.step batch c = l := by
  cases c with
  | settle q =>
    have hs : l.session.settled = true := by simpa [Effective] using h
    simp [step, if_neg h, BillingSession.settle, if_pos hs]
  | refund =>
    have hguard : l.session.settled = true ∨ l.session.refunded = true ∨
        ¬ l.session.needsRefund = true := by
      simp only [Effective] at h
      by_contra hno
      simp only [not_or, Bool.not_eq_true] at hno
      exact h ⟨hno.1, hno.2.1, by simpa using hno.2.2⟩
    simp only [step, if_neg h, BillingSession.refund, if_pos hguard]

theorem step_settle_same (hs : l.session.settled = false) :
    l.step batch (.settle l.session.preConsumedQuota) =
      ⟨{ l.session with settled := true }, l.state,
        l.first <|> some (.settle l.session.preConsumedQuota)⟩ := by
  have heff : (SessionCall.settle l.session.preConsumedQuota).Effective l.session := hs
  simp only [step, if_pos heff, BillingSession.settle, hs, Bool.false_eq_true, if_false,
    Int.sub_self, if_true]

theorem step_settle (hinv : l.Inv src p) (hs : l.session.settled = false) (hq : q ≠ p)
    (hsucc : l.Succeeds batch (.settle q)) :
    ∃ a' b', src.settle batch .none (q - p) l.state.accounts = .ok a' ∧ l.step batch (.settle q) =
        ⟨{ l.session with fundingSettled := true, settled := true }, b',
          l.first <|> some (.settle q)⟩ ∧
      b'.info.isPlayground = false ∧ b'.accounts.user = a'.user ∧ b'.accounts.store = a'.store ∧
      b'.accounts.token.balance = a'.token.balance - (q - p) := by
  have heff : (SessionCall.settle q).Effective l.session := hs
  have hdelta : ¬ q - p = 0 := by omega
  have hfs := hinv.fundingSettled hs
  unfold Succeeds BillingSession.settle at hsucc
  unfold step BillingSession.settle
  simp only [hs, hfs, hinv.funding, hinv.preConsumed, hinv.isPlayground, Bool.false_eq_true,
    if_false, hdelta, if_pos heff] at hsucc ⊢
  cases hset : src.settle batch .none (q - p) l.state.accounts with
  | error e =>
    rw [hset] at hsucc
    cases hsucc
  | ok a' =>
    obtain ⟨token', htok, hbal⟩ := @adjustToken_none batch (q - p) a'.token
    have htok' : adjustToken batch SettleFaults.none.token false (q - p) a'.token =
        .ok token' := htok
    simp only [htok']
    refine ⟨a', _, rfl, rfl, ?_, rfl, rfl, hbal⟩
    show (if src.source = .subscription then _ else l.state.info).isPlayground = false
    split
    · rfl
    · exact hinv.isPlayground

theorem step_refund (hinv : l.Inv src p) (heff : refund.Effective l.session) :
    l.step batch .refund = ⟨{ l.session with refunded := true },
        ⟨l.state.info, (src.refund batch .none l.state.accounts).2.withToken
          (returnToken batch none false p (src.refund batch .none l.state.accounts).2.token)⟩,
        l.first <|> some .refund⟩ := by
  have hguard : ¬ (l.session.settled = true ∨ l.session.refunded = true ∨
      ¬ l.session.needsRefund = true) := by
    simp [heff.1, heff.2.1, heff.2.2]
  simp only [step, if_pos heff, BillingSession.refund, if_neg hguard, hinv.funding,
    hinv.isPlayground, hinv.tokenConsumed, SessionRefundFaults.none]

theorem pos_of_needsRefund (hinv : l.Inv src p) (heff : refund.Effective l.session) : 0 < p := by
  obtain ⟨hs, hr, hneed⟩ := heff
  have hrec := hinv.recorded hs hr
  have hfs := hinv.fundingSettled hs
  unfold BillingSession.needsRefund at hneed
  rw [hs, hr, hfs, hinv.tokenConsumed, hinv.funding] at hneed
  simp only [Bool.or_self, Bool.false_eq_true, if_false] at hneed
  split at hneed
  · assumption
  · cases src with
    | wallet w => cases hneed
    | subscription sub =>
      rw [← hrec.1]
      simpa using hneed

theorem taken_congr {a a' : Accounts} (huser : a'.user = a.user) (hstore : a'.store = a.store) :
    src.taken env a₀ a' = src.taken env a₀ a := by
  cases src with
  | wallet w => simp only [taken, huser]
  | subscription sub => simp only [taken, hstore]

section

variable (hinv : l.Inv src p) (hbal : l.Balanced env a₀ p)

include hinv hbal

theorem balanced_settle_same (hs : l.session.settled = false) :
    (l.step batch (.settle l.session.preConsumedQuota)).Balanced env a₀ p := by
  have hexp : expectedTaken p (l.first <|> some (.settle l.session.preConsumedQuota)) =
      expectedTaken p l.first := by
    cases l.first with
    | none => exact hinv.preConsumed
    | some c => rfl
  rw [step_settle_same hs, Lifecycle.Balanced]
  dsimp only
  rw [hexp]
  exact hbal

theorem step_settle_balanced_iff (hs : l.session.settled = false)
    (hsucc : l.Succeeds batch (.settle q)) :
    (l.step batch (.settle q)).Balanced env a₀ p ↔ l.Sound env a₀ (.settle q) := by
  by_cases hq : q = p
  · -- nothing moves, and the expected amount does not change either
    rw [show q = l.session.preConsumedQuota from hq.trans hinv.preConsumed.symm]
    exact iff_of_true (balanced_settle_same hinv hbal hs) (.inr (.inl rfl))
  · obtain ⟨htaken, htoken⟩ := hbal
    rw [hinv.funding] at htaken
    obtain ⟨a', b', hset, hstep, -, huser, hstore, htok⟩ := step_settle hinv hs hq hsucc
    obtain ⟨htok', -, t', ht', hiff⟩ := settle_taken (by omega) htaken hset
    rw [hstep, Lifecycle.Balanced, Sound]
    dsimp only
    rw [hinv.funding, taken_congr huser hstore, ht', htok, htok', some.injEq]
    have heff : (SessionCall.settle q).Effective l.session := hs
    have hne : ¬ SessionCall.settle q = .settle l.session.preConsumedQuota := by
      rw [hinv.preConsumed]
      rintro ⟨⟩
      exact hq rfl
    cases hr : l.session.refunded with
    | true =>
      -- the token has been given back before, so it is now off by the difference
      rw [hinv.refunded hr] at htoken ⊢
      refine iff_of_false ?_ ?_
      · rintro ⟨-, h⟩
        simp only [expectedTaken, orElse_eq_orElse, orElse_some] at htoken h
        omega
      · rintro (h | h | ⟨h, -⟩)
        · exact h heff
        · exact hne h
        · cases h
    | false =>
      rw [hinv.untouched hs hr] at htoken hiff ⊢
      simp only [expectedTaken, orElse_eq_orElse, orElse_none] at htoken hiff ⊢
      rw [show p + (q - p) = q by omega] at hiff
      rw [hiff]
      constructor
      · rintro ⟨hbook, -⟩
        exact .inr (.inr ⟨trivial, hbook⟩)
      · rintro (h | h | ⟨-, hbook⟩)
        · exact absurd heff h
        · exact absurd h hne
        · exact ⟨hbook, by omega⟩

theorem step_refund_balanced_iff (heff : refund.Effective l.session)
    (hsucc : l.Succeeds batch .refund) :
    (l.step batch .refund).Balanced env a₀ p ↔ l.Sound env a₀ .refund := by
  obtain ⟨htaken, htoken⟩ := hbal
  rw [hinv.funding] at htaken
  have hp := pos_of_needsRefund hinv heff
  obtain ⟨hs, hr, -⟩ := id heff
  obtain ⟨htok, t', ht', hiff⟩ :=
    refund_taken hp (hinv.recorded hs hr) htaken (hinv.funding ▸ hsucc heff)
  rw [hinv.untouched hs hr] at htoken hiff
  rw [step_refund hinv heff, Lifecycle.Balanced, Sound]
  dsimp only
  rw [hinv.funding, taken_congr (Accounts.withToken_user ..) (Accounts.withToken_store ..), ht',
    Accounts.withToken_token, balance_returnToken hp, htok, hinv.untouched hs hr,
    some.injEq]
  simp only [expectedTaken, orElse_eq_orElse, orElse_none] at htoken hiff ⊢
  rw [show p + -p = 0 by omega] at hiff
  rw [hiff]
  constructor
  · rintro ⟨hbook, -⟩
    exact .inr (.inr ⟨hr, hbook⟩)
  · rintro (h | h | ⟨-, hbook⟩)
    · exact absurd heff h
    · cases h
    · exact ⟨hbook, by omega⟩

end

theorem step_balanced_iff (c : SessionCall) (hinv : l.Inv src p) (hbal : l.Balanced env a₀ p)
    (hsucc : l.Succeeds batch c) : (l.step batch c).Balanced env a₀ p ↔ l.Sound env a₀ c := by
  by_cases heff : c.Effective l.session
  · cases c with
    | settle q => exact step_settle_balanced_iff hinv hbal heff hsucc
    | refund => exact step_refund_balanced_iff hinv hbal heff hsucc
  · rw [step_of_not_effective heff]
    exact iff_of_true hbal (.inl heff)

theorem step_inv (c : SessionCall) (hinv : l.Inv src p) (hsucc : l.Succeeds batch c) :
    (l.step batch c).Inv src p := by
  by_cases heff : c.Effective l.session
  · cases c with
    | settle q =>
      have hs : l.session.settled = false := heff
      have hfirst : ∀ q, l.session.refunded = true →
          (l.first <|> some (.settle q)) = some .refund := by
        intro q hr
        rw [hinv.refunded hr]
        rfl
      by_cases hq : q = p
      · rw [show q = l.session.preConsumedQuota from hq.trans hinv.preConsumed.symm,
          step_settle_same hs]
        exact ⟨hinv.funding, hinv.preConsumed, hinv.tokenConsumed, hinv.isPlayground,
          (by rintro ⟨⟩), (by rintro ⟨⟩), hfirst _, (by rintro ⟨⟩)⟩
      · obtain ⟨a', b', -, hstep, hplay, -⟩ := step_settle hinv hs hq hsucc
        rw [hstep]
        exact ⟨hinv.funding, hinv.preConsumed, hinv.tokenConsumed, hplay,
          (by rintro ⟨⟩), (by rintro ⟨⟩), hfirst _, (by rintro ⟨⟩)⟩
    | refund =>
      obtain ⟨hs, hr, -⟩ := id heff
      rw [step_refund hinv heff, hinv.untouched hs hr]
      exact ⟨hinv.funding, hinv.preConsumed, hinv.tokenConsumed, hinv.isPlayground,
        hinv.fundingSettled, fun _ h => (by cases h), fun _ => rfl, fun _ h => (by cases h)⟩
  · rw [step_of_not_effective heff]
    exact hinv

end Step

/-! ## Whole lives -/

def Lifecycle.start (s : BillingSession) (info : RelayInfo) (a : Accounts) : Lifecycle :=
  ⟨s, ⟨info, a⟩, none⟩

section Start

variable {env : FundingEnv} {info info' : RelayInfo} {s : BillingSession} {a₀ a : Accounts}
  (hopen : SessionCharged env info.requestId info.userId false s a₀ a)

include hopen in
theorem start_balanced_iff :
    (start s info' a).Balanced env a₀ s.preConsumedQuota ↔ 0 ≤ s.preConsumedQuota := by
  have htoken := hopen.token
  have hfunding := hopen.funding
  rw [if_neg Bool.false_ne_true] at htoken
  constructor
  · rintro ⟨-, h⟩
    have h' : a₀.token.balance - a.token.balance = s.preConsumedQuota := h
    have := le_max_right s.preConsumedQuota 0
    omega
  · intro hp
    rw [max_eq_left hp] at htoken
    refine ⟨?_, show a₀.token.balance - a.token.balance = s.preConsumedQuota by omega⟩
    show s.funding.taken env a₀ a = some s.preConsumedQuota
    cases hsrc : s.funding with
    | wallet w =>
      rw [hsrc, FundingCharged, max_eq_left hp] at hfunding
      simp only [taken, some.injEq]
      omega
    | subscription sub =>
      rw [hsrc] at hfunding
      obtain ⟨-, -, -, r, hcharged⟩ := hfunding
      refine taken_subscription.mpr ⟨r, _, hcharged.before, hcharged.after, ?_⟩
      rw [UserSubscription.withUsed_amountUsed]
      omega

include hopen in
theorem start_inv (hp : 0 ≤ s.preConsumedQuota) (hplay : info'.isPlayground = false) :
    (start s info' a).Inv s.funding s.preConsumedQuota where
  funding := rfl
  preConsumed := rfl
  tokenConsumed := hopen.tokenConsumed.trans (max_eq_left hp)
  isPlayground := hplay
  fundingSettled := fun _ => hopen.fundingSettled
  untouched := fun _ _ => rfl
  refunded := fun h => by
    have : s.refunded = true := h
    rw [hopen.refunded] at this
    cases this
  recorded := fun _ _ => by
    have hfunding := hopen.funding
    cases hsrc : s.funding with
    | wallet w =>
      rw [hsrc, FundingCharged, max_eq_left hp] at hfunding
      exact hfunding.2.2
    | subscription sub =>
      rw [hsrc] at hfunding
      obtain ⟨-, hreq, hpre, r, hcharged⟩ := hfunding
      refine ⟨hpre, info.userId, ?_⟩
      rw [hreq]
      exact hcharged.recorded

end Start

/-- **Exactly when the books of a session balance along its life**, in any order of `Settle` and
`Refund`, all quota operations succeeding. -/
theorem session_balanced_iff (env : SessionEnv) (f : SessionFaults) (info info' : RelayInfo)
    (quota : Int) (a₀ a : Accounts) (s : BillingSession)
    (hfresh : a₀.store.records.find? info.requestId = none)
    (hrollback : ∀ src, f.rollbackToken src = none) (hplay : info.isPlayground = false)
    (hopen : newBillingSession env f (some info) quota a₀ = (.ok s, some info', a))
    (calls : List SessionCall) (hsucc : AllSteps (Succeeds env.funding.batchUpdateEnabled)
      (step env.funding.batchUpdateEnabled) (.start s info' a) calls) :
    Always (Balanced env.funding a₀ s.getPreConsumedQuota)
        (step env.funding.batchUpdateEnabled) (.start s info' a) calls ↔ 0 ≤ s.getPreConsumedQuota ∧
        AllSteps (Sound env.funding a₀) (step env.funding.batchUpdateEnabled)
          (.start s info' a) calls := by
  have hspec : AllOrNothing env.funding quota ⟨info, a₀⟩ (newSessionFor env f quota ⟨info, a₀⟩) :=
    newSessionFor_allOrNothing hrollback hfresh
  rw [newBillingSession_some] at hopen
  generalize newSessionFor env f quota ⟨info, a₀⟩ = out at hspec hopen
  obtain ⟨res, b⟩ := out
  cases hopen
  obtain ⟨hcharged, hsame, -⟩ := hspec.ok s rfl
  have hplay' : b.info.isPlayground = false := hsame.2.2.trans hplay
  have hcharged' : SessionCharged env.funding info.requestId info.userId false s a₀ b.accounts :=
    hplay ▸ hcharged
  have hrun := fun hp : 0 ≤ s.preConsumedQuota => always_iff_allSteps
    (fun l c (hinv : l.Inv s.funding s.preConsumedQuota) hbal hs =>
      step_balanced_iff c hinv hbal hs)
    (fun l c hinv _ hs _ => step_inv c hinv hs)
    (start_inv hcharged' hp hplay') ((start_balanced_iff hcharged').mpr hp) hsucc
  constructor
  · intro h
    have hp := (start_balanced_iff hcharged').mp (h [] List.nil_prefix)
    exact ⟨hp, (hrun hp).mp h⟩
  · rintro ⟨hp, hC⟩
    exact (hrun hp).mpr hC

/-! ### A settlement after a refund -/

def walletSession : Lifecycle :=
  .start ⟨.wallet ⟨30⟩, 30, 30, false, false, false⟩
    { plainInfo "wallet_only" with
      userQuota := 50, finalPreConsumedQuota := 30, billingSource := some .wallet }
    ⟨⟨20, 0⟩, ⟨50, 30, 0⟩, ⟨.empty, .empty⟩⟩

/-- After a refund and a settlement of `40`, both ledgers have given ten. -/
theorem settle_after_refund :
    newBillingSession plainEnv .none (some (plainInfo "wallet_only")) 30 walletAccounts =
        (.ok walletSession.session, some walletSession.state.info, walletSession.state.accounts) ∧
      (run (step false) walletSession [.refund, .settle 40]).first = some .refund ∧
      ¬ (run (step false) walletSession [.refund, .settle 40]).Balanced
        plainEnv.funding walletAccounts 30 := by
  refine ⟨rfl, ?_⟩
  decide

/-- A settlement followed by a refund keeps the books. -/
theorem session_balanced_walletSession :
    Always (Balanced plainEnv.funding walletAccounts 30) (step false)
      walletSession [.settle 40, .refund] := by
  refine (session_balanced_iff plainEnv .none (plainInfo "wallet_only") walletSession.state.info 30
    walletAccounts walletSession.state.accounts walletSession.session (by decide) (fun _ => rfl) rfl
    rfl [.settle 40, .refund] ⟨rfl, fun h => absurd h (by decide), trivial⟩).mpr
    ⟨by decide, .inr (.inr ⟨rfl, trivial⟩), .inl (by decide), trivial⟩

end NomoApi
