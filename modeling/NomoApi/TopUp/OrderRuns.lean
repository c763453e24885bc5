import NomoApi.TopUp.Events

/-! # Runs of payment events on one order

`sessionExpired` expires an order that was paid already; and `EpayNotify`, which saves the order
before it credits the user, leaves a paid order without its credit when the credit fails. -/

namespace NomoApi

open Option PaymentCall PaymentState

/-- **A run on one order**: the tables, and the committed credits, oldest first. -/
structure OrderRun where
  state : PaymentState
  credits : List ℚ

open OrderRun

variable (tradeNo : String) (r : OrderRun)

def OrderRun.step (c : PaymentCall) : OrderRun :=
  ⟨(c.outcome tradeNo r.state).state, r.credits ++ (c.outcome tradeNo r.state).credit.toList⟩

def OrderRun.status? : Option TopUpStatus :=
  (r.state.store.orders.find? tradeNo).map TopUp.status

/-- **The status may go** from pending to success or from pending to expired, or stay. -/
def TopUpStatus.Follows (before after : TopUpStatus) : Prop :=
  after = before ∨ (before = .pending ∧ (after = .success ∨ after = .expired))
deriving Decidable

def OrderRun.StatusFollows (c : PaymentCall) : Prop :=
  ∀ before after, r.status? tradeNo = some before →
    (r.step tradeNo c).status? tradeNo = some after → before.Follows after

/-- **The steps that break the status**: an expiry that reaches a paid order, and the completion of
a pending subscription order that has the number of an expired one. -/
def OrderRun.Breaks (c : PaymentCall) : Prop :=
  (c.Expires tradeNo r.state ∧ r.status? tradeNo = some .success) ∨
    (c.Subscribes tradeNo r.state ∧ r.status? tradeNo = some .expired)

section Steps

variable {tradeNo : String} {r : OrderRun} {c : PaymentCall} {o : TopUp}

theorem statusFollows_iff_not_breaks (ho : r.state.store.orders.find? tradeNo = some o) :
    r.StatusFollows tradeNo c ↔ ¬ r.Breaks tradeNo c := by
  obtain ⟨o', ho', -, -, heffect⟩ := call_effect (c := c) ho
  have hbefore : r.status? tradeNo = some o.status := by rw [status?, ho, map_some]
  have hafter : (r.step tradeNo c).status? tradeNo = some o'.status := by
    rw [status?, step, ho', map_some]
  have hfollows : r.StatusFollows tradeNo c ↔ o.status.Follows o'.status := by
    simp [StatusFollows, hbefore, hafter]
  rw [hfollows, Breaks, hbefore, some_inj, some_inj]
  generalize (c.outcome tradeNo r.state).credit = credit at heffect
  cases heffect with
  | idle hexpires hsubscribes =>
    exact iff_of_true (.inl rfl) fun h => h.elim (fun h => hexpires h.1) fun h => hsubscribes h.1
  | paid hpending hpaid =>
    rw [hpending, hpaid]
    exact iff_of_true (by decide) fun h =>
      h.elim (fun h => absurd h.2 (by decide)) fun h => absurd h.2 (by decide)
  | expired hexpires =>
    have hsubscribes : ¬ c.Subscribes tradeNo r.state := fun h => by
      have := h.checkout
      rw [hexpires.event] at this
      cases this
    cases hstatus : o.status <;> simp [TopUpStatus.Follows, hexpires, hsubscribes]
  | listed hsubscribes hpaid =>
    have hexpires : ¬ c.Expires tradeNo r.state := fun h => by
      have := hsubscribes.checkout
      rw [h.event] at this
      cases this
    cases hstatus : o.status <;> simp [TopUpStatus.Follows, hexpires, hsubscribes, hpaid]

/-- **At most one credit so far**, and none while the order is pending. -/
def OrderRun.CreditedOnce (tradeNo : String) (r : OrderRun) : Prop :=
  ∃ o, r.state.store.orders.find? tradeNo = some o ∧ r.credits.length ≤ 1 ∧
    (o.status = .pending → r.credits = [])

theorem creditedOnce_step (h : r.CreditedOnce tradeNo) :
    (r.step tradeNo c).CreditedOnce tradeNo := by
  obtain ⟨o, ho, hlength, hpending⟩ := h
  obtain ⟨o', ho', -, -, heffect⟩ := call_effect (c := c) ho
  refine ⟨o', ho', ?_⟩
  simp only [step]
  generalize (c.outcome tradeNo r.state).credit = credit at heffect ⊢
  cases heffect with
  | idle => exact ⟨by simpa using hlength, by simpa using hpending⟩
  | paid hbefore hpaid =>
    rw [hpending hbefore, hpaid]
    refine ⟨?_, fun h => by cases h⟩
    cases credit <;> simp
  | expired => exact ⟨by simpa using hlength, fun h => by cases h⟩
  | listed hsubscribes hpaid =>
    rw [hpaid]
    exact ⟨by simpa using hlength, fun h => by cases h⟩

/-- **The credits of a run** are what the user of the order has gained. -/
theorem credited_run (ho : r.state.store.orders.find? tradeNo = some o) (calls : List PaymentCall) :
    credited r.state.store (run (step tradeNo) r calls).state.store o.userId =
      (run (step tradeNo) r calls).credits.sum - r.credits.sum := by
  induction calls generalizing r o with
  | nil => simp [credited]
  | cons c calls ih =>
    obtain ⟨o', ho', huser, hcredit, -⟩ := call_effect (c := c) ho
    have hstep : (r.step tradeNo c).state.store.orders.find? tradeNo = some o' := ho'
    have hsum : ((r.step tradeNo c).credits).sum =
        r.credits.sum + (c.outcome tradeNo r.state).credit.getD 0 := by
      rw [step]
      cases (c.outcome tradeNo r.state).credit <;> simp
    have hrest := ih hstep
    rw [huser, hsum, ← hcredit] at hrest
    rw [run_cons]
    simp only [credited, step] at hrest ⊢
    linarith

end Steps

/-- **The status of an order along a run of events** goes only from pending to success or to
expired, and the user is credited at most once, iff no expiry gets through to a paid order. The
second part holds on every run. -/
theorem status_follows_iff {tradeNo : String} {s : PaymentState} {o : TopUp}
    (ho : s.store.orders.find? tradeNo = some o) (calls : List PaymentCall) :
    (AllSteps (StatusFollows tradeNo) (step tradeNo) ⟨s, []⟩ calls ∧
        (run (step tradeNo) ⟨s, []⟩ calls).credits.length ≤ 1) ↔
      AllSteps (fun r c => ¬ r.Breaks tradeNo c) (step tradeNo) ⟨s, []⟩ calls := by
  have hinit : CreditedOnce tradeNo ⟨s, []⟩ := ⟨o, ho, Nat.zero_le 1, fun _ => rfl⟩
  have hstep : ∀ r c, CreditedOnce tradeNo r → CreditedOnce tradeNo (step tradeNo r c) :=
    fun _ _ => creditedOnce_step
  have hcongr := allSteps_congr (fun s e hI _ => hstep s e hI)
    (fun r c ⟨o, ho, _⟩ => statusFollows_iff_not_breaks (c := c) ho) hinit calls
  obtain ⟨-, -, honce, -⟩ := run_induction hstep hinit calls
  rw [hcongr, and_iff_left honce]

def PaymentCall.working (now : Int) (event : PaymentEvent) : PaymentCall where
  cfg := shopSettings
  db := .working now
  lookup := none
  sub := ⟨now, none, none, .ok "", none, none, none, none, none⟩
  event := event

def stripeState : PaymentState :=
  ⟨(requestPay shopSettings buyer shopStore (.stripe ⟨10, "stripe", "", ""⟩)).2, .empty⟩

def tenUnits : TopUp := ⟨7, 10, 10, "ref_x1", "stripe", 100, 0, .pending⟩

def stripePaid : PaymentCall := .working 200 (.sessionCompleted "cus_1" "complete" "")

theorem credited_run_paid :
    credited stripeState.store (run (step "ref_x1") ⟨stripeState, []⟩ [stripePaid]).state.store 7 =
      (run (step "ref_x1") ⟨stripeState, []⟩ [stripePaid]).credits.sum - 0 :=
  credited_run (o := tenUnits) (by decide +kernel) [stripePaid]

def stripeExpired : PaymentCall := .working 300 (.sessionExpired "expired")

/-- **An order that expires before it is paid** stays expired, without a credit. -/
theorem status_follows_expired_first : stripeState.store.orders.find? "ref_x1" = some tenUnits ∧
      AllSteps (StatusFollows "ref_x1") (step "ref_x1") ⟨stripeState, []⟩
        [stripeExpired, stripePaid] := by
  have ho : stripeState.store.orders.find? "ref_x1" = some tenUnits := by decide +kernel
  refine ⟨ho, ((status_follows_iff ho [stripeExpired, stripePaid]).mpr ⟨?_, ?_, trivial⟩).1⟩
  · rintro (⟨-, hpaid⟩ | ⟨hsubscribes, -⟩)
    · exact absurd hpaid (by decide +kernel)
    · exact absurd hsubscribes.pending (by decide +kernel)
  · rintro (⟨hexpires, -⟩ | ⟨hsubscribes, -⟩)
    · exact absurd hexpires.event (by decide +kernel)
    · exact absurd hsubscribes.pending (by decide +kernel)

/-- **A paid order that Stripe reports as expired** goes from success to expired. -/
theorem paid_order_expires : (mk stripeState []).status? "ref_x1" = some .pending ∧
      (run (step "ref_x1") ⟨stripeState, []⟩ [stripePaid]).status? "ref_x1" = some .success ∧
      (run (step "ref_x1") ⟨stripeState, []⟩ [stripePaid, stripeExpired]).status?
        "ref_x1" = some .expired := by
  refine ⟨?_, ?_, ?_⟩ <;> decide +kernel

/-! ## Epay orders -/

def PaymentEvent.isEpayOrAdmin : PaymentEvent → Bool
  | .epayNotify _ => true
  | .adminCompleteTopUp => true
  | _ => false

def PaymentCall.Pays (c : PaymentCall) (tradeNo : String) (o : TopUp) : Prop :=
  match c.event with
  | .epayNotify tradeStatus => EpayPays c.db tradeStatus o
  | .adminCompleteTopUp => ManualPays c.cfg c.db tradeNo o
  | _ => False

/-- **The credit goes with the mark**: the user is there; a notification can write its quota, which
is not negative; the administrator's way takes the order to be worth its quota. -/
def PaymentCall.CreditsQuota (c : PaymentCall) (s : PaymentState) (o : TopUp) : Prop :=
  (s.store.users.find? o.userId).isSome ∧
    match c.event with
    | .epayNotify _ => EpayCredits c.cfg c.db o
    | _ => manualQuota c.cfg o = unitsQuota c.cfg o.amount

/-- Whenever the call marks the order as paid, it credits the quota of the order. -/
def OrderRun.CreditsWhenPaid (tradeNo : String) (r : OrderRun) (c : PaymentCall) : Prop :=
  ∀ o, r.state.store.orders.find? tradeNo = some o → c.Pays tradeNo o → c.CreditsQuota r.state o

theorem PaymentEvent.eq_of_isEpayOrAdmin {e : PaymentEvent} (h : e.isEpayOrAdmin = true) :
    (∃ tradeStatus, e = .epayNotify tradeStatus) ∨ e = .adminCompleteTopUp := by
  cases e <;> simp_all [PaymentEvent.isEpayOrAdmin]

section Epay

variable {tradeNo : String} {s : PaymentState} {c : PaymentCall} {o : TopUp}
  (ho : s.store.orders.find? tradeNo = some o) (hevent : c.event.isEpayOrAdmin = true)

include ho hevent

theorem outcome_of_not_pays (hpays : ¬ c.Pays tradeNo o) : c.outcome tradeNo s = s.untouched := by
  unfold Pays at hpays
  unfold outcome
  rcases PaymentEvent.eq_of_isEpayOrAdmin hevent with ⟨tradeStatus, hc⟩ | hc
  · simp only [hc] at hpays ⊢
    simp only [handleEpayNotify]
    by_cases htrade : tradeStatus = "TRADE_SUCCESS"
    · rw [if_pos htrade, (epayNotify_idle ho (htrade ▸ hpays)).1,
        (epayNotify_idle ho (htrade ▸ hpays)).2]
      rfl
    · rw [if_neg htrade]
  · simp only [hc] at hpays ⊢
    simp only [adminCompleteTopUp]
    split
    · rfl
    cases hresult : manualCompleteTopUp c.cfg c.db tradeNo s.store with
    | error e => rfl
    | ok p =>
      obtain ⟨⟨⟩, store⟩ := p
      rcases manualCompleteTopUp_completed ho hresult with ⟨hstatus, rfl⟩ | ⟨hpending, -⟩
      · have hcredit : ∀ worth, s.store.creditOn tradeNo worth = none := by
          intro worth
          rw [PaymentStore.creditOn, ho]
          exact if_neg fun h => hstatus h.1
        rw [settle, hcredit]
        rfl
      · exact absurd (manualPays_of_eq_ok ho hpending hresult) hpays

theorem outcome_of_pays (hpays : c.Pays tradeNo o) : o.status = .pending ∧
      (∃ o', (c.outcome tradeNo s).state.store.orders.find? tradeNo = some o' ∧
        o'.status = .success ∧ o'.amount = o.amount) ∧
      ((c.outcome tradeNo s).credit = some ((unitsQuota c.cfg o.amount).toInt : ℚ) ↔
        c.CreditsQuota s o) := by
  have hkey : o.tradeNo = tradeNo := (Table.find?_eq_some.mp ho).2
  unfold Pays at hpays
  unfold outcome CreditsQuota
  rcases PaymentEvent.eq_of_isEpayOrAdmin hevent with ⟨tradeStatus, hc⟩ | hc
  · simp only [hc] at hpays ⊢
    have hkey' : ({ o with status := .success } : TopUp).tradeNo = tradeNo := hkey
    simp only [handleEpayNotify, if_pos hpays.success, epayNotify_pays ho hpays,
      epayCredit_pays ho hpays]
    refine ⟨hpays.pending, ⟨_, Table.find?_save hkey' ho, rfl, rfl⟩, ?_⟩
    by_cases hcredits : EpayCredits c.cfg c.db o <;>
      by_cases huser : (s.store.users.find? o.userId).isSome <;> simp [hcredits, huser]
  · simp only [hc] at hpays ⊢
    have hkey' : (o.complete c.db.now).tradeNo = tradeNo := hkey
    simp only [adminCompleteTopUp, if_neg hpays.numbered, manualCompleteTopUp_pays ho hpays,
      settle, PaymentStore.creditOn, ho, hpays.pending, true_and]
    refine ⟨⟨_, Table.find?_save hkey' ho, rfl, rfl⟩, ?_⟩
    by_cases huser : (s.store.users.find? o.userId).isSome <;> simp [huser, Int64.toInt_inj]

end Epay

theorem step_of_not_pays {tradeNo : String} {r : OrderRun} {c : PaymentCall} {o : TopUp}
    (ho : r.state.store.orders.find? tradeNo = some o) (hevent : c.event.isEpayOrAdmin = true)
    (hpays : ¬ c.Pays tradeNo o) : r.step tradeNo c = r := by
  rw [step, outcome_of_not_pays ho hevent hpays]
  simp [untouched]

/-- Nothing was credited for an order that is not paid, and the quota once for a paid one. -/
def OrderRun.Sound (tradeNo : String) (amount : Int64) (quota : ℚ) (r : OrderRun) : Prop :=
  ∃ o, r.state.store.orders.find? tradeNo = some o ∧ o.amount = amount ∧
    ((o.status ≠ .success ∧ r.credits = []) ∨ (o.status = .success ∧ r.credits = [quota]))

/-- Paid, and not credited exactly once. -/
def OrderRun.Unsound (tradeNo : String) (quota : ℚ) (r : OrderRun) : Prop :=
  r.status? tradeNo = some .success ∧ r.credits ≠ [quota]

/-- **The order is paid iff its quota was credited once**, at the end of a run. -/
def OrderRun.PaidIffCredited (tradeNo : String) (quota : ℚ) (r : OrderRun) : Prop :=
  r.status? tradeNo = some .success ↔ r.credits = [quota]

/-- **An Epay order under notifications and the administrator** ends up paid iff its quota was
credited exactly once, iff every call that marks it as paid also credits its quota. -/
theorem success_iff_credited_once_iff {cfg : PaymentSettings} {tradeNo : String} {s : PaymentState}
    {o : TopUp} (ho : s.store.orders.find? tradeNo = some o) (hunpaid : o.status ≠ .success)
    {calls : List PaymentCall} (hcalls : ∀ c ∈ calls, c.cfg = cfg ∧ c.event.isEpayOrAdmin = true) :
    (run (step tradeNo) ⟨s, []⟩ calls).PaidIffCredited tradeNo
        ((unitsQuota cfg o.amount).toInt : ℚ) ↔
      AllSteps (CreditsWhenPaid tradeNo) (step tradeNo) ⟨s, []⟩ calls := by
  refine run_iff_allSteps (A := fun _ c => c.cfg = cfg ∧ c.event.isEpayOrAdmin = true)
    (I := Sound tradeNo o.amount ((unitsQuota cfg o.amount).toInt : ℚ))
    (B := Unsound tradeNo ((unitsQuota cfg o.amount).toInt : ℚ))
    ?_ ?_ ?_ ?_ ?_ ⟨o, ho, rfl, .inl ⟨hunpaid, rfl⟩⟩ (allSteps_of_mem (fun c hc _ => hcalls c hc) _)
  · rintro r c ⟨o', ho', hamount, hsound⟩ ⟨rfl, hevent⟩ hC
    by_cases hpays : c.Pays tradeNo o'
    swap
    · rw [step_of_not_pays ho' hevent hpays]
      exact ⟨o', ho', hamount, hsound⟩
    obtain ⟨hpending, ⟨o'', ho'', hpaid, hamount'⟩, hcredit⟩ := outcome_of_pays ho' hevent hpays
    refine ⟨o'', ho'', hamount'.trans hamount, .inr ⟨hpaid, ?_⟩⟩
    have hnone : r.credits = [] := by
      rcases hsound with ⟨-, hnone⟩ | ⟨hsuccess, -⟩
      · exact hnone
      · exact absurd (hpending.symm.trans hsuccess) (by decide)
    rw [step, hnone, hcredit.mpr (hC o' ho' hpays), hamount]
    rfl
  · rintro r c ⟨o', ho', hamount, hsound⟩ ⟨rfl, hevent⟩ hC
    unfold CreditsWhenPaid at hC
    push Not at hC
    obtain ⟨o₁, ho₁, hpays, hcredits⟩ := hC
    obtain rfl : o' = o₁ := some.inj (ho'.symm.trans ho₁)
    obtain ⟨hpending, ⟨o'', ho'', hpaid, -⟩, hcredit⟩ := outcome_of_pays ho' hevent hpays
    have hnone : r.credits = [] := by
      rcases hsound with ⟨-, hnone⟩ | ⟨hsuccess, -⟩
      · exact hnone
      · exact absurd (hpending.symm.trans hsuccess) (by decide)
    refine ⟨by rw [status?, step, ho'', map_some, hpaid], fun h => ?_⟩
    rw [step, hnone, List.nil_append, toList_eq_singleton_iff, ← hamount] at h
    exact hcredits (hcredit.mp h)
  · rintro r c ⟨hstatus, hcredits⟩ ⟨-, hevent⟩
    obtain ⟨o', ho', hsuccess⟩ := map_eq_some_iff.mp hstatus
    have hpays : ¬ c.Pays tradeNo o' := fun hpays => by
      have hpending := (outcome_of_pays ho' hevent hpays).1
      exact absurd (hpending.symm.trans hsuccess) (by decide)
    rw [step_of_not_pays ho' hevent hpays]
    exact ⟨hstatus, hcredits⟩
  · rintro r ⟨o', ho', -, ⟨hstatus, hcredits⟩ | ⟨hstatus, hcredits⟩⟩ <;>
      simp [PaidIffCredited, status?, ho', hstatus, hcredits]
  · rintro r ⟨hstatus, hcredits⟩ h
    exact hcredits (h.mp hstatus)

def alipayState : PaymentState := ⟨alipayStore, .empty⟩

def epayPaid : PaymentCall := .working 200 (.epayNotify "TRADE_SUCCESS")

def epayPaidUnwritten : PaymentCall :=
  { epayPaid with db := { DbEnv.working 200 with saveUser := some "database is locked" } }

/-- **A notification in a working database.** -/
theorem success_iff_credited_once_notified :
    alipayState.store.orders.find? "USR7NOx1" = some alipayOrder ∧ alipayOrder.status ≠ .success ∧
      (run (step "USR7NOx1") ⟨alipayState, []⟩ [epayPaid]).PaidIffCredited "USR7NOx1"
        ((unitsQuota shopSettings alipayOrder.amount).toInt : ℚ) := by
  have ho : alipayState.store.orders.find? "USR7NOx1" = some alipayOrder := by decide +kernel
  have hunpaid : alipayOrder.status ≠ .success := by decide
  refine ⟨ho, hunpaid, (success_iff_credited_once_iff ho hunpaid ?_).mpr ⟨?_, trivial⟩⟩
  · intro c hc
    obtain rfl := List.mem_singleton.mp hc
    exact ⟨rfl, rfl⟩
  · intro o ho' _
    obtain rfl : alipayOrder = o := some.inj (ho.symm.trans ho')
    exact ⟨by decide +kernel, rfl, by decide +kernel⟩

/-- **A credit that fails after the order was saved** is never made. -/
theorem paid_order_without_credit : (run (step "USR7NOx1") ⟨alipayState, []⟩
        [epayPaidUnwritten, epayPaid, .working 300 .adminCompleteTopUp]).status? "USR7NOx1" =
        some .success ∧ (run (step "USR7NOx1") ⟨alipayState, []⟩
        [epayPaidUnwritten, epayPaid, .working 300 .adminCompleteTopUp]).credits = [] := by
  refine ⟨?_, ?_⟩ <;> decide +kernel

end NomoApi
