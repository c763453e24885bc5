import NomoApi.Lib.Run
import NomoApi.TopUp.Completion

/-! # Payment events

The handlers that reach a top-up order (`controller/topup.go`, `topup_stripe.go`, `topup_creem.go`).
All hold the lock of the order (`LockOrder`). The Stripe and Creem handlers look for a subscription
order of the same number first (`model/subscription.go`).

Every statement may fail. An outcome carries the credit that was committed, so that *how often* a
user was credited can be told even for an order that is worth nothing. -/

namespace NomoApi

open PaymentStore Table Option UserUpdate

/-! ## Subscription orders -/

structure SubscriptionOrder where
  userId : Int
  planId : Int
  money : ℚ
  tradeNo : String
  paymentMethod : String
  status : TopUpStatus
  createTime : Int
  completeTime : Int
  providerPayload : String
  deriving DecidableEq

open SubscriptionOrder

structure PaymentState where
  store : PaymentStore
  subscriptionOrders : Table SubscriptionOrder tradeNo

inductive SubscriptionFailure where
  /-- `ErrSubscriptionOrderNotFound`, also for any other failure of the lookup. -/
  | orderNotFound
  | statusInvalid
  | other (text : String)
  deriving DecidableEq

structure SubscriptionOrderEnv where
  now : Int
  beginTx : Option String
  findOrder : Option String
  /-- The upgrade group of the plan (empty for none), or the failure to load it. -/
  plan : Except String String
  createSubscription : Option String
  findTopUp : Option String
  saveTopUp : Option String
  saveOrder : Option String
  commitTx : Option String

def statement (fault : Option String) : Except SubscriptionFailure Unit :=
  match fault with
  | none => .ok ()
  | some text => .error (.other text)

@[simp] theorem statement_eq_ok {fault : Option String} {x : Unit} :
    statement fault = .ok x ↔ fault = none := by
  cases fault <;> simp [statement]

def PaymentStore.upgradeGroup (s : PaymentStore) (userId : Int) (group : String) : PaymentStore :=
  if group = "" then s
  else
    { s with
      users := s.users.updateWhere (fun u => u.id = userId)
        (fun u => { u with group := group }) fun _ => rfl }

def SubscriptionOrder.topUp (order : SubscriptionOrder) (now : Int) : Option TopUp → TopUp
  | none =>
    { userId := order.userId, amount := 0, money := order.money, tradeNo := order.tradeNo,
      paymentMethod := order.paymentMethod, createTime := order.createTime,
      completeTime := now, status := .success }
  | some topUp =>
    { topUp with
      money := order.money
      paymentMethod :=
        if topUp.paymentMethod = "" then order.paymentMethod else topUp.paymentMethod
      createTime := if topUp.createTime = 0 then order.createTime else topUp.createTime
      completeTime := now
      status := .success }

/-- A completed subscription order is listed as a paid top-up. -/
def upsertSubscriptionTopUpTx (env : SubscriptionOrderEnv) (order : SubscriptionOrder)
    (s : PaymentStore) : Except SubscriptionFailure PaymentStore := do
  statement env.findTopUp
  statement env.saveTopUp
  match s.orders.find? order.tradeNo with
  | some topUp => return { s with orders := s.orders.save (order.topUp env.now (some topUp)) }
  | none =>
    match s.orders.insert? (order.topUp env.now none) with
    | some orders => return { s with orders := orders }
    | none => .error (.other "UNIQUE constraint failed: top_ups.trade_no")

def firstSubscriptionOrder (env : SubscriptionOrderEnv) (tradeNo : String) (s : PaymentState) :
    Except SubscriptionFailure SubscriptionOrder :=
  match env.findOrder, s.subscriptionOrders.find? tradeNo with
  | none, some order => .ok order
  | _, _ => .error .orderNotFound

variable (env : SubscriptionOrderEnv) (tradeNo providerPayload : String)

/-- The transaction of `CompleteSubscriptionOrder`, without the subscriptions of the user. -/
def completeSubscriptionOrderTx (s : PaymentState) : Except SubscriptionFailure PaymentState := do
  let order ← firstSubscriptionOrder env tradeNo s
  if order.status = .success then return s
  else if order.status ≠ .pending then .error .statusInvalid
  else
    match env.plan with
    | .error text => .error (.other text)
    | .ok group =>
      statement env.createSubscription
      let store ← upsertSubscriptionTopUpTx env order (s.store.upgradeGroup order.userId group)
      statement env.saveOrder
      let payload := if providerPayload = "" then order.providerPayload else providerPayload
      let order' :=
        { order with
          status := TopUpStatus.success, completeTime := env.now, providerPayload := payload }
      return ⟨store, s.subscriptionOrders.save order'⟩

def completeSubscriptionOrder (s : PaymentState) : Except SubscriptionFailure PaymentState :=
  if tradeNo = "" then .error (.other "tradeNo is empty")
  else do
    statement env.beginTx
    let s' ← completeSubscriptionOrderTx env tradeNo providerPayload s
    statement env.commitTx
    return s'

def expireSubscriptionOrder (tradeNo : String) (s : PaymentState) :
    Except SubscriptionFailure PaymentState :=
  if tradeNo = "" then .error (.other "tradeNo is empty")
  else do
    statement env.beginTx
    let order ← firstSubscriptionOrder env tradeNo s
    if order.status ≠ .pending then
      statement env.commitTx
      return s
    else
      statement env.saveOrder
      statement env.commitTx
      let order' := { order with status := TopUpStatus.expired, completeTime := env.now }
      return { s with subscriptionOrders := s.subscriptionOrders.save order' }

/-! ## Handlers -/

/-- **What a handler leaves**: the tables, and the credit that was committed. -/
structure PaymentOutcome where
  state : PaymentState
  credit : Option ℚ

def PaymentState.untouched (s : PaymentState) : PaymentOutcome := ⟨s, none⟩

/-- The credit for the order of this number: nothing if it is not pending or there is no user. -/
def PaymentStore.creditOn (s : PaymentStore) (tradeNo : String) (worth : TopUp → ℚ) : Option ℚ :=
  match s.orders.find? tradeNo with
  | none => none
  | some o =>
    if o.status = .pending ∧ (s.users.find? o.userId).isSome then some (worth o) else none

def PaymentState.settle (s : PaymentState) (tradeNo : String) (worth : TopUp → ℚ) :
    Except Halt (Unit × PaymentStore) → PaymentOutcome
  | .ok (_, store) => ⟨{ s with store := store }, s.store.creditOn tradeNo worth⟩
  | .error _ => s.untouched

/-- `IncreaseUserQuota` accepts the quota of the order and can write it. -/
def EpayCredits (cfg : PaymentSettings) (db : DbEnv) (o : TopUp) : Prop :=
  db.saveUser = none ∧ ¬ unitsQuota cfg o.amount < 0
deriving Decidable

/-- The credit of `EpayNotify`: the order is read and saved, and its quota accepted. -/
def epayCredit (cfg : PaymentSettings) (db : DbEnv) (tradeNo : String) (s : PaymentStore) :
    Option ℚ :=
  match s.orders.find? tradeNo with
  | none => none
  | some o =>
    if db.findOrder = none ∧ db.saveOrder = none ∧ EpayCredits cfg db o then
      s.creditOn tradeNo fun o => (unitsQuota cfg o.amount).toInt
    else none

inductive PaymentEvent where
  | epayNotify (tradeStatus : String)
  | sessionCompleted (customerId status payload : String)
  | sessionExpired (status : String)
  | checkoutCompleted (orderStatus orderType customerEmail payload : String)
  | adminCompleteTopUp
  deriving DecidableEq

/-- **An event and the circumstances of its handling**: the settings, and which statements fail. -/
structure PaymentCall where
  cfg : PaymentSettings
  db : DbEnv
  lookup : Option String
  sub : SubscriptionOrderEnv
  event : PaymentEvent

section Handlers

variable (c : PaymentCall) (tradeNo : String) (s : PaymentState)

def handleEpayNotify (tradeStatus : String) : PaymentOutcome :=
  if tradeStatus = "TRADE_SUCCESS" then
    ⟨{ s with store := epayNotify c.cfg c.db tradeNo s.store },
      epayCredit c.cfg c.db tradeNo s.store⟩
  else s.untouched

def sessionCompleted (customerId status payload : String) : PaymentOutcome :=
  if status ≠ "complete" then s.untouched
  else
    match completeSubscriptionOrder c.sub tradeNo payload s with
    | .ok s' => s'.untouched
    | .error .orderNotFound =>
      s.settle tradeNo (fun o => o.money * c.cfg.quotaPerUnit)
        (recharge c.cfg c.db tradeNo customerId s.store)
    | .error _ => s.untouched

/-- An order that is not pending expires all the same. -/
def sessionExpired (status : String) : PaymentOutcome :=
  if status ≠ "expired" then s.untouched
  else if tradeNo = "" then s.untouched
  else
    match expireSubscriptionOrder c.sub tradeNo s with
    | .ok s' => s'.untouched
    | .error .orderNotFound =>
      match firstOrder c.db tradeNo s.store with
      | .error _ => s.untouched
      | .ok topUp =>
        match saveOrder c.db { topUp with status := .expired } s.store with
        | .error _ => s.untouched
        | .ok store => ⟨{ s with store := store }, none⟩
    | .error _ => s.untouched

def handleCheckoutCompleted (orderStatus orderType customerEmail payload : String) :
    PaymentOutcome :=
  if orderStatus ≠ "paid" then s.untouched
  else if tradeNo = "" then s.untouched
  else
    match completeSubscriptionOrder c.sub tradeNo payload s with
    | .ok s' => s'.untouched
    | .error .orderNotFound =>
      if orderType ≠ "onetime" then s.untouched
      else
        match firstOrder { c.db with findOrder := c.lookup } tradeNo s.store with
        | .error _ => s.untouched
        | .ok topUp =>
          if topUp.status ≠ .pending then s.untouched
          else
            s.settle tradeNo (fun o => o.amount.toInt)
              (rechargeCreem c.db tradeNo customerEmail s.store)
    | .error _ => s.untouched

def adminCompleteTopUp : PaymentOutcome :=
  if tradeNo = "" then s.untouched
  else
    s.settle tradeNo (fun o => (manualQuota c.cfg o).toInt)
      (manualCompleteTopUp c.cfg c.db tradeNo s.store)

/-- **The outcome of an event** on the order with this trade number. -/
def PaymentCall.outcome : PaymentOutcome :=
  match c.event with
  | .epayNotify tradeStatus => handleEpayNotify c tradeNo s tradeStatus
  | .sessionCompleted customerId status payload =>
    sessionCompleted c tradeNo s customerId status payload
  | .sessionExpired status => sessionExpired c tradeNo s status
  | .checkoutCompleted orderStatus orderType customerEmail payload =>
    handleCheckoutCompleted c tradeNo s orderStatus orderType customerEmail payload
  | .adminCompleteTopUp => adminCompleteTopUp c tradeNo s

end Handlers

/-! ## What a subscription order can do to a top-up order -/

section Subscription

variable {c : PaymentCall} {env : SubscriptionOrderEnv} {tradeNo payload : String}
  {s s' : PaymentState} {o : TopUp}

structure SubscriptionOrderEnv.Works (env : SubscriptionOrderEnv) : Prop where
  beginTx : env.beginTx = none
  findOrder : env.findOrder = none
  plan : ∃ group, env.plan = .ok group
  createSubscription : env.createSubscription = none
  findTopUp : env.findTopUp = none
  saveTopUp : env.saveTopUp = none
  saveOrder : env.saveOrder = none
  commitTx : env.commitTx = none

@[simp] theorem quotaOf_upgradeGroup (s : PaymentStore) (userId userId' : Int) (group : String) :
    (s.upgradeGroup userId group).quotaOf userId' = s.quotaOf userId' := by
  unfold upgradeGroup
  by_cases hgroup : group = ""
  · rw [if_pos hgroup]
  · rw [if_neg hgroup, quotaOf, quotaOf, find?_updateWhere]
    cases s.users.find? userId' with
    | none => rfl
    | some u => by_cases hu : u.id = userId <;> simp [hu]

@[simp] theorem orders_upgradeGroup (s : PaymentStore) (userId : Int) (group : String) :
    (s.upgradeGroup userId group).orders = s.orders := by
  unfold upgradeGroup
  split <;> rfl

theorem firstSubscriptionOrder_eq_ok {order : SubscriptionOrder} :
    firstSubscriptionOrder env tradeNo s = .ok order ↔
      env.findOrder = none ∧ s.subscriptionOrders.find? tradeNo = some order := by
  unfold firstSubscriptionOrder
  cases env.findOrder <;> cases s.subscriptionOrders.find? tradeNo <;> simp

theorem upsert_eq_ok {order : SubscriptionOrder} {st st' : PaymentStore}
    (ho : st.orders.find? order.tradeNo = some o)
    (h : upsertSubscriptionTopUpTx env order st = .ok st') :
    env.findTopUp = none ∧ env.saveTopUp = none ∧
      st' = { st with orders := st.orders.save (order.topUp env.now (some o)) } := by
  unfold upsertSubscriptionTopUpTx at h
  obtain ⟨_, hfind, h⟩ := bind_eq_ok.mp h
  obtain ⟨_, hsave, h⟩ := bind_eq_ok.mp h
  rw [ho] at h
  cases h
  exact ⟨statement_eq_ok.mp hfind, statement_eq_ok.mp hsave, rfl⟩

theorem completeSubscriptionOrder_eq_ok (ho : s.store.orders.find? tradeNo = some o)
    (h : completeSubscriptionOrder env tradeNo payload s = .ok s') :
    (s' = s ∧ (s.subscriptionOrders.find? tradeNo).map status ≠ some .pending) ∨
      (tradeNo ≠ "" ∧ env.Works ∧ (s.subscriptionOrders.find? tradeNo).map status = some .pending ∧
        (∃ o', s'.store.orders.find? tradeNo = some o' ∧ o'.status = .success ∧
          o'.userId = o.userId) ∧ ∀ userId, s'.store.quotaOf userId = s.store.quotaOf userId) := by
  unfold completeSubscriptionOrder at h
  obtain ⟨hempty, h⟩ := ite_error_eq_ok.mp h
  obtain ⟨_, hbegin, h⟩ := bind_eq_ok.mp h
  obtain ⟨s₁, htx, h⟩ := bind_eq_ok.mp h
  obtain ⟨_, hcommit, h⟩ := bind_eq_ok.mp h
  cases h
  unfold completeSubscriptionOrderTx at htx
  obtain ⟨order, horder, htx⟩ := bind_eq_ok.mp htx
  obtain ⟨hfound, hrow⟩ := firstSubscriptionOrder_eq_ok.mp horder
  have hkey : order.tradeNo = tradeNo := (find?_eq_some.mp hrow).2
  by_cases hsuccess : order.status = .success
  · rw [if_pos hsuccess] at htx
    cases htx
    exact .inl ⟨rfl, by rw [hrow, map_some, hsuccess]; decide⟩
  rw [if_neg hsuccess] at htx
  by_cases hpending : order.status = .pending
  swap
  · rw [if_pos hpending] at htx
    cases htx
  rw [if_neg (not_not.mpr hpending)] at htx
  cases hplan : env.plan with
  | error text => rw [hplan] at htx; cases htx
  | ok group =>
    rw [hplan] at htx
    obtain ⟨_, hcreate, htx⟩ := bind_eq_ok.mp htx
    obtain ⟨st, hupsert, htx⟩ := bind_eq_ok.mp htx
    obtain ⟨_, hsave, htx⟩ := bind_eq_ok.mp htx
    cases htx
    have ho' : (s.store.upgradeGroup order.userId group).orders.find? order.tradeNo = some o := by
      rw [orders_upgradeGroup, hkey, ho]
    obtain ⟨hfindTopUp, hsaveTopUp, rfl⟩ := upsert_eq_ok ho' hupsert
    have hworks : env.Works :=
      ⟨statement_eq_ok.mp hbegin, hfound, ⟨group, hplan⟩, statement_eq_ok.mp hcreate, hfindTopUp,
        hsaveTopUp, statement_eq_ok.mp hsave, statement_eq_ok.mp hcommit⟩
    refine .inr ⟨hempty, hworks, by rw [hrow, map_some, hpending],
      ⟨_, find?_save ?_ (hkey ▸ ho'), rfl, rfl⟩, fun userId => ?_⟩
    · exact (find?_eq_some.mp ho).2
    · exact quotaOf_upgradeGroup s.store order.userId userId group

theorem completeSubscriptionOrder_works (ho : s.store.orders.find? tradeNo = some o)
    (hempty : tradeNo ≠ "") (hworks : env.Works)
    (hpending : (s.subscriptionOrders.find? tradeNo).map status = some .pending) :
    ∃ s', completeSubscriptionOrder env tradeNo payload s = .ok s' := by
  obtain ⟨order, hrow, hstatus⟩ := map_eq_some_iff.mp hpending
  have hkey : order.tradeNo = tradeNo := (find?_eq_some.mp hrow).2
  obtain ⟨group, hplan⟩ := hworks.plan
  simp [completeSubscriptionOrder, hempty, hworks.beginTx, statement, completeSubscriptionOrderTx,
    firstSubscriptionOrder, hworks.findOrder, hrow, hstatus, hplan, hworks.createSubscription,
    upsertSubscriptionTopUpTx, hworks.findTopUp, hworks.saveTopUp, hkey, ho, hworks.saveOrder,
    hworks.commitTx, bind, Except.bind, pure, Except.pure]

theorem store_of_expireSubscriptionOrder (h : expireSubscriptionOrder env tradeNo s = .ok s') :
    s'.store = s.store := by
  unfold expireSubscriptionOrder at h
  obtain ⟨-, h⟩ := ite_error_eq_ok.mp h
  obtain ⟨_, -, h⟩ := bind_eq_ok.mp h
  obtain ⟨order, -, h⟩ := bind_eq_ok.mp h
  split at h
  · obtain ⟨_, -, h⟩ := bind_eq_ok.mp h
    cases h
    rfl
  · obtain ⟨_, -, h⟩ := bind_eq_ok.mp h
    obtain ⟨_, -, h⟩ := bind_eq_ok.mp h
    cases h
    rfl

theorem expireSubscriptionOrder_eq_orderNotFound :
    expireSubscriptionOrder env tradeNo s = .error .orderNotFound ↔
      tradeNo ≠ "" ∧ env.beginTx = none ∧
        (env.findOrder ≠ none ∨ s.subscriptionOrders.find? tradeNo = none) := by
  by_cases hempty : tradeNo = ""
  · simp [expireSubscriptionOrder, hempty]
  cases hbegin : env.beginTx with
  | some text => simp [expireSubscriptionOrder, hempty, hbegin, statement, bind, Except.bind]
  | none =>
    cases hfind : env.findOrder with
    | some text =>
      simp [expireSubscriptionOrder, hempty, hbegin, hfind, statement, firstSubscriptionOrder,
        bind, Except.bind]
    | none =>
      cases hrow : s.subscriptionOrders.find? tradeNo with
      | none =>
        simp [expireSubscriptionOrder, hempty, hbegin, hfind, hrow, statement,
          firstSubscriptionOrder, bind, Except.bind]
      | some order =>
        -- the order is found, so every failure from here on is another one
        by_cases hpending : order.status = .pending <;>
          cases hsave : env.saveOrder <;> cases hcommit : env.commitTx <;>
          simp [expireSubscriptionOrder, hempty, hbegin, hfind, hrow, hpending, hsave,
            hcommit, statement, firstSubscriptionOrder, bind, Except.bind, pure, Except.pure]

end Subscription

/-! ## What a completion does to its order -/

def PaymentStore.paid (s : PaymentStore) (o : TopUp) (upd : UserUpdate) : PaymentStore :=
  ({ s with orders := s.orders.save o } : PaymentStore).update o.userId upd

section Completion

variable {cfg : PaymentSettings} {db : DbEnv} {tradeNo : String} {s s' : PaymentStore} {o : TopUp}

theorem firstOrder_eq_ok :
    firstOrder db tradeNo s = .ok o ↔ db.findOrder = none ∧ s.orders.find? tradeNo = some o := by
  unfold firstOrder
  cases db.findOrder <;> cases s.orders.find? tradeNo <;> simp

theorem saveOrder_eq_ok : saveOrder db o s = .ok s' ↔
      db.saveOrder = none ∧ s' = { s with orders := s.orders.save o } := by
  unfold saveOrder
  cases db.saveOrder <;> simp [attempt, bind, Except.bind, pure, Except.pure, eq_comm]

theorem updateUser_eq_ok {userId : Int} {upd : UserUpdate} :
    updateUser db userId upd s = .ok s' ↔ db.saveUser = none ∧ s' = s.update userId upd := by
  unfold updateUser
  cases db.saveUser <;> simp [attempt, bind, Except.bind, pure, Except.pure, eq_comm]

/-- **A completion in a transaction**: an order that is not pending is left alone, a pending one is
marked as paid and its user credited. -/
def Completed (s : PaymentStore) (o : TopUp) (worth : TopUp → ℚ) (s' : PaymentStore) : Prop :=
  (o.status ≠ .pending ∧ s' = s) ∨
    (o.status = .pending ∧
      ∃ now upd, upd.quota = worth o ∧ s' = s.paid (o.complete now) upd)

theorem completed_of_saved {worth : TopUp → ℚ} {s₁ : PaymentStore} {upd : UserUpdate}
    (hpending : ¬ o.status ≠ .pending) (hsave : saveOrder db (o.complete db.now) s = .ok s₁)
    (hupdate : updateUser db o.userId upd s₁ = .ok s') (hworth : upd.quota = worth o) :
    Completed s o worth s' := by
  obtain ⟨-, rfl⟩ := saveOrder_eq_ok.mp hsave
  obtain ⟨-, rfl⟩ := updateUser_eq_ok.mp hupdate
  exact .inr ⟨not_not.mp hpending, db.now, upd, hworth, rfl⟩

variable (ho : s.orders.find? tradeNo = some o)

include ho

theorem eq_of_firstOrder {o' : TopUp} (h : firstOrder db tradeNo s = .ok o') : o' = o := by
  have hrow := (firstOrder_eq_ok.mp h).2
  rw [ho] at hrow
  exact (some.inj hrow).symm

theorem recharge_completed {customerId : String}
    (h : recharge cfg db tradeNo customerId s = .ok ((), s')) :
    Completed s o (fun o => o.money * cfg.quotaPerUnit) s' := by
  unfold recharge at h
  obtain ⟨-, h⟩ := ite_error_eq_ok.mp h
  split at h
  swap
  · cases h
  rename_i r htx
  cases h
  obtain ⟨-, htx, -⟩ := transaction_eq_ok.mp htx
  unfold rechargeTx at htx
  obtain ⟨o', hfirst, htx⟩ := bind_eq_ok.mp htx
  obtain rfl := eq_of_firstOrder ho hfirst
  split at htx
  · cases htx
  rename_i hpending
  obtain ⟨s₁, hsave, htx⟩ := bind_eq_ok.mp htx
  obtain ⟨s₂, hupdate, htx⟩ := bind_eq_ok.mp htx
  cases htx
  exact completed_of_saved hpending hsave hupdate rfl

theorem rechargeCreem_completed {customerEmail : String}
    (h : rechargeCreem db tradeNo customerEmail s = .ok ((), s')) :
    Completed s o (fun o => o.amount.toInt) s' := by
  unfold rechargeCreem at h
  obtain ⟨-, h⟩ := ite_error_eq_ok.mp h
  split at h
  swap
  · cases h
  rename_i r htx
  cases h
  obtain ⟨-, htx, -⟩ := transaction_eq_ok.mp htx
  unfold rechargeCreemTx at htx
  obtain ⟨o', hfirst, htx⟩ := bind_eq_ok.mp htx
  obtain rfl := eq_of_firstOrder ho hfirst
  split at htx
  · cases htx
  rename_i hpending
  obtain ⟨s₁, hsave, htx⟩ := bind_eq_ok.mp htx
  obtain ⟨email, -, htx⟩ := bind_eq_ok.mp htx
  obtain ⟨s₂, hupdate, htx⟩ := bind_eq_ok.mp htx
  cases htx
  exact completed_of_saved hpending hsave hupdate rfl

theorem manualCompleteTopUp_completed (h : manualCompleteTopUp cfg db tradeNo s = .ok ((), s')) :
    Completed s o (fun o => (manualQuota cfg o).toInt) s' := by
  unfold manualCompleteTopUp at h
  obtain ⟨-, h⟩ := ite_error_eq_ok.mp h
  obtain ⟨-, htx, -⟩ := transaction_eq_ok.mp h
  unfold manualCompleteTx at htx
  obtain ⟨o', hfirst, htx⟩ := bind_eq_ok.mp htx
  obtain rfl := eq_of_firstOrder ho hfirst
  split at htx
  · rename_i hsuccess
    cases htx
    exact .inl ⟨by rw [hsuccess]; decide, rfl⟩
  split at htx
  · cases htx
  rename_i hpending
  split at htx
  · cases htx
  obtain ⟨s₁, hsave, htx⟩ := bind_eq_ok.mp htx
  obtain ⟨s₂, hupdate, htx⟩ := bind_eq_ok.mp htx
  cases htx
  exact completed_of_saved hpending hsave hupdate rfl

/-- The notification of Epay pays an order that it finds pending and can save. -/
structure EpayPays (db : DbEnv) (tradeStatus : String) (o : TopUp) : Prop where
  success : tradeStatus = "TRADE_SUCCESS"
  findOrder : db.findOrder = none
  saveOrder : db.saveOrder = none
  pending : o.status = .pending

omit ho in
theorem PaymentStore.update_zero (s : PaymentStore) (userId : Int) :
    s.update userId (.add 0) = s := by
  have happly : ∀ u : User, (add 0).apply u = u := by
    intro u
    simp [apply, add]
  have hrows : (s.users.updateWhere (fun u => u.id = userId) (add 0).apply
      (add 0).apply_id) = s.users := by
    ext1
    simp [updateWhere, happly]
  rw [update, hrows]

/-- **`EpayNotify` on an order that it pays**: the order stays paid when the credit fails. -/
theorem epayNotify_pays {tradeStatus : String} (hpays : EpayPays db tradeStatus o) :
    epayNotify cfg db tradeNo s = s.paid { o with status := .success }
        (.add (if EpayCredits cfg db o then (unitsQuota cfg o.amount).toInt else 0)) := by
  have hfirst : firstOrder db tradeNo s = .ok o := firstOrder_eq_ok.mpr ⟨hpays.findOrder, ho⟩
  have hsave : saveOrder db { o with status := .success } s =
      .ok { s with orders := s.orders.save { o with status := .success } } :=
    saveOrder_eq_ok.mpr ⟨hpays.saveOrder, rfl⟩
  simp only [epayNotify, hfirst, hpays.pending, if_true, hsave, paid]
  by_cases hneg : unitsQuota cfg o.amount < 0
  · rw [PaymentStore.increaseUserQuota, if_pos hneg, if_neg fun h => h.2 hneg, update_zero]
  · rw [PaymentStore.increaseUserQuota, if_neg hneg, updateUser]
    cases huser : db.saveUser with
    | none =>
      rw [if_pos ⟨huser, hneg⟩]
      rfl
    | some text =>
      have hcredits : ¬ EpayCredits cfg db o := fun h => by
        have := huser.symm.trans h.1
        cases this
      rw [if_neg hcredits, update_zero]
      rfl

theorem epayCredit_pays {tradeStatus : String} (hpays : EpayPays db tradeStatus o) :
    epayCredit cfg db tradeNo s = if EpayCredits cfg db o ∧ (s.users.find? o.userId).isSome then
        some ((unitsQuota cfg o.amount).toInt : ℚ) else none := by
  simp only [epayCredit, ho, hpays.findOrder, hpays.saveOrder, creditOn, hpays.pending, true_and]
  by_cases hcredits : EpayCredits cfg db o <;> simp [hcredits]

theorem epayNotify_idle (hpays : ¬ EpayPays db "TRADE_SUCCESS" o) :
    epayNotify cfg db tradeNo s = s ∧ epayCredit cfg db tradeNo s = none := by
  by_cases hfind : db.findOrder = none
  swap
  · obtain ⟨text, htext⟩ := ne_none_iff_exists'.mp hfind
    simp [epayNotify, epayCredit, firstOrder, htext, ho]
  have hfirst : firstOrder db tradeNo s = .ok o := firstOrder_eq_ok.mpr ⟨hfind, ho⟩
  by_cases hpending : o.status = .pending
  swap
  · simp [epayNotify, epayCredit, creditOn, hfirst, ho, hpending]
  have hsave : db.saveOrder ≠ none := fun hsave => hpays ⟨rfl, hfind, hsave, hpending⟩
  obtain ⟨text, htext⟩ := ne_none_iff_exists'.mp hsave
  simp [epayNotify, epayCredit, hfirst, ho, hpending, saveOrder, htext, attempt, bind, Except.bind]

/-- The administrator's way pays a pending order that is worth something. -/
structure ManualPays (cfg : PaymentSettings) (db : DbEnv) (tradeNo : String) (o : TopUp) :
    Prop where
  numbered : tradeNo ≠ ""
  beginTx : db.beginTx = none
  findOrder : db.findOrder = none
  pending : o.status = .pending
  worth : 0 < manualQuota cfg o
  saveOrder : db.saveOrder = none
  saveUser : db.saveUser = none
  commitTx : db.commitTx = none

theorem manualCompleteTopUp_pays (hpays : ManualPays cfg db tradeNo o) :
    manualCompleteTopUp cfg db tradeNo s =
      .ok ((), s.paid (o.complete db.now) (.add (manualQuota cfg o).toInt)) := by
  have hworth : ¬ manualQuota cfg o ≤ 0 :=
    fun hle => Int64.lt_irrefl (Int64.lt_of_lt_of_le hpays.worth hle)
  rw [manualCompleteTopUp, if_neg hpays.numbered]
  refine transaction_eq_ok.mpr ⟨hpays.beginTx, ?_, hpays.commitTx⟩
  rw [manualCompleteTx]
  refine bind_eq_ok.mpr ⟨o, firstOrder_eq_ok.mpr ⟨hpays.findOrder, ho⟩, ?_⟩
  rw [if_neg (by rw [hpays.pending]; decide), if_neg (not_not.mpr hpays.pending), if_neg hworth]
  refine bind_eq_ok.mpr ⟨_, saveOrder_eq_ok.mpr ⟨hpays.saveOrder, rfl⟩, ?_⟩
  exact bind_eq_ok.mpr ⟨_, updateUser_eq_ok.mpr ⟨hpays.saveUser, rfl⟩, rfl⟩

theorem manualPays_of_eq_ok (hpending : o.status = .pending)
    (h : manualCompleteTopUp cfg db tradeNo s = .ok ((), s')) : ManualPays cfg db tradeNo o := by
  unfold manualCompleteTopUp at h
  obtain ⟨hnumbered, h⟩ := ite_error_eq_ok.mp h
  obtain ⟨hbegin, htx, hcommit⟩ := transaction_eq_ok.mp h
  unfold manualCompleteTx at htx
  obtain ⟨o', hfirst, htx⟩ := bind_eq_ok.mp htx
  obtain rfl := eq_of_firstOrder ho hfirst
  rw [if_neg (by rw [hpending]; decide), if_neg (not_not.mpr hpending)] at htx
  split at htx
  · cases htx
  rename_i hworth
  obtain ⟨s₁, hsave, htx⟩ := bind_eq_ok.mp htx
  obtain ⟨s₂, hupdate, -⟩ := bind_eq_ok.mp htx
  exact ⟨hnumbered, hbegin, (firstOrder_eq_ok.mp hfirst).1, hpending, Int64.not_le.mp hworth,
    (saveOrder_eq_ok.mp hsave).1, (updateUser_eq_ok.mp hupdate).1, hcommit⟩

end Completion

/-! ## What an event does to its order -/

def PaymentEvent.completesCheckout : PaymentEvent → Bool
  | .sessionCompleted _ status _ => status = "complete"
  | .checkoutCompleted orderStatus _ _ _ => orderStatus = "paid"
  | _ => false

/-- **An expiry that gets through** to the top-up order. -/
structure PaymentCall.Expires (c : PaymentCall) (tradeNo : String) (s : PaymentState) : Prop where
  event : c.event = .sessionExpired "expired"
  numbered : tradeNo ≠ ""
  beginTx : c.sub.beginTx = none
  noSubscription : c.sub.findOrder ≠ none ∨ s.subscriptionOrders.find? tradeNo = none
  findOrder : c.db.findOrder = none
  saveOrder : c.db.saveOrder = none

/-- **A checkout that completes a pending subscription order** of the same number. -/
structure PaymentCall.Subscribes (c : PaymentCall) (tradeNo : String) (s : PaymentState) :
    Prop where
  checkout : c.event.completesCheckout = true
  numbered : tradeNo ≠ ""
  works : c.sub.Works
  pending : (s.subscriptionOrders.find? tradeNo).map status = some .pending

/-- **The ways in which an event changes its order**, with the committed credit. -/
inductive CallEffect (c : PaymentCall) (tradeNo : String) (s : PaymentState) (o : TopUp) :
    TopUp → Option ℚ → Prop where
  | idle (hexpires : ¬ c.Expires tradeNo s) (hsubscribes : ¬ c.Subscribes tradeNo s) :
      CallEffect c tradeNo s o o none
  /-- A pending order is paid. The credit may be missing: the user may be. -/
  | paid {o' : TopUp} {credit : Option ℚ} (hpending : o.status = .pending)
      (hpaid : o'.status = .success) : CallEffect c tradeNo s o o' credit
  | expired (hexpires : c.Expires tradeNo s) :
      CallEffect c tradeNo s o { o with status := .expired } none
  /-- The order becomes the listing of a subscription order, whatever its status. -/
  | listed {o' : TopUp} (hsubscribes : c.Subscribes tradeNo s) (hpaid : o'.status = .success) :
      CallEffect c tradeNo s o o' none

/-- **An outcome for an order**: its user has gained the committed credit, and the change is one of
the four. -/
def PaymentOutcome.Affects (out : PaymentOutcome) (c : PaymentCall) (tradeNo : String)
    (s : PaymentState) (o : TopUp) : Prop :=
  ∃ o', out.state.store.orders.find? tradeNo = some o' ∧ o'.userId = o.userId ∧
    credited s.store out.state.store o.userId = out.credit.getD 0 ∧
    CallEffect c tradeNo s o o' out.credit

section Effect

variable {c : PaymentCall} {tradeNo : String} {s s' : PaymentState} {o : TopUp}
  (ho : s.store.orders.find? tradeNo = some o)

include ho

theorem affects_untouched (hstore : s'.store = s.store) (hexpires : ¬ c.Expires tradeNo s)
    (hsubscribes : ¬ c.Subscribes tradeNo s) : s'.untouched.Affects c tradeNo s o :=
  ⟨o, by rw [← ho, ← hstore]; rfl, rfl, credited_of_users_eq (by rw [← hstore]; rfl),
    .idle hexpires hsubscribes⟩

theorem affects_paid {out : PaymentOutcome} {o' : TopUp} {upd : UserUpdate}
    (hkey : o'.tradeNo = tradeNo) (huser : o'.userId = o.userId)
    (hstore : out.state.store = s.store.paid o' upd)
    (hcredit : out.credit.getD 0 = s.store.gain o.userId upd.quota)
    (hpending : o.status = .pending) (hpaid : o'.status = .success) :
    out.Affects c tradeNo s o := by
  refine ⟨o', ?_, huser, ?_, .paid hpending hpaid⟩
  · rw [hstore]
    exact find?_save hkey ho
  · rw [hcredit]
    refine credited_of_update ?_
    rw [hstore, paid, huser]
    rfl

theorem creditOn_getD {worth : TopUp → ℚ} (hpending : o.status = .pending) :
    (s.store.creditOn tradeNo worth).getD 0 = s.store.gain o.userId (worth o) := by
  rw [creditOn, ho, gain]
  by_cases huser : (s.store.users.find? o.userId).isSome <;> simp [hpending, huser]

theorem affects_settle {worth : TopUp → ℚ} {r : Except Halt (Unit × PaymentStore)}
    (hr : ∀ store, r = .ok ((), store) → Completed s.store o worth store)
    (hexpires : ¬ c.Expires tradeNo s) (hsubscribes : ¬ c.Subscribes tradeNo s) :
    (s.settle tradeNo worth r).Affects c tradeNo s o := by
  cases r with
  | error e => exact affects_untouched ho rfl hexpires hsubscribes
  | ok p =>
    obtain ⟨⟨⟩, store⟩ := p
    have hkey : o.tradeNo = tradeNo := (find?_eq_some.mp ho).2
    rcases hr store rfl with ⟨hstatus, rfl⟩ | ⟨hpending, now, upd, hquota, rfl⟩
    · have hcredit : s.store.creditOn tradeNo worth = none := by
        rw [creditOn, ho]
        exact if_neg fun h => hstatus h.1
      rw [PaymentState.settle, hcredit]
      exact affects_untouched ho rfl hexpires hsubscribes
    · have hkey' : (o.complete now).tradeNo = tradeNo := hkey
      refine affects_paid ho hkey' rfl rfl ?_ hpending rfl
      rw [hquota]
      exact creditOn_getD ho hpending

omit ho in
theorem not_subscribes_of_event (h : c.event.completesCheckout = false) :
    ¬ c.Subscribes tradeNo s := fun hsub => by
  have := h.symm.trans hsub.checkout
  cases this

theorem affects_epayNotify {tradeStatus : String} (hexpires : ¬ c.Expires tradeNo s)
    (hsubscribes : ¬ c.Subscribes tradeNo s) :
    (handleEpayNotify c tradeNo s tradeStatus).Affects c tradeNo s o := by
  unfold handleEpayNotify
  by_cases htrade : tradeStatus = "TRADE_SUCCESS"
  swap
  · rw [if_neg htrade]
    exact affects_untouched ho rfl hexpires hsubscribes
  rw [if_pos htrade]
  by_cases hpays : EpayPays c.db "TRADE_SUCCESS" o
  · have hkey : ({ o with status := .success } : TopUp).tradeNo = tradeNo :=
      (find?_eq_some.mp ho).2
    refine affects_paid ho hkey rfl (epayNotify_pays ho hpays) ?_ hpays.pending rfl
    simp only [epayCredit_pays ho hpays, gain, add]
    by_cases hcredits : EpayCredits c.cfg c.db o <;>
      by_cases huser : (s.store.users.find? o.userId).isSome <;> simp [hcredits, huser]
  · obtain ⟨hstore, hcredit⟩ := epayNotify_idle ho hpays
    rw [hstore, hcredit]
    exact affects_untouched ho rfl hexpires hsubscribes

theorem affects_checkout {payload : String} {top : PaymentOutcome}
    (hcheckout : c.event.completesCheckout = true) (hexpires : ¬ c.Expires tradeNo s)
    (htop : ¬ c.Subscribes tradeNo s → top.Affects c tradeNo s o) :
    (match completeSubscriptionOrder c.sub tradeNo payload s with
      | .ok s' => s'.untouched
      | .error .orderNotFound => top
      | .error _ => s.untouched).Affects c tradeNo s o := by
  -- when a subscription order could be completed, it is
  have hsubscribes : ∀ e, completeSubscriptionOrder c.sub tradeNo payload s = .error e →
      ¬ c.Subscribes tradeNo s := by
    intro e he hsub
    obtain ⟨s', hs'⟩ :=
      completeSubscriptionOrder_works ho hsub.numbered hsub.works hsub.pending
    exact absurd (he.symm.trans hs') (by simp)
  cases hresult : completeSubscriptionOrder c.sub tradeNo payload s with
  | error e =>
    have hno := hsubscribes e hresult
    cases e with
    | orderNotFound => exact htop hno
    | statusInvalid => exact affects_untouched ho rfl hexpires hno
    | other text => exact affects_untouched ho rfl hexpires hno
  | ok s' =>
    rcases completeSubscriptionOrder_eq_ok ho hresult with
      ⟨rfl, hstatus⟩ | ⟨hnumbered, hworks, hpending, ⟨o', hrow, hpaid, huser⟩, hquota⟩
    · exact affects_untouched ho rfl hexpires fun hsub => hstatus hsub.pending
    · refine ⟨o', hrow, huser, ?_, .listed ⟨hcheckout, hnumbered, hworks, hpending⟩ hpaid⟩
      exact sub_eq_zero.mpr (hquota o.userId)

omit ho in
theorem not_expires_of_event {event : PaymentEvent} (hevent : c.event = event)
    (h : event ≠ .sessionExpired "expired") : ¬ c.Expires tradeNo s :=
  fun hexpires => h (hevent.symm.trans hexpires.event)

theorem affects_expireOrder (hevent : c.event = .sessionExpired "expired")
    (hnumbered : tradeNo ≠ "")
    (hresult : expireSubscriptionOrder c.sub tradeNo s = .error .orderNotFound) :
    (match firstOrder c.db tradeNo s.store with
      | .error _ => s.untouched
      | .ok topUp =>
        match saveOrder c.db { topUp with status := .expired } s.store with
        | .error _ => s.untouched
        | .ok store => ⟨{ s with store := store }, none⟩).Affects c tradeNo s o := by
  have hsubscribes : ¬ c.Subscribes tradeNo s := not_subscribes_of_event (by rw [hevent]; rfl)
  obtain ⟨-, hbegin, hnone⟩ := expireSubscriptionOrder_eq_orderNotFound.mp hresult
  by_cases hfind : c.db.findOrder = none
  swap
  · obtain ⟨text, htext⟩ := ne_none_iff_exists'.mp hfind
    simp only [firstOrder, htext]
    exact affects_untouched ho rfl (fun h => hfind h.findOrder) hsubscribes
  simp only [firstOrder_eq_ok.mpr ⟨hfind, ho⟩]
  by_cases hsave : c.db.saveOrder = none
  swap
  · obtain ⟨text, htext⟩ := ne_none_iff_exists'.mp hsave
    simp only [saveOrder, htext, attempt, bind, Except.bind]
    exact affects_untouched ho rfl (fun h => hsave h.saveOrder) hsubscribes
  simp only [saveOrder, hsave, attempt, bind, Except.bind, pure, Except.pure]
  have hkey : ({ o with status := .expired } : TopUp).tradeNo = tradeNo :=
    (find?_eq_some.mp ho).2
  exact ⟨_, find?_save hkey ho, rfl, credited_of_users_eq rfl,
    .expired ⟨hevent, hnumbered, hbegin, hnone, hfind, hsave⟩⟩

theorem affects_sessionExpired {status : String} (hevent : c.event = .sessionExpired status) :
    (sessionExpired c tradeNo s status).Affects c tradeNo s o := by
  have hsubscribes : ¬ c.Subscribes tradeNo s := not_subscribes_of_event (by rw [hevent]; rfl)
  -- an expiry that gets through has found no subscription order
  have hnotFound : ∀ r, expireSubscriptionOrder c.sub tradeNo s = r →
      r ≠ .error .orderNotFound → ¬ c.Expires tradeNo s := by
    intro r hr hne h
    refine hne (hr.symm.trans ?_)
    exact expireSubscriptionOrder_eq_orderNotFound.mpr ⟨h.numbered, h.beginTx, h.noSubscription⟩
  unfold sessionExpired
  split
  · rename_i hstatus
    refine affects_untouched ho rfl (not_expires_of_event hevent ?_) hsubscribes
    exact fun h => hstatus (PaymentEvent.sessionExpired.inj h)
  rename_i hstatus
  rw [not_not.mp hstatus] at hevent
  split
  · rename_i hempty
    exact affects_untouched ho rfl (fun h => h.numbered hempty) hsubscribes
  rename_i hnumbered
  cases hresult : expireSubscriptionOrder c.sub tradeNo s with
  | ok s' =>
    have hexpires := hnotFound _ hresult (by simp)
    exact affects_untouched ho (store_of_expireSubscriptionOrder hresult) hexpires hsubscribes
  | error e =>
    cases e with
    | orderNotFound => exact affects_expireOrder ho hevent hnumbered hresult
    | statusInvalid =>
      exact affects_untouched ho rfl (hnotFound _ hresult (by simp)) hsubscribes
    | other text =>
      exact affects_untouched ho rfl (hnotFound _ hresult (by simp)) hsubscribes

theorem affects_sessionCompleted {customerId status payload : String}
    (hevent : c.event = .sessionCompleted customerId status payload) :
    (sessionCompleted c tradeNo s customerId status payload).Affects c tradeNo s o := by
  have hexpires : ¬ c.Expires tradeNo s := not_expires_of_event hevent (by simp)
  unfold sessionCompleted
  split
  · rename_i hstatus
    refine affects_untouched ho rfl hexpires (not_subscribes_of_event ?_)
    rw [hevent]
    exact decide_eq_false hstatus
  · rename_i hstatus
    refine affects_checkout ho ?_ hexpires fun hsubscribes =>
      affects_settle ho (fun _ h => recharge_completed ho h) hexpires hsubscribes
    rw [hevent]
    exact decide_eq_true (not_not.mp hstatus)

theorem affects_checkoutCompleted {orderStatus orderType customerEmail payload : String}
    (hevent : c.event = .checkoutCompleted orderStatus orderType customerEmail payload) :
    (handleCheckoutCompleted c tradeNo s orderStatus orderType customerEmail payload).Affects
      c tradeNo s o := by
  have hexpires : ¬ c.Expires tradeNo s := not_expires_of_event hevent (by simp)
  unfold handleCheckoutCompleted
  split
  · rename_i hstatus
    refine affects_untouched ho rfl hexpires (not_subscribes_of_event ?_)
    rw [hevent]
    exact decide_eq_false hstatus
  split
  · rename_i hempty
    exact affects_untouched ho rfl hexpires fun h => h.numbered hempty
  rename_i hstatus _
  refine affects_checkout ho ?_ hexpires fun hsubscribes => ?_
  · rw [hevent]
    exact decide_eq_true (not_not.mp hstatus)
  split
  · exact affects_untouched ho rfl hexpires hsubscribes
  split
  · exact affects_untouched ho rfl hexpires hsubscribes
  split
  · exact affects_untouched ho rfl hexpires hsubscribes
  · exact affects_settle ho (fun _ h => rechargeCreem_completed ho h) hexpires hsubscribes

/-- **Everything an event can do** to its order and to the quota of its user. -/
theorem call_effect : (c.outcome tradeNo s).Affects c tradeNo s o := by
  unfold PaymentCall.outcome
  cases hevent : c.event with
  | sessionExpired status => exact affects_sessionExpired ho hevent
  | sessionCompleted customerId status payload => exact affects_sessionCompleted ho hevent
  | checkoutCompleted orderStatus orderType customerEmail payload =>
    exact affects_checkoutCompleted ho hevent
  | epayNotify tradeStatus =>
    exact affects_epayNotify ho (not_expires_of_event hevent (by simp))
      (not_subscribes_of_event (by rw [hevent]; rfl))
  | adminCompleteTopUp =>
    have hexpires : ¬ c.Expires tradeNo s := not_expires_of_event hevent (by simp)
    have hsubscribes : ¬ c.Subscribes tradeNo s := not_subscribes_of_event (by rw [hevent]; rfl)
    simp only [adminCompleteTopUp]
    split
    · exact affects_untouched ho rfl hexpires hsubscribes
    · exact affects_settle ho (fun _ h => manualCompleteTopUp_completed ho h) hexpires hsubscribes

end Effect

end NomoApi
