import NomoApi.Lib.Interleave
import NomoApi.Lib.Locks
import NomoApi.Subscription.Groups
import NomoApi.TopUp.Events

/-! # The completion of a subscription order, statement by statement

`CompleteSubscriptionOrder` is one transaction. The reads of the order and of the number of
subscriptions take no lock, since gorm ignores `FOR UPDATE`, and see what is committed. A write
locks its row, or the trade number that it inserts, until the transaction ends. -/

namespace NomoApi

universe u

/-- **A call of `CompleteSubscriptionOrder`**, with the times of the database and of its own clock.
-/
structure CompletionCall where
  tradeNo : String
  providerPayload : String
  dbNow : Int
  now : Int
  tradeNo_ne : tradeNo ≠ ""

structure PurchaseEnv where
  loc : Location
  getPlan : Int → Except String SubscriptionPlan
  getPlan_id : ∀ {id plan}, getPlan id = .ok plan → plan.id = id

structure OrderTables where
  payments : PaymentState
  subs : SubscriptionTable

namespace OrderTables

def groupOf (t : OrderTables) (userId : Int) : String :=
  ((t.payments.store.users.find? userId).map User.group).getD ""

def purchases (t : OrderTables) (userId planId : Int) : List UserSubscription :=
  t.subs.rows.filter fun r => r.userId = userId ∧ r.planId = planId

/-- **The purchase limit of the plan is reached.** -/
def LimitReached (t : OrderTables) (userId : Int) (plan : SubscriptionPlan) : Prop :=
  plan.maxPurchasePerUser > 0 ∧
    ((t.purchases userId plan.id).length : Int) ≥ plan.maxPurchasePerUser
deriving Decidable

end OrderTables

def SubscriptionOrder.completed (order : SubscriptionOrder) (now : Int) (providerPayload : String) :
    SubscriptionOrder :=
  { order with
    status := .success
    completeTime := now
    providerPayload := if providerPayload = "" then order.providerPayload else providerPayload }

/-- **How far a transaction has come**, with what its next statement needs. -/
inductive CompletionPhase where
  | started
  | counting (order : SubscriptionOrder) (plan : SubscriptionPlan)
  | readingGroup (order : SubscriptionOrder) (plan : SubscriptionPlan) (endUnix : Int)
  | moving (order : SubscriptionOrder) (plan : SubscriptionPlan) (endUnix : Int)
      (currentGroup : String)
  | creating (order : SubscriptionOrder) (plan : SubscriptionPlan) (endUnix : Int)
      (prevGroup : String)
  | findingTopUp (order : SubscriptionOrder)
  | insertingTopUp (order : SubscriptionOrder)
  | savingTopUp (order : SubscriptionOrder) (topUp : TopUp)
  | savingOrder (order : SubscriptionOrder)
  | committing
  | rollingBack (err : SubscriptionFailure)
  | done
  | failed (err : SubscriptionFailure)
  deriving DecidableEq

/-- **A transaction**: its phase, and what it has written. -/
structure CompletionTx where
  phase : CompletionPhase := .started
  moved : Option (Int × String) := none
  created : Option UserSubscription := none
  topUp : Option TopUp := none
  order : Option SubscriptionOrder := none

inductive CompletionLock where
  | user (id : Int)
  | topUp (tradeNo : String)
  | order (tradeNo : String)
  deriving DecidableEq

/-- **The committed tables, the locks, and the next primary key**, which is never taken back. -/
structure CompletionDb (ι : Type u) where
  tables : OrderTables
  locks : Locks ι CompletionLock
  nextId : Int

def CompletionTx.commit (tx : CompletionTx) (t : OrderTables) : OrderTables :=
  let store : PaymentStore :=
    match tx.moved with
    | none => t.payments.store
    | some (userId, group) => t.payments.store.upgradeGroup userId group
  { payments :=
      { store :=
          { store with
            orders :=
              match tx.topUp with
              | none => store.orders
              -- the row is saved if it is there, and inserted if not
              | some topUp => (store.orders.save topUp).insertIgnore topUp }
        subscriptionOrders :=
          match tx.order with
          | none => t.payments.subscriptionOrders
          | some order => t.payments.subscriptionOrders.save order }
    subs :=
      match tx.created with
      | none => t.subs
      | some row => t.subs.insertIgnore row }

def SubscriptionFailure.ofHalt : Halt → SubscriptionFailure
  | .error text => .other text
  | .diverge => .other ""

namespace CompletionCall

variable (env : PurchaseEnv) (call : CompletionCall)

def afterCount (order : SubscriptionOrder) (plan : SubscriptionPlan) : CompletionPhase :=
  match calcPlanEndTime env.loc call.dbNow plan with
  | .error err => .rollingBack (.ofHalt err)
  | .ok endUnix =>
    if trimSpace plan.upgradeGroup = "" then .creating order plan endUnix ""
    else .readingGroup order plan endUnix

def afterLookup : Option SubscriptionOrder → CompletionPhase
  | none => .rollingBack .orderNotFound
  | some order =>
    -- a completed order is reported as a success, and nothing is written
    if order.status = .success then .committing
    else if order.status ≠ .pending then .rollingBack .statusInvalid
    else
      match env.getPlan order.planId with
      | .error text => .rollingBack (.other text)
      | .ok plan =>
        if plan.id = 0 then .rollingBack (.other "invalid plan")
        else if order.userId ≤ 0 then .rollingBack (.other "invalid user id")
        else if plan.maxPurchasePerUser > 0 then .counting order plan
        else call.afterCount env order plan

variable {ι : Type u} [DecidableEq ι]

/-- **The next statement of a transaction.** A write waits for its lock. -/
def statement (i : ι) (db : CompletionDb ι) (tx : CompletionTx) : CompletionDb ι × CompletionTx :=
  match tx.phase with
  | .started =>
    -- no lock is taken: gorm v1.25 does not put `FOR UPDATE` into the query
    (db, { tx with
      phase := call.afterLookup env (db.tables.payments.subscriptionOrders.find? call.tradeNo) })
  | .counting order plan =>
    (db, { tx with
      phase :=
        -- subscriptions that are not committed are not counted
        if db.tables.LimitReached order.userId plan then
          .rollingBack (.other "已达到该套餐购买上限")
        else call.afterCount env order plan })
  | .readingGroup order plan endUnix =>
    let currentGroup := db.tables.groupOf order.userId
    (db, { tx with
      phase :=
        if currentGroup ≠ trimSpace plan.upgradeGroup then
          .moving order plan endUnix currentGroup
        else .creating order plan endUnix "" })
  | .moving order plan endUnix currentGroup =>
    if db.locks.Available i (.user order.userId) then
      ({ db with locks := db.locks.take i (.user order.userId) },
        { tx with
          moved := some (order.userId, trimSpace plan.upgradeGroup)
          phase := .creating order plan endUnix currentGroup })
    else (db, tx)
  | .creating order plan endUnix prevGroup =>
    -- no key but the new one is unique, so that the insert neither waits nor fails
    ({ db with nextId := db.nextId + 1 },
      { tx with
        created := some (newSubscription env.loc db.nextId order.userId plan "order" call.dbNow
          endUnix prevGroup)
        phase := .findingTopUp order })
  | .findingTopUp order =>
    (db, { tx with
      phase :=
        match db.tables.payments.store.orders.find? order.tradeNo with
        | none => .insertingTopUp order
        -- the top-up of an earlier completion is updated, and does not end this one
        | some topUp => .savingTopUp order (order.topUp call.now (some topUp)) })
  | .insertingTopUp order =>
    if db.locks.Available i (.topUp order.tradeNo) then
      if (db.tables.payments.store.orders.find? order.tradeNo).isSome then
        (db, { tx with
          phase := .rollingBack (.other "UNIQUE constraint failed: top_ups.trade_no") })
      else
        ({ db with locks := db.locks.take i (.topUp order.tradeNo) },
          { tx with topUp := some (order.topUp call.now none), phase := .savingOrder order })
    -- another transaction has inserted the trade number and not ended yet
    else (db, tx)
  | .savingTopUp order topUp =>
    if db.locks.Available i (.topUp order.tradeNo) then
      ({ db with locks := db.locks.take i (.topUp order.tradeNo) },
        { tx with topUp := some topUp, phase := .savingOrder order })
    else (db, tx)
  | .savingOrder order =>
    if db.locks.Available i (.order order.tradeNo) then
      ({ db with locks := db.locks.take i (.order order.tradeNo) },
        -- `Save` has no condition on the status
        { tx with
          order := some (order.completed call.now call.providerPayload)
          phase := .committing })
    else (db, tx)
  | .committing =>
    ({ db with tables := tx.commit db.tables, locks := db.locks.release i },
      { tx with phase := .done })
  | .rollingBack err =>
    ({ db with locks := db.locks.release i }, { tx with phase := .failed err })
  | .done => (db, tx)
  | .failed _ => (db, tx)

end CompletionCall

/-- **An abort** ends the transaction, unless it has ended already. -/
def CompletionTx.abort {ι : Type u} [DecidableEq ι] (i : ι) (text : String) (db : CompletionDb ι)
    (tx : CompletionTx) : CompletionDb ι × CompletionTx :=
  match tx.phase with
  | .done => (db, tx)
  | .failed _ => (db, tx)
  | _ => ({ db with locks := db.locks.release i }, { tx with phase := .failed (.other text) })

abbrev CompletionRace (ι : Type u) := Processes (CompletionDb ι) ι CompletionTx

section Race

variable {ι : Type u} [DecidableEq ι]

def completionNext (env : PurchaseEnv) (calls : ι → CompletionCall) :
    TxEvent ι → CompletionDb ι → CompletionTx → CompletionDb ι × CompletionTx
  | .statement i => (calls i).statement env i
  | .abort i text => CompletionTx.abort i text

def completionStep (env : PurchaseEnv) (calls : ι → CompletionCall) :
    CompletionRace ι → TxEvent ι → CompletionRace ι :=
  interleave TxEvent.who (completionNext env calls)

def CompletionRace.start (t : OrderTables) (nextId : Int) : CompletionRace ι :=
  ⟨⟨t, Locks.allFree, nextId⟩, fun _ => {}⟩

theorem statement_committing {env : PurchaseEnv} {call : CompletionCall} {i : ι}
    {db : CompletionDb ι} {tx : CompletionTx} (h : tx.phase = .committing) :
    call.statement env i db tx =
      ({ db with tables := tx.commit db.tables, locks := db.locks.release i },
        { tx with phase := .done }) := by
  simp [CompletionCall.statement, h]

end Race

/-! ### A call that runs alone -/

section Alone

open List Table CompletionCall

variable {env : PurchaseEnv} {call : CompletionCall} {db : CompletionDb Unit} {tx : CompletionTx}
  {order : SubscriptionOrder} {plan : SubscriptionPlan}

/-- **`n` statements of a call** that no other one interrupts. -/
def CompletionCall.after (env : PurchaseEnv) (call : CompletionCall) (n : Nat) :
    CompletionDb Unit × CompletionTx → CompletionDb Unit × CompletionTx :=
  alone (fun (_ : Unit) => call.statement env ()) (replicate n ())

def CompletionCall.orderEnv (call : CompletionCall) (plan : SubscriptionPlan) :
    SubscriptionOrderEnv :=
  ⟨call.now, none, none, .ok (trimSpace plan.upgradeGroup), none, none, none, none, none⟩

theorem after_succ (n : Nat) (x : CompletionDb Unit × CompletionTx) :
    call.after env (n + 1) x = call.after env n (call.statement env () x.1 x.2) := rfl

theorem available_unit (l : Locks Unit CompletionLock) (k : CompletionLock) : l.Available () k := by
  cases h : l k with
  | none => exact .inl h
  | some i => exact .inr h

theorem after_done (h : tx.phase = .done) (n : Nat) : call.after env n (db, tx) = (db, tx) := by
  induction n with
  | zero => rfl
  | succ n ih =>
    have hstays : call.statement env () db tx = (db, tx) := by
      simp only [CompletionCall.statement, h]
    rw [after_succ, hstays, ih]

variable (env call db tx) in
theorem after_creating {endUnix : Int} {prev : String}
    (h : tx.phase = .creating order plan endUnix prev) (n : Nat) :
    (call.after env (n + 5) (db, tx)).2.phase = .done ∧
      (call.after env (n + 5) (db, tx)).1.tables = CompletionTx.commit { tx with
        created := some (newSubscription env.loc db.nextId order.userId plan "order" call.dbNow
          endUnix prev)
        topUp := some (order.topUp call.now (db.tables.payments.store.orders.find? order.tradeNo))
        order := some (order.completed call.now call.providerPayload) } db.tables := by
  cases htop : db.tables.payments.store.orders.find? order.tradeNo <;>
    simp [after_succ, CompletionCall.statement, h, htop, available_unit, after_done,
      CompletionTx.commit]

theorem upgradeGroup_groupOf (t : OrderTables) (userId : Int) :
    t.payments.store.upgradeGroup userId (t.groupOf userId) = t.payments.store := by
  unfold PaymentStore.upgradeGroup OrderTables.groupOf
  split
  · rfl
  · congr 1
    refine Table.ext ((map_congr_left fun u hu => ?_).trans (map_id _))
    split
    · rename_i hid
      rw [← of_decide_eq_true hid, find?_key hu]
      rfl
    · rfl

theorem completeSubscriptionOrder_pending {s : PaymentState}
    (horder : s.subscriptionOrders.find? call.tradeNo = some order)
    (hpending : order.status = .pending) :
    let topUp := order.topUp call.now (s.store.orders.find? order.tradeNo)
    completeSubscriptionOrder (call.orderEnv plan) call.tradeNo call.providerPayload s =
      .ok ⟨⟨(s.store.orders.save topUp).insertIgnore topUp,
        (s.store.upgradeGroup order.userId (trimSpace plan.upgradeGroup)).users⟩,
        s.subscriptionOrders.save (order.completed call.now call.providerPayload)⟩ := by
  simp only [completeSubscriptionOrder, completeSubscriptionOrderTx, firstSubscriptionOrder,
    upsertSubscriptionTopUpTx, orderEnv, statement, SubscriptionOrder.completed, call.tradeNo_ne,
    horder, hpending, insertIgnore, bind, Except.bind, orders_upgradeGroup]
  cases htop : s.store.orders.find? order.tradeNo with
  | none =>
    have hfree : s.store.orders.find? (order.topUp call.now none).tradeNo = none := htop
    obtain ⟨orders, hinsert⟩ := exists_insert? hfree
    simp [hinsert, save_of_not_mem (find?_eq_none.mp hfree), pure, Except.pure]
  | some topUp =>
    have hsaved := find?_save (a := order.topUp call.now (some topUp)) (find?_eq_some.mp htop).2
      htop
    have htaken : (s.store.orders.save (order.topUp call.now (some topUp))).insert?
        (order.topUp call.now (some topUp)) = none :=
      dif_pos (mem_map_of_mem (find?_eq_some.mp hsaved).1)
    simp [htaken, pure, Except.pure]

/-- **Uninterrupted, nine statements are `CompleteSubscriptionOrder`**, and create what
`CreateUserSubscriptionFromPlanTx` creates. -/
theorem after_eq_completeSubscriptionOrder {row : UserSubscription} {st : GroupStore}
    (horder : db.tables.payments.subscriptionOrders.find? call.tradeNo = some order)
    (hpending : order.status = .pending) (hplan : env.getPlan order.planId = .ok plan)
    (hcreate : createUserSubscriptionFromPlanTx env.loc order.userId plan "order" call.dbNow
      ⟨db.tables.subs, db.tables.groupOf, db.nextId⟩ = .ok (row, st)) :
    ∃ s, completeSubscriptionOrder (call.orderEnv plan) call.tradeNo call.providerPayload
        db.tables.payments = .ok s ∧
      (call.after env 9 (db, {})).2.phase = .done ∧
      (call.after env 9 (db, {})).1.tables = ⟨s, st.subs⟩ := by
  refine ⟨_, completeSubscriptionOrder_pending horder hpending, ?_⟩
  obtain ⟨hid, huser, hlimit, endUnix, prev, hend, hins, hplain, hupgrade⟩ :=
    createUserSubscriptionFromPlanTx_eq_ok hcreate
  have hroom : ¬ db.tables.LimitReached order.userId plan := hlimit
  obtain ⟨n, hcount⟩ : ∃ n, call.after env 9 (db, {}) =
      call.after env (n + 7) (db, { phase := call.afterCount env order plan }) := by
    by_cases hmax : plan.maxPurchasePerUser > 0
    · refine ⟨0, ?_⟩
      rw [after_succ, after_succ]
      simp [CompletionCall.statement, afterLookup, horder, hpending, hplan, hid, huser, hmax, hroom]
    · refine ⟨1, ?_⟩
      rw [after_succ]
      simp [CompletionCall.statement, afterLookup, horder, hpending, hplan, hid, huser, hmax]
  obtain ⟨k, locks, moved, hmoved, hstore⟩ : ∃ k locks moved,
      call.after env (n + 7) (db, { phase := call.afterCount env order plan }) =
        call.after env (k + 5) ({ db with locks },
          { moved, phase := .creating order plan endUnix prev }) ∧
      (CompletionTx.commit { moved } db.tables).payments.store =
        db.tables.payments.store.upgradeGroup order.userId (trimSpace plan.upgradeGroup) := by
    by_cases hgroup : trimSpace plan.upgradeGroup = ""
    · rw [afterCount, hend, (hplain hgroup).2, hgroup]
      exact ⟨n + 2, _, none, rfl, rfl⟩
    · rw [afterCount, hend, (hupgrade hgroup).2]
      by_cases hcur : db.tables.groupOf order.userId = trimSpace plan.upgradeGroup
      · refine ⟨n + 1, db.locks, none, ?_, ?_⟩
        · rw [after_succ]
          simp [CompletionCall.statement, hgroup, hcur]
        · rw [← hcur, upgradeGroup_groupOf]
          rfl
      · refine ⟨n, db.locks.take () (.user order.userId),
          some (order.userId, trimSpace plan.upgradeGroup), ?_, rfl⟩
        rw [after_succ, after_succ]
        simp [CompletionCall.statement, hgroup, hcur, available_unit]
  rw [hcount, hmoved]
  obtain ⟨hdone, htables⟩ := after_creating env call { db with locks }
    { moved, phase := .creating order plan endUnix prev } rfl k
  refine ⟨hdone, htables.trans ?_⟩
  rw [← hstore]
  cases moved <;> simp [CompletionTx.commit, insertIgnore, hins]

end Alone

end NomoApi
