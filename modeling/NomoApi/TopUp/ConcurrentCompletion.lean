import NomoApi.TopUp.CompletionTx

/-! # Completions at the same time

Each call of `CompleteSubscriptionOrder` checks that its order is pending and that the purchase
limit of the plan is not reached, and creates a subscription later. Nothing keeps the checks true in
between. -/

namespace NomoApi

open CompletionTx Table Option CompletionRace CompletionCall

universe u

/-- **Nobody has more subscriptions of a plan than its limit allows.** -/
def OrderTables.WithinLimits (env : PurchaseEnv) (t : OrderTables) : Prop :=
  ∀ userId id plan, env.getPlan id = .ok plan → 0 < plan.maxPurchasePerUser →
    ((t.purchases userId id).length : Int) ≤ plan.maxPurchasePerUser

/-- **The order could still be completed**: it is pending, and the limit of its plan is not reached.
-/
def OrderTables.StillAllowed (env : PurchaseEnv) (t : OrderTables) (tradeNo : String) : Prop :=
  ∃ order, t.payments.subscriptionOrders.find? tradeNo = some order ∧ order.status = .pending ∧
    ∀ plan, env.getPlan order.planId = .ok plan → ¬ t.LimitReached order.userId plan

def CompletionTx.HasCreated (tx : CompletionTx) : Prop := tx.phase = .done ∧ tx.created ≠ none

def CompletionPhase.isOpen : CompletionPhase → Bool
  | .rollingBack _ => false
  | .done => false
  | .failed _ => false
  | _ => true

def CompletionTx.pendingRow (tx : CompletionTx) : Option UserSubscription :=
  if tx.phase.isOpen then tx.created else none

/-- **Calls that run at the same time**, and the tables they start from. No limit is exceeded. -/
structure PurchaseRace (ι : Type u) where
  env : PurchaseEnv
  calls : ι → CompletionCall
  tables : OrderTables
  nextId : Int
  ids : ∀ r ∈ tables.subs, r.id < nextId
  within : tables.WithinLimits env

namespace PurchaseRace

variable {ι : Type u}

/-- **Every order is fulfilled once**: at most one call creates a subscription for a pending order,
and the limits of the plans are kept. -/
structure FulfilledOnce (x : PurchaseRace ι) (p : CompletionRace ι) : Prop where
  pending : ∀ i, (p.phase i).HasCreated →
    (x.tables.payments.subscriptionOrders.find? (x.calls i).tradeNo).map SubscriptionOrder.status =
      some .pending
  once : ∀ i j, (x.calls i).tradeNo = (x.calls j).tradeNo → (p.phase i).HasCreated →
    (p.phase j).HasCreated → i = j
  limits : p.shared.tables.WithinLimits x.env

/-- **A commit that creates a subscription comes while its order could still be completed.** -/
def AllowedAtCommit (x : PurchaseRace ι) (p : CompletionRace ι) : TxEvent ι → Prop
  | .statement i =>
    (p.phase i).phase = .committing → (p.phase i).created ≠ none →
      p.shared.tables.StillAllowed x.env (x.calls i).tradeNo
  | .abort _ _ => True

/-! ### The invariant -/

structure Reads (x : PurchaseRace ι) (i : ι) (order : SubscriptionOrder)
    (plan : SubscriptionPlan) : Prop where
  row : x.tables.payments.subscriptionOrders.find? (x.calls i).tradeNo = some order
  pending : order.status = .pending
  plan : x.env.getPlan order.planId = .ok plan

def Inserted (x : PurchaseRace ι) (i : ι) (order : SubscriptionOrder) (tx : CompletionTx) : Prop :=
  ∃ plan row, x.Reads i order plan ∧ tx.created = some row ∧ row.userId = order.userId ∧
    row.planId = plan.id

def NoPurchase (tx : CompletionTx) : Prop := tx.created = none ∧ tx.order = none

/-- **What holds of a transaction**, phase by phase. -/
def TxInv (x : PurchaseRace ι) (i : ι) (tx : CompletionTx) : Prop :=
  match tx.phase with
  | .started => NoPurchase tx
  | .counting order plan => NoPurchase tx ∧ x.Reads i order plan
  | .readingGroup order plan _ => NoPurchase tx ∧ x.Reads i order plan
  | .moving order plan _ _ => NoPurchase tx ∧ x.Reads i order plan
  | .creating order plan _ _ => NoPurchase tx ∧ x.Reads i order plan
  | .findingTopUp order => x.Inserted i order tx
  | .insertingTopUp order => x.Inserted i order tx
  | .savingTopUp order _ => x.Inserted i order tx
  | .savingOrder order => x.Inserted i order tx
  -- an order that was found completed is committed without a write
  | .committing =>
    NoPurchase tx ∨
      ∃ order, x.Inserted i order tx ∧
        tx.order = some (order.completed (x.calls i).now (x.calls i).providerPayload)
  | .done => tx.created = none ∨ ∃ order, x.Inserted i order tx
  | .rollingBack _ => True
  | .failed _ => True

/-- **The orders**: as in the beginning, or completed by a call. -/
def OrdersInv (x : PurchaseRace ι) (p : CompletionRace ι) : Prop :=
  ∀ tradeNo,
    (p.shared.tables.payments.subscriptionOrders.find? tradeNo =
        x.tables.payments.subscriptionOrders.find? tradeNo ∧
      ∀ j, (x.calls j).tradeNo = tradeNo → ¬ (p.phase j).HasCreated) ∨
    ((p.shared.tables.payments.subscriptionOrders.find? tradeNo).map SubscriptionOrder.status =
        some .success ∧
      ∃ j, (x.calls j).tradeNo = tradeNo ∧ (p.phase j).HasCreated)

/-- **The primary keys**: what was given out is smaller than the next one, and differs. -/
structure IdsInv (p : CompletionRace ι) : Prop where
  committed : ∀ r ∈ p.shared.tables.subs, r.id < p.shared.nextId
  pending : ∀ i r, (p.phase i).pendingRow = some r →
    r.id < p.shared.nextId ∧ p.shared.tables.subs.find? r.id = none
  distinct : ∀ i j r r', i ≠ j → (p.phase i).pendingRow = some r →
    (p.phase j).pendingRow = some r' → r.id ≠ r'.id

/-- **The invariant of the race.** -/
structure Inv (x : PurchaseRace ι) (p : CompletionRace ι) : Prop where
  tx : ∀ i, x.TxInv i (p.phase i)
  orders : x.OrdersInv p
  ids : IdsInv p

end PurchaseRace

/-! ### What a step can do -/

section Step

variable {ι : Type u} [DecidableEq ι] {env : PurchaseEnv} {calls : ι → CompletionCall}

/-- A statement that creates and commits nothing. -/
structure Quiet (db db' : CompletionDb ι) (tx tx' : CompletionTx) : Prop where
  tables : db'.tables = db.tables
  nextId : db'.nextId = db.nextId
  pendingRow : tx'.pendingRow = tx.pendingRow ∨ tx'.pendingRow = none
  hasCreated : tx'.HasCreated ↔ tx.HasCreated

/-- The statement that creates the subscription. -/
structure Inserts (db db' : CompletionDb ι) (tx tx' : CompletionTx) : Prop where
  tables : db'.tables = db.tables
  nextId : db'.nextId = db.nextId + 1
  pendingRow : ∃ row, tx'.pendingRow = some row ∧ row.id = db.nextId
  hasCreated : tx'.HasCreated ↔ tx.HasCreated

def CompletionPhase.isDone : CompletionPhase → Bool
  | .done => true
  | _ => false

theorem CompletionPhase.ne_done {phase : CompletionPhase} (h : phase.isDone = false) :
    phase ≠ .done := by
  rintro rfl
  cases h

open CompletionPhase (ne_done)

theorem hasCreated_iff_of_ne {tx tx' : CompletionTx} (h : tx.phase ≠ .done)
    (h' : tx'.phase ≠ .done) : tx'.HasCreated ↔ tx.HasCreated :=
  ⟨fun hcreated => absurd hcreated.1 h', fun hcreated => absurd hcreated.1 h⟩

omit [DecidableEq ι] in
theorem quiet_of_isOpen {db db' : CompletionDb ι} {tx tx' : CompletionTx}
    (hopen : tx.phase.isOpen) (htables : db'.tables = db.tables) (hnextId : db'.nextId = db.nextId)
    (hphase : tx'.phase ≠ .done) (hcreated : tx'.created = tx.created) : Quiet db db' tx tx' := by
  have hnot : tx.phase ≠ .done := by
    intro hdone
    rw [hdone] at hopen
    cases hopen
  refine ⟨htables, hnextId, ?_, hasCreated_iff_of_ne hnot hphase⟩
  rw [pendingRow, pendingRow, if_pos hopen, hcreated]
  split
  · exact .inl rfl
  · exact .inr rfl

section Phases

variable {P : CompletionPhase → Prop} {call : CompletionCall}

theorem CompletionCall.afterCount_cases {order : SubscriptionOrder} {plan : SubscriptionPlan}
    (hback : ∀ err, P (.rollingBack err))
    (hcreating : ∀ endUnix, P (.creating order plan endUnix ""))
    (hreading : ∀ endUnix, P (.readingGroup order plan endUnix)) :
    P (call.afterCount env order plan) := by
  rw [afterCount]
  split
  · exact hback _
  · split
    · exact hcreating _
    · exact hreading _

theorem CompletionCall.afterLookup_cases {found : Option SubscriptionOrder}
    (hback : ∀ err, P (.rollingBack err)) (hcommitting : P .committing)
    (hfound : ∀ order plan, found = some order → order.status = .pending →
      env.getPlan order.planId = .ok plan →
      P (.counting order plan) ∧ P (call.afterCount env order plan)) :
    P (call.afterLookup env found) := by
  cases found with
  | none => exact hback _
  | some order =>
    rw [afterLookup]
    split
    · exact hcommitting
    · split
      · exact hback _
      · rename_i hpending
        split
        · exact hback _
        · rename_i plan hplan
          obtain ⟨hcounting, hafter⟩ := hfound order plan rfl (not_not.mp hpending) hplan
          split
          · exact hback _
          · split
            · exact hback _
            · split
              · exact hcounting
              · exact hafter

theorem CompletionCall.afterCount_ne_done (call : CompletionCall) (order : SubscriptionOrder)
    (plan : SubscriptionPlan) : call.afterCount env order plan ≠ .done :=
  afterCount_cases (P := (· ≠ .done)) (fun _ => ne_done rfl) (fun _ => ne_done rfl)
    fun _ => ne_done rfl

theorem CompletionCall.afterLookup_ne_done (call : CompletionCall)
    (order : Option SubscriptionOrder) : call.afterLookup env order ≠ .done :=
  afterLookup_cases (P := (· ≠ .done)) (fun _ => ne_done rfl) (ne_done rfl)
    fun order plan _ _ _ => ⟨ne_done rfl, call.afterCount_ne_done order plan⟩

end Phases

theorem statement_cases (call : CompletionCall) (i : ι) (db : CompletionDb ι) (tx : CompletionTx)
    (hphase : tx.phase ≠ .committing) :
    Quiet db (call.statement env i db tx).1 tx (call.statement env i db tx).2 ∨
      Inserts db (call.statement env i db tx).1 tx (call.statement env i db tx).2 := by
  have hsame : Quiet db db tx tx := ⟨rfl, rfl, .inl rfl, Iff.rfl⟩
  rw [CompletionCall.statement]
  cases hcase : tx.phase with
  | committing => exact absurd hcase hphase
  | done | failed err => exact .inl hsame
  | creating order plan endUnix prevGroup =>
    exact .inr ⟨rfl, rfl, ⟨_, rfl, rfl⟩, hasCreated_iff_of_ne (ne_done (hcase ▸ rfl)) (ne_done rfl)⟩
  | rollingBack err =>
    exact .inl ⟨rfl, rfl, .inr rfl, hasCreated_iff_of_ne (ne_done (hcase ▸ rfl)) (ne_done rfl)⟩
  | started =>
    exact .inl (quiet_of_isOpen (hcase ▸ rfl) rfl rfl (call.afterLookup_ne_done _) rfl)
  | counting order plan =>
    refine .inl (quiet_of_isOpen (hcase ▸ rfl) rfl rfl ?_ rfl)
    dsimp only
    split
    · exact ne_done rfl
    · exact call.afterCount_ne_done order plan
  | readingGroup order plan endUnix =>
    refine .inl (quiet_of_isOpen (hcase ▸ rfl) rfl rfl ?_ rfl)
    dsimp only
    split <;> exact ne_done rfl
  | findingTopUp order =>
    refine .inl (quiet_of_isOpen (hcase ▸ rfl) rfl rfl ?_ rfl)
    dsimp only
    split <;> exact ne_done rfl
  | moving order plan endUnix currentGroup | savingTopUp order topUp | savingOrder order =>
    exact .inl (waits (P := fun db' tx' => Quiet db db' tx tx') hsame
      fun _ => quiet_of_isOpen (hcase ▸ rfl) rfl rfl (ne_done rfl) rfl)
  | insertingTopUp order =>
    refine .inl (waits (P := fun db' tx' => Quiet db db' tx tx') hsame fun _ => ?_)
    split
    · exact quiet_of_isOpen (hcase ▸ rfl) rfl rfl (ne_done rfl) rfl
    · exact quiet_of_isOpen (hcase ▸ rfl) rfl rfl (ne_done rfl) rfl

theorem abort_quiet (i : ι) (text : String) (db : CompletionDb ι) (tx : CompletionTx) :
    Quiet db (tx.abort i text db).1 tx (tx.abort i text db).2 := by
  have hsame : Quiet db db tx tx := ⟨rfl, rfl, .inl rfl, Iff.rfl⟩
  rw [abort]
  split
  · exact hsame
  · exact hsame
  · rename_i hdone _
    exact ⟨rfl, rfl, .inr rfl, hasCreated_iff_of_ne hdone (ne_done rfl)⟩

variable (env calls) in
theorem completionNext_cases (e : TxEvent ι) (db : CompletionDb ι) (tx : CompletionTx) :
    (Quiet db (completionNext env calls e db tx).1 tx (completionNext env calls e db tx).2 ∨
        Inserts db (completionNext env calls e db tx).1 tx (completionNext env calls e db tx).2) ∧
        (∀ i, e = .statement i → tx.phase ≠ .committing) ∨
      tx.phase = .committing ∧ ∃ i, e = .statement i := by
  cases e with
  | abort i text => exact .inl ⟨.inl (abort_quiet i text db tx), fun _ h => by cases h⟩
  | statement i =>
    by_cases hphase : tx.phase = .committing
    · exact .inr ⟨hphase, i, rfl⟩
    · exact .inl ⟨statement_cases (calls i) i db tx hphase, fun _ _ => hphase⟩

end Step

namespace PurchaseRace

/-! ### The transaction that takes a step -/

section Transaction

variable {ι : Type u} {x : PurchaseRace ι} {i : ι} {db : CompletionDb ι} {tx : CompletionTx}
  {order : SubscriptionOrder} {plan : SubscriptionPlan}

theorem txInv_afterCount (h : NoPurchase tx) (hreads : x.Reads i order plan)
    (hphase : tx.phase = (x.calls i).afterCount x.env order plan) : x.TxInv i tx := by
  refine afterCount_cases (P := fun phase => tx.phase = phase → x.TxInv i tx)
    (fun err hphase => ?_) (fun endUnix hphase => ?_) (fun endUnix hphase => ?_) hphase
  all_goals rw [TxInv, hphase]
  · trivial
  · exact ⟨h, hreads⟩
  · exact ⟨h, hreads⟩

theorem txInv_afterLookup (h : NoPurchase tx) {found : Option SubscriptionOrder}
    (hread : ∀ order, found = some order → order.status = .pending →
      x.tables.payments.subscriptionOrders.find? (x.calls i).tradeNo = some order)
    (hphase : tx.phase = (x.calls i).afterLookup x.env found) : x.TxInv i tx := by
  refine afterLookup_cases (P := fun phase => tx.phase = phase → x.TxInv i tx)
    (fun err hphase => ?_) (fun hphase => ?_) (fun order plan hfound hpending hplan => ?_) hphase
  · rw [TxInv, hphase]
    trivial
  · rw [TxInv, hphase]
    exact .inl h
  · have hreads : x.Reads i order plan := ⟨hread order hfound hpending, hpending, hplan⟩
    refine ⟨fun hphase => ?_, txInv_afterCount h hreads⟩
    rw [TxInv, hphase]
    exact ⟨h, hreads⟩

variable [DecidableEq ι]

theorem TxInv.statement (h : x.TxInv i tx) (hread : ∀ order,
      db.tables.payments.subscriptionOrders.find? (x.calls i).tradeNo = some order →
      order.status = .pending →
      x.tables.payments.subscriptionOrders.find? (x.calls i).tradeNo = some order) :
    x.TxInv i ((x.calls i).statement x.env i db tx).2 := by
  have hkept := h
  have hwait : ∀ {c : Prop} [Decidable c] {r : CompletionDb ι × CompletionTx},
      (c → x.TxInv i r.2) → x.TxInv i (if c then r else (db, tx)).2 :=
    waits (P := fun _ tx => x.TxInv i tx) h
  rw [TxInv] at h
  rw [CompletionCall.statement]
  cases hphase : tx.phase with
    rw [hphase] at h
  | started =>
    exact txInv_afterLookup h hread rfl
  | counting order plan =>
    dsimp only
    split
    · trivial
    · exact txInv_afterCount h.1 h.2 rfl
  | readingGroup order plan endUnix =>
    dsimp only
    split <;> exact h
  | moving order plan endUnix currentGroup =>
    exact hwait fun _ => h
  | creating order plan endUnix prevGroup =>
    exact ⟨plan, _, h.2, rfl, rfl, rfl⟩
  | findingTopUp order =>
    dsimp only
    cases db.tables.payments.store.orders.find? order.tradeNo with
    | none => exact h
    | some topUp => exact h
  | insertingTopUp order =>
    refine hwait fun _ => ?_
    split
    · trivial
    · exact h
  | savingTopUp order topUp =>
    exact hwait fun _ => h
  | savingOrder order =>
    exact hwait fun _ => .inr ⟨order, h, rfl⟩
  | committing =>
    rcases h with hnone | ⟨order, hinserted, -⟩
    · exact .inl hnone.1
    · exact .inr ⟨order, hinserted⟩
  | rollingBack err => trivial
  | done | failed err => exact hkept

theorem TxInv.abort (h : x.TxInv i tx) (text : String) : x.TxInv i (tx.abort i text db).2 := by
  rw [CompletionTx.abort]
  split
  · exact h
  · exact h
  · trivial

end Transaction

/-! ### What a commit does -/

section Commit

variable {ι : Type u} {x : PurchaseRace ι} {i : ι} {t : OrderTables} {tx : CompletionTx}
  {row : UserSubscription}

theorem subs_commit_none (h : tx.created = none) : (tx.commit t).subs = t.subs := by
  rw [CompletionTx.commit, h]

theorem rows_commit (h : tx.created = some row) (hfresh : t.subs.find? row.id = none) :
    (tx.commit t).subs.rows = t.subs.rows ++ [row] := by
  obtain ⟨subs, hsubs⟩ := exists_insert? hfresh
  rw [CompletionTx.commit, h]
  dsimp only
  rw [insertIgnore, hsubs, getD_some]
  exact (insert?_eq_some hsubs).1

theorem length_purchases_commit (h : tx.created = some row)
    (hfresh : t.subs.find? row.id = none) (userId planId : Int) :
    ((tx.commit t).purchases userId planId).length = (t.purchases userId planId).length +
        if row.userId = userId ∧ row.planId = planId then 1 else 0 := by
  rw [OrderTables.purchases, rows_commit h hfresh, List.filter_append, List.length_append]
  congr 1
  by_cases hrow : row.userId = userId ∧ row.planId = planId <;> simp [hrow]

theorem withinLimits_commit_iff {order : SubscriptionOrder} {plan : SubscriptionPlan}
    (hlimits : t.WithinLimits x.env) (hplan : x.env.getPlan order.planId = .ok plan)
    (h : tx.created = some row) (huser : row.userId = order.userId) (hid : row.planId = plan.id)
    (hfresh : t.subs.find? row.id = none) :
    (tx.commit t).WithinLimits x.env ↔ ¬ t.LimitReached order.userId plan := by
  have hplanId : plan.id = order.planId := x.env.getPlan_id hplan
  constructor
  · rintro hafter ⟨hmax, hreached⟩
    have hcount := hafter order.userId order.planId plan hplan hmax
    rw [length_purchases_commit h hfresh, if_pos ⟨huser, hid.trans hplanId⟩] at hcount
    rw [hplanId] at hreached
    push_cast at hcount
    omega
  · intro hnot userId id plan' hplan' hmax
    have hbefore := hlimits userId id plan' hplan' hmax
    rw [length_purchases_commit h hfresh]
    split
    · rename_i hrow
      obtain ⟨rfl, rfl⟩ := hrow
      rw [hid, hplanId, hplan] at hplan'
      cases hplan'
      have hbelow : ¬ ((t.purchases row.userId row.planId).length : Int) ≥
          plan.maxPurchasePerUser := by
        rw [huser, hid]
        exact fun hreached => hnot ⟨hmax, hreached⟩
      push_cast
      omega
    · exact hbefore

end Commit

/-! ### The race -/

section Race

variable {ι : Type u} {x : PurchaseRace ι} {p p' : CompletionRace ι}

theorem FulfilledOnce.congr (h : x.FulfilledOnce p)
    (hsubs : p'.shared.tables.subs = p.shared.tables.subs)
    (hcreated : ∀ j, (p'.phase j).HasCreated ↔ (p.phase j).HasCreated) : x.FulfilledOnce p' := by
  refine ⟨fun i hi => h.pending i ((hcreated i).mp hi), fun i j hij hi hj => ?_, ?_⟩
  · exact h.once i j hij ((hcreated i).mp hi) ((hcreated j).mp hj)
  · intro userId id plan hplan hmax
    rw [OrderTables.purchases, hsubs]
    exact h.limits userId id plan hplan hmax

theorem OrdersInv.congr (h : x.OrdersInv p)
    (horders : p'.shared.tables.payments.subscriptionOrders =
      p.shared.tables.payments.subscriptionOrders)
    (hcreated : ∀ j, (p'.phase j).HasCreated ↔ (p.phase j).HasCreated) : x.OrdersInv p' := by
  intro tradeNo
  rw [horders]
  rcases h tradeNo with ⟨hsame, hnone⟩ | ⟨hsuccess, j, hj, hcreator⟩
  · exact .inl ⟨hsame, fun j hj hcreator => hnone j hj ((hcreated j).mp hcreator)⟩
  · exact .inr ⟨hsuccess, j, hj, (hcreated j).mpr hcreator⟩

theorem OrdersInv.eq_of_pending (h : x.OrdersInv p) {tradeNo : String} {order : SubscriptionOrder}
    (hfind : p.shared.tables.payments.subscriptionOrders.find? tradeNo = some order)
    (hpending : order.status = .pending) :
    x.tables.payments.subscriptionOrders.find? tradeNo = some order ∧
      ∀ j, (x.calls j).tradeNo = tradeNo → ¬ (p.phase j).HasCreated := by
  rcases h tradeNo with ⟨hsame, hnone⟩ | ⟨hsuccess, -⟩
  · exact ⟨hsame.symm.trans hfind, hnone⟩
  · rw [hfind, map_some, hpending] at hsuccess
    cases hsuccess

/-- **The keys after a step of `i`**: its row is the one it had, or has the next key, and what it
commits is its row. -/
theorem IdsInv.of_step (h : IdsInv p) {i : ι} (hnextId : p.shared.nextId ≤ p'.shared.nextId)
    (hothers : ∀ j, j ≠ i → (p'.phase j).pendingRow = (p.phase j).pendingRow)
    (hself : ∀ r, (p'.phase i).pendingRow = some r → (p.phase i).pendingRow = some r ∨
      r.id = p.shared.nextId ∧ p.shared.nextId < p'.shared.nextId)
    (hsubs : ∀ r ∈ p'.shared.tables.subs, r ∈ p.shared.tables.subs ∨
      (p.phase i).pendingRow = some r ∧ (p'.phase i).pendingRow = none) : IdsInv p' := by
  have hrow : ∀ {j r}, (p'.phase j).pendingRow = some r → (p.phase j).pendingRow = some r ∨
      j = i ∧ r.id = p.shared.nextId ∧ p.shared.nextId < p'.shared.nextId := by
    intro j r hr
    by_cases hj : j = i
    · subst hj
      exact (hself r hr).imp_right fun hnew => ⟨rfl, hnew⟩
    · exact .inl ((hothers j hj).symm.trans hr)
  have hbelow : ∀ r ∈ p'.shared.tables.subs, r.id < p.shared.nextId := by
    intro r hr
    rcases hsubs r hr with hr | ⟨hr, -⟩
    · exact h.committed r hr
    · exact (h.pending i r hr).1
  refine ⟨fun r hr => (hbelow r hr).trans_le hnextId, fun j r hr => ?_,
    fun j k r r' hne hr hr' => ?_⟩
  · rcases hrow hr with hold | ⟨-, hid, hlt⟩
    · obtain ⟨hless, hfresh⟩ := h.pending j r hold
      refine ⟨hless.trans_le hnextId, find?_eq_none.mpr fun r' hr' => ?_⟩
      -- a row that was committed before, or the row of this commit
      rcases hsubs r' hr' with hr' | ⟨hown, hnone⟩
      · exact find?_eq_none.mp hfresh r' hr'
      · have hj : j ≠ i := by
          rintro rfl
          cases hnone.symm.trans hr
        exact (h.distinct j i r r' hj hold hown).symm
    · refine ⟨by omega, find?_eq_none.mpr fun r' hr' => ?_⟩
      have hless := hbelow r' hr'
      omega
  · -- the new key is larger than the one of any other transaction
    rcases hrow hr with hold | ⟨hj, hid, -⟩ <;> rcases hrow hr' with hold' | ⟨hk, hid', -⟩
    · exact h.distinct j k r r' hne hold hold'
    · have hless := (h.pending j r hold).1
      omega
    · have hless := (h.pending k r' hold').1
      omega
    · exact absurd (hj.trans hk.symm) hne

end Race

/-! ### The exact condition -/

section Exact

variable {ι : Type u} [DecidableEq ι]

abbrev step (x : PurchaseRace ι) : CompletionRace ι → TxEvent ι → CompletionRace ι :=
  completionStep x.env x.calls

variable {x : PurchaseRace ι} {p : CompletionRace ι} {e : TxEvent ι}

theorem Inv.tx_step (h : x.Inv p) (e : TxEvent ι) (i : ι) :
    x.TxInv i ((x.step p e).phase i) := by
  refine forall_interleave (J := fun i _ tx => x.TxInv i tx) ?_ (fun j _ => h.tx j) i
  cases e with
  | abort j text => exact (h.tx j).abort text
  | statement j =>
    exact (h.tx j).statement fun order hfind hpending =>
      (h.orders.eq_of_pending hfind hpending).1

theorem hasCreated_step
    (h : (completionNext x.env x.calls e p.shared (p.phase e.who)).2.HasCreated ↔
      (p.phase e.who).HasCreated) (j : ι) :
    ((x.step p e).phase j).HasCreated ↔ (p.phase j).HasCreated := by
  rw [step, completionStep]
  by_cases hj : j = e.who
  · subst hj
    rw [phase_interleave_self]
    exact h
  · rw [phase_interleave_of_ne hj]

theorem pendingRow_step_of_ne {j : ι} (hj : j ≠ e.who) :
    ((x.step p e).phase j).pendingRow = (p.phase j).pendingRow := by
  rw [step, completionStep, phase_interleave_of_ne hj]

theorem Inv.step_of_tables (h : x.Inv p)
    (htables : (x.step p e).shared.tables = p.shared.tables)
    (hcreated : (completionNext x.env x.calls e p.shared (p.phase e.who)).2.HasCreated ↔
      (p.phase e.who).HasCreated) (hids : IdsInv (x.step p e)) :
    x.Inv (x.step p e) ∧
      (x.FulfilledOnce p → x.FulfilledOnce (x.step p e)) :=
  ⟨⟨h.tx_step e, h.orders.congr (by rw [htables]) (hasCreated_step hcreated), hids⟩,
    fun hp => hp.congr (by rw [htables]) (hasCreated_step hcreated)⟩

theorem Inv.step_of_cases (h : x.Inv p)
    (hcases : Quiet p.shared (completionNext x.env x.calls e p.shared (p.phase e.who)).1
        (p.phase e.who) (completionNext x.env x.calls e p.shared (p.phase e.who)).2 ∨
      Inserts p.shared (completionNext x.env x.calls e p.shared (p.phase e.who)).1
        (p.phase e.who) (completionNext x.env x.calls e p.shared (p.phase e.who)).2) :
    x.Inv (x.step p e) ∧
      (x.FulfilledOnce p → x.FulfilledOnce (x.step p e)) := by
  rcases hcases with hquiet | hinserts
  · refine h.step_of_tables hquiet.tables hquiet.hasCreated
      (h.ids.of_step hquiet.nextId.ge (fun _ => pendingRow_step_of_ne) (fun r hr => .inl ?_)
        fun r hr => .inl (hquiet.tables ▸ hr))
    rw [step, completionStep, phase_interleave_self] at hr
    rcases hquiet.pendingRow with hsame | hnone
    · exact hsame.symm.trans hr
    · cases hnone.symm.trans hr
  · obtain ⟨row, hrow, hid⟩ := hinserts.pendingRow
    have hnext : p.shared.nextId < (x.step p e).shared.nextId :=
      (Int.lt_succ _).trans_eq hinserts.nextId.symm
    refine h.step_of_tables hinserts.tables hinserts.hasCreated
      (h.ids.of_step hnext.le (fun _ => pendingRow_step_of_ne) (fun r hr => .inr ⟨?_, hnext⟩)
        fun r hr => .inl (hinserts.tables ▸ hr))
    rw [step, completionStep, phase_interleave_self] at hr
    cases hrow.symm.trans hr
    exact hid

/-! The commit of a call. -/

section

variable {i : ι}

theorem phase_commit_of_ne {j : ι} (hj : j ≠ i) :
    (x.step p (.statement i)).phase j = p.phase j :=
  phase_interleave_of_ne (e := TxEvent.statement i) hj

variable (hphase : (p.phase i).phase = .committing)

include hphase

theorem shared_commit : (x.step p (.statement i)).shared = { p.shared with
        tables := (p.phase i).commit p.shared.tables, locks := p.shared.locks.release i } := by
  rw [step, completionStep, shared_interleave]
  exact congrArg Prod.fst (statement_committing hphase)

theorem phase_commit : (x.step p (.statement i)).phase i =
      { p.phase i with phase := .done } := by
  refine (phase_interleave_self (e := TxEvent.statement i)).trans ?_
  exact congrArg Prod.snd (statement_committing hphase)

theorem hasCreated_commit_iff (j : ι) :
    ((x.step p (.statement i)).phase j).HasCreated ↔
      (p.phase j).HasCreated ∨ j = i ∧ (p.phase i).created ≠ none := by
  by_cases hj : j = i
  · subst hj
    rw [phase_commit hphase, HasCreated, HasCreated, hphase]
    constructor
    · exact fun hcreated => .inr ⟨rfl, hcreated.2⟩
    · rintro (hcreated | hcreated)
      · cases hcreated.1
      · exact ⟨rfl, hcreated.2⟩
  · rw [phase_commit_of_ne hj]
    exact ⟨.inl, fun h => h.resolve_right fun hi => hj hi.1⟩

theorem Inv.ids_commit (h : x.Inv p) : IdsInv (x.step p (.statement i)) := by
  have hnone : ((x.step p (.statement i)).phase i).pendingRow = none := by
    rw [phase_commit hphase]
    rfl
  refine h.ids.of_step (i := i) (by rw [shared_commit hphase]) (fun j hj => ?_)
    (fun r hr => by cases hnone.symm.trans hr) fun r hr => ?_
  · rw [phase_commit_of_ne hj]
  · rw [shared_commit hphase] at hr
    have hpending : (p.phase i).pendingRow = (p.phase i).created := by
      rw [pendingRow, hphase]
      rfl
    cases hcreated : (p.phase i).created with
    | none => exact .inl (subs_commit_none (t := p.shared.tables) hcreated ▸ hr)
    | some row =>
      rw [hcreated] at hpending
      have hrows := rows_commit hcreated (h.ids.pending i row hpending).2
      rw [mem_iff, hrows, List.mem_append, List.mem_singleton] at hr
      rcases hr with hr | rfl
      · exact .inl hr
      · exact .inr ⟨hpending, hnone⟩

theorem Inv.commit_none (h : x.Inv p) (hnone : NoPurchase (p.phase i)) :
    x.Inv (x.step p (.statement i)) ∧
      (x.FulfilledOnce p → x.FulfilledOnce (x.step p (.statement i))) := by
  have hcreated : ∀ j, ((x.step p (.statement i)).phase j).HasCreated ↔
      (p.phase j).HasCreated := by
    intro j
    rw [hasCreated_commit_iff hphase, or_iff_left]
    exact fun hi => hi.2 hnone.1
  refine ⟨⟨h.tx_step _, h.orders.congr ?_ hcreated, h.ids_commit hphase⟩,
    fun hp => hp.congr ?_ hcreated⟩
  · rw [shared_commit hphase, CompletionTx.commit, hnone.2]
  · rw [shared_commit hphase]
    exact subs_commit_none hnone.1

theorem OrdersInv.commit_some (h : x.OrdersInv p) {order : SubscriptionOrder}
    (hinserted : x.Inserted i order (p.phase i)) (horder : (p.phase i).order =
      some (order.completed (x.calls i).now (x.calls i).providerPayload)) :
    x.OrdersInv (x.step p (.statement i)) := by
  obtain ⟨plan, row, hreads, hrow, -⟩ := hinserted
  have hkey : order.tradeNo = (x.calls i).tradeNo := (find?_eq_some.mp hreads.row).2
  have horders : (x.step p (.statement i)).shared.tables.payments.subscriptionOrders =
        p.shared.tables.payments.subscriptionOrders.save
          (order.completed (x.calls i).now (x.calls i).providerPayload) := by
    rw [shared_commit hphase, CompletionTx.commit, horder]
  have hcreates : ((x.step p (.statement i)).phase i).HasCreated := by
    refine (hasCreated_commit_iff hphase i).mpr (.inr ⟨rfl, ?_⟩)
    rw [hrow]
    exact some_ne_none row
  intro tradeNo
  rw [horders]
  by_cases htradeNo : tradeNo = (x.calls i).tradeNo
  · right
    subst htradeNo
    -- `save` replaces a row that is there: the order of the beginning, or one completed since
    obtain ⟨before, hbefore⟩ : ∃ before,
        p.shared.tables.payments.subscriptionOrders.find? (x.calls i).tradeNo = some before := by
      rcases h (x.calls i).tradeNo with ⟨hsame, -⟩ | ⟨hsuccess, -⟩
      · exact ⟨order, hsame.trans hreads.row⟩
      · obtain ⟨before, hbefore, -⟩ := map_eq_some_iff.mp hsuccess
        exact ⟨before, hbefore⟩
    have hcompleted : (order.completed (x.calls i).now (x.calls i).providerPayload).tradeNo =
        (x.calls i).tradeNo := hkey
    rw [find?_save hcompleted hbefore]
    exact ⟨rfl, i, rfl, hcreates⟩
  · have hne : tradeNo ≠ (order.completed (x.calls i).now (x.calls i).providerPayload).tradeNo :=
      fun heq => htradeNo (heq.trans hkey)
    rw [find?_save_of_ne hne]
    rcases h tradeNo with ⟨hsame, hnone⟩ | ⟨hsuccess, j, hj, hcreator⟩
    · refine .inl ⟨hsame, fun j hj hcreator => ?_⟩
      rcases (hasCreated_commit_iff hphase j).mp hcreator with hcreator | ⟨rfl, -⟩
      · exact hnone j hj hcreator
      · exact htradeNo hj.symm
    · exact .inr ⟨hsuccess, j, hj, (hasCreated_commit_iff hphase j).mpr (.inl hcreator)⟩

/-- **The commit of a subscription** is right exactly if the order could still be completed. -/
theorem Inv.commit_some_iff (h : x.Inv p) (hp : x.FulfilledOnce p) {order : SubscriptionOrder}
    (hinserted : x.Inserted i order (p.phase i)) :
    x.FulfilledOnce (x.step p (.statement i)) ↔
      p.shared.tables.StillAllowed x.env (x.calls i).tradeNo := by
  obtain ⟨plan, row, hreads, hrow, huser, hid⟩ := hinserted
  have hsome : (p.phase i).created ≠ none := by
    rw [hrow]
    exact some_ne_none row
  have hpendingRow : (p.phase i).pendingRow = some row := by
    rw [pendingRow, hphase]
    exact hrow
  have hlimits := withinLimits_commit_iff hp.limits hreads.plan hrow huser hid
    (h.ids.pending i row hpendingRow).2
  have htables : (x.step p (.statement i)).shared.tables =
      (p.phase i).commit p.shared.tables := by
    rw [shared_commit hphase]
  constructor
  · intro hafter
    rcases h.orders (x.calls i).tradeNo with ⟨hsame, -⟩ | ⟨-, j, hj, hcreator⟩
    · refine ⟨order, hsame.trans hreads.row, hreads.pending, fun plan' hplan' => ?_⟩
      rw [hreads.plan] at hplan'
      cases hplan'
      exact hlimits.mp (htables ▸ hafter.limits)
    · -- another call has created a subscription for this order before
      have heq : i = j := hafter.once i j hj.symm
        ((hasCreated_commit_iff hphase i).mpr (.inr ⟨rfl, hsome⟩))
        ((hasCreated_commit_iff hphase j).mpr (.inl hcreator))
      subst heq
      rw [HasCreated, hphase] at hcreator
      cases hcreator.1
  · rintro ⟨order', hfind, hpending, hallowed⟩
    -- the order is still pending, so that no call has created a subscription for it
    obtain ⟨hinitial, hnone⟩ := h.orders.eq_of_pending hfind hpending
    have horder : order' = order := some.inj (hinitial.symm.trans hreads.row)
    subst horder
    refine ⟨fun j hj => ?_, fun j k hjk hj hk => ?_, ?_⟩
    · rcases (hasCreated_commit_iff hphase j).mp hj with hj | ⟨rfl, -⟩
      · exact hp.pending j hj
      · rw [hreads.row, map_some, hreads.pending]
    · rw [hasCreated_commit_iff hphase] at hj hk
      rcases hj with hj | ⟨rfl, -⟩ <;> rcases hk with hk | ⟨rfl, -⟩
      · exact hp.once j k hjk hj hk
      · exact absurd hj (hnone j hjk)
      · exact absurd hk (hnone k hjk.symm)
      · rfl
    · rw [htables]
      exact hlimits.mpr (hallowed plan hreads.plan)

end

theorem Inv.step (h : x.Inv p) (hp : x.FulfilledOnce p) (e : TxEvent ι) :
    x.Inv (x.step p e) ∧
      (x.FulfilledOnce (x.step p e) ↔ x.AllowedAtCommit p e) := by
  rcases completionNext_cases x.env x.calls e p.shared (p.phase e.who) with
    ⟨hcases, hnot⟩ | ⟨hphase, i, rfl⟩
  · obtain ⟨hinv, hkeeps⟩ := h.step_of_cases hcases
    refine ⟨hinv, fun _ => ?_, fun _ => hkeeps hp⟩
    cases e with
    | abort i text => trivial
    | statement i => exact fun hphase => absurd hphase (hnot i rfl)
  -- a commit, of a subscription or of nothing
  · change (p.phase i).phase = .committing at hphase
    have htx := h.tx i
    rw [TxInv, hphase] at htx
    rcases htx with hnone | ⟨order, hinserted, horder⟩
    · obtain ⟨hinv, hkeeps⟩ := h.commit_none hphase hnone
      exact ⟨hinv, fun _ _ hsome => absurd hnone.1 hsome, fun _ => hkeeps hp⟩
    · have hiff := h.commit_some_iff hphase hp hinserted
      refine ⟨⟨h.tx_step _, h.orders.commit_some hphase hinserted horder, h.ids_commit hphase⟩,
        fun hafter _ _ => hiff.mp hafter, fun hallowed => hiff.mpr (hallowed hphase ?_)⟩
      obtain ⟨plan, row, -, hrow, -⟩ := hinserted
      rw [hrow]
      exact some_ne_none row

omit [DecidableEq ι] in
theorem not_hasCreated_start (t : OrderTables) (nextId : Int) (i : ι) :
    ¬ ((start t nextId : CompletionRace ι).phase i).HasCreated := by
  intro h
  have hphase : CompletionPhase.started = .done := h.1
  cases hphase

omit [DecidableEq ι] in
theorem inv_start : x.Inv (start x.tables x.nextId) := by
  have hnone : ∀ i, ((start x.tables x.nextId : CompletionRace ι).phase i).pendingRow
      = none := fun _ => rfl
  refine ⟨fun _ => ⟨rfl, rfl⟩, fun _ => .inl ⟨rfl, fun j _ => not_hasCreated_start _ _ j⟩,
    x.ids, fun i r hr => ?_, fun i _ r _ _ hr => ?_⟩
  · rw [hnone i] at hr
    cases hr
  · rw [hnone i] at hr
    cases hr

omit [DecidableEq ι] in
theorem fulfilledOnce_start : x.FulfilledOnce (start x.tables x.nextId) where
  pending i hcreated := absurd hcreated (not_hasCreated_start _ _ i)
  once i _ _ hcreated := absurd hcreated (not_hasCreated_start _ _ i)
  limits := x.within

end Exact

end PurchaseRace

open PurchaseRace

/-- **Every order is fulfilled once and no limit is exceeded**, iff every subscription is committed
while its order could still be completed. -/
theorem fulfilledOnce_iff {ι : Type u} [DecidableEq ι] (x : PurchaseRace ι)
    (es : List (TxEvent ι)) : Always x.FulfilledOnce (completionStep x.env x.calls)
        (start x.tables x.nextId) es ↔ AllSteps x.AllowedAtCommit (completionStep x.env x.calls)
        (start x.tables x.nextId) es :=
  always_iff_allSteps (fun _ e hinv hp _ => (hinv.step hp e).2)
    (fun _ e hinv hp _ _ => (hinv.step hp e).1) inv_start fulfilledOnce_start
    (allSteps_of_forall (fun _ _ => trivial : ∀ _ _, True) _ _)

/-! ### Two callbacks at the same time -/

def hourPlans (maxPurchasePerUser : Int) : PurchaseEnv where
  loc := .utc
  getPlan id := .ok ⟨id, "basic", "hour", 1, 0, maxPurchasePerUser, "", 100, "never", 0⟩
  getPlan_id h := by
    cases h
    rfl

def pendingOrder (tradeNo : String) : SubscriptionOrder where
  userId := 1
  planId := 1
  money := 10
  tradeNo := tradeNo
  paymentMethod := "stripe"
  status := .pending
  createTime := 0
  completeTime := 0
  providerPayload := ""

def pendingOrders : OrderTables :=
  ⟨⟨⟨.empty, .empty⟩, ⟨[pendingOrder "a", pendingOrder "b"], by decide⟩⟩, .empty⟩

def orderCallback (tradeNo : String) (h : tradeNo ≠ "") : CompletionCall :=
  ⟨tradeNo, "", 60, 60, h⟩

def callbackRace (maxPurchasePerUser : Int) (tradeNo : Bool → String) (h : ∀ i, tradeNo i ≠ "") :
    PurchaseRace Bool where
  env := hourPlans maxPurchasePerUser
  calls i := orderCallback (tradeNo i) (h i)
  tables := pendingOrders
  nextId := 1
  ids _ hr := absurd hr List.not_mem_nil
  within _ _ _ _ hmax := hmax.le

def overtakenCallback (begun : Nat) : List (TxEvent Bool) :=
  List.replicate begun (.statement true) ++ List.replicate 7 (.statement false) ++
    List.replicate 5 (.statement true)

/-- **A callback that is overtaken** after it has read its pending order, or has counted those of a
plan with limit 1, creates a second subscription. -/
theorem overtaken_not_fulfilledOnce : (¬ (callbackRace 0 (fun _ => "a") (by decide)).FulfilledOnce
      (run (completionStep (hourPlans 0) fun _ => orderCallback "a" (by decide))
        (start pendingOrders 1) (overtakenCallback 1))) ∧
    ¬ (callbackRace 1 (fun i => if i then "a" else "b") (by decide)).FulfilledOnce
      (run (completionStep (hourPlans 1)
          fun i => orderCallback (if i then "a" else "b") (by cases i <;> decide))
        (start pendingOrders 1) (overtakenCallback 2)) := by
  constructor
  · intro h
    have heq : false = true :=
      h.once false true rfl ⟨rfl, some_ne_none _⟩ ⟨rfl, some_ne_none _⟩
    cases heq
  · intro h
    have hlimit := h.limits 1 1 _ rfl (by decide)
    revert hlimit
    decide +kernel

end NomoApi
