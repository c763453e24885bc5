import NomoApi.Lib.Interleave
import NomoApi.Lib.Locks
import NomoApi.Subscription.Consume

/-! # A pre-consume, statement by statement

`PreConsumeUserSubscription` is one transaction. Its reads take no lock: gorm ignores the query
option `FOR UPDATE`. A failing insert does not end the transaction. A read sees what is committed at
that time, or what was at the first statement, by the isolation level. -/

namespace NomoApi

universe u

inductive Isolation where
  /-- A statement sees what is committed when it runs. -/
  | readCommitted
  /-- All reads of a transaction see what was committed at the first one. -/
  | repeatableRead
  deriving DecidableEq

/-- **A call of `PreConsumeUserSubscription`** that passes the first checks, with its database time.
-/
structure ConsumeCall where
  requestId : String
  userId : Int
  amount : Int
  now : Int
  userId_pos : 0 < userId
  requestId_ne : trimSpace requestId ≠ ""
  amount_pos : 0 < amount

/-- **How far a transaction has come**, with what its next statement needs. -/
inductive ConsumePhase where
  | started
  | found (existing : SubscriptionPreConsumeRecord)
  | searching
  | resetting (sub : UserSubscription) (rest : List UserSubscription)
  | inserting (sub : UserSubscription)
  | refused (sub : UserSubscription)
  | charging (sub : UserSubscription)
  | committing (res : SubscriptionPreConsumeResult)
  | rollingBack (err : Halt)
  | done (res : SubscriptionPreConsumeResult)
  | failed (err : Halt)
  deriving DecidableEq

/-- **A transaction**: its phase, what it has read at its first statement, and what it has written.
-/
structure ConsumeTx where
  phase : ConsumePhase := .started
  snapshot : Option SubscriptionStore := none
  saved : List UserSubscription := []
  inserted : Option SubscriptionPreConsumeRecord := none

inductive ConsumeLock where
  | row (id : Int)
  | key (requestId : String)
  deriving DecidableEq

structure ConsumeDb (ι : Type u) where
  store : SubscriptionStore
  locks : Locks ι ConsumeLock

namespace ConsumeTx

def view {ι : Type u} (level : Isolation) (db : ConsumeDb ι) (tx : ConsumeTx) :
    SubscriptionStore :=
  match level with
  | .readCommitted => db.store
  | .repeatableRead => tx.snapshot.getD db.store

def commit (tx : ConsumeTx) (st : SubscriptionStore) : SubscriptionStore where
  subs := tx.saved.foldl Table.save st.subs
  records :=
    match tx.inserted with
    | some record => st.records.insertIgnore record
    | none => st.records

end ConsumeTx

def UserSubscription.LacksRoom (amount : Int) (sub : UserSubscription) : Prop :=
  sub.amountTotal > 0 ∧ sub.amountTotal - sub.amountUsed < amount
deriving Decidable

def UserSubscription.charged (amount : Int) (sub : UserSubscription) : UserSubscription :=
  sub.withUsed (sub.amountUsed + amount)

namespace ConsumeCall

def considerCandidates (env : SubscriptionEnv) (call : ConsumeCall) :
    List UserSubscription → ConsumePhase
  | [] =>
    .rollingBack (.error ("subscription quota insufficient, need=" ++ toString call.amount))
  | candidate :: rest =>
    match (do resetDecision env candidate (← env.getPlan candidate.planId) call.now) with
    | .error err => .rollingBack err
    | .ok .keep =>
      if candidate.LacksRoom call.amount then call.considerCandidates env rest
      else .inserting candidate
    | .ok decision => .resetting (decision.apply candidate) rest

def afterReset (env : SubscriptionEnv) (call : ConsumeCall) (sub : UserSubscription)
    (rest : List UserSubscription) : ConsumePhase :=
  if sub.LacksRoom call.amount then call.considerCandidates env rest else .inserting sub

def afterLookup : Option SubscriptionPreConsumeRecord → ConsumePhase
  | none => .searching
  | some existing =>
    if existing.status = .refunded then
      .rollingBack (.error "subscription pre-consume already refunded")
    else .found existing

def afterFound (existing : SubscriptionPreConsumeRecord) :
    Option UserSubscription → ConsumePhase
  | none => .rollingBack (.error "record not found")
  | some sub =>
    .committing
      { userSubscriptionId := sub.id, preConsumed := existing.preConsumed,
        amountTotal := sub.amountTotal, amountUsedBefore := sub.amountUsed,
        amountUsedAfter := sub.amountUsed }

def afterRefused (sub : UserSubscription) :
    Option SubscriptionPreConsumeRecord → ConsumePhase
  | none => .rollingBack (.error "duplicated key not allowed")
  | some dup =>
    if dup.status = .refunded then
      .rollingBack (.error "subscription pre-consume already refunded")
    else
      -- the reported subscription is the candidate, also when the record names another one
      .committing
        { userSubscriptionId := sub.id, preConsumed := dup.preConsumed,
          amountTotal := sub.amountTotal, amountUsedBefore := sub.amountUsed,
          amountUsedAfter := sub.amountUsed }

def chargeResult (call : ConsumeCall) (sub : UserSubscription) : SubscriptionPreConsumeResult :=
  { userSubscriptionId := sub.id, preConsumed := call.amount, amountTotal := sub.amountTotal,
    amountUsedBefore := sub.amountUsed, amountUsedAfter := (sub.charged call.amount).amountUsed }

variable {ι : Type u} [DecidableEq ι]

/-- **The next statement of a transaction.** A write waits for its lock. -/
def statement (level : Isolation) (env : SubscriptionEnv) (call : ConsumeCall) (i : ι)
    (db : ConsumeDb ι) (tx : ConsumeTx) : ConsumeDb ι × ConsumeTx :=
  match tx.phase with
  | .started =>
    -- the first read fixes what a repeatable read sees
    (db, { tx with
      snapshot := some db.store
      phase := afterLookup (db.store.records.find? call.requestId) })
  | .found existing =>
    (db, { tx with
      phase := afterFound existing ((tx.view level db).subs.find? existing.userSubscriptionId) })
  | .searching =>
    let subs := activeSubscriptions (tx.view level db).subs call.userId call.now
    (db, { tx with
      phase :=
        if subs = [] then .rollingBack (.error "no active subscription")
        else call.considerCandidates env subs })
  | .resetting sub rest =>
    if db.locks.Available i (.row sub.id) then
      ({ db with locks := db.locks.take i (.row sub.id) },
        -- `Save` writes all columns of the row as it was read and reset
        { tx with saved := tx.saved ++ [sub], phase := call.afterReset env sub rest })
    else (db, tx)
  | .inserting sub =>
    if db.locks.Available i (.key call.requestId) then
      -- the unique index is checked against what is committed, whatever the isolation level
      if (db.store.records.find? call.requestId).isSome then
        (db, { tx with phase := .refused sub })
      else
        ({ db with locks := db.locks.take i (.key call.requestId) },
          { tx with
            inserted := some (consumedRecord call.requestId call.userId sub.id call.amount)
            phase := .charging sub })
    -- another transaction has inserted the key and not ended yet
    else (db, tx)
  | .refused sub =>
    (db, { tx with
      phase := afterRefused sub ((tx.view level db).records.find? call.requestId) })
  | .charging sub =>
    if db.locks.Available i (.row sub.id) then
      ({ db with locks := db.locks.take i (.row sub.id) },
        { tx with
          saved := tx.saved ++ [sub.charged call.amount]
          phase := .committing (call.chargeResult sub) })
    else (db, tx)
  | .committing res => (⟨tx.commit db.store, db.locks.release i⟩, { tx with phase := .done res })
  | .rollingBack err =>
    ({ db with locks := db.locks.release i }, { tx with phase := .failed err })
  | .done _ => (db, tx)
  | .failed _ => (db, tx)

end ConsumeCall

/-- **An abort** ends the transaction, unless it has ended already. -/
def ConsumeTx.abort {ι : Type u} [DecidableEq ι] (i : ι) (text : String) (db : ConsumeDb ι)
    (tx : ConsumeTx) : ConsumeDb ι × ConsumeTx :=
  match tx.phase with
  | .done _ => (db, tx)
  | .failed _ => (db, tx)
  | _ => ({ db with locks := db.locks.release i }, { tx with phase := .failed (.error text) })

open ConsumeCall

abbrev ConsumeRace (ι : Type u) := Processes (ConsumeDb ι) ι ConsumeTx

section Race

variable {ι : Type u} [DecidableEq ι]

def consumeNext (level : Isolation) (env : SubscriptionEnv) (calls : ι → ConsumeCall) :
    TxEvent ι → ConsumeDb ι → ConsumeTx → ConsumeDb ι × ConsumeTx
  | .statement i => (calls i).statement level env i
  | .abort i text => ConsumeTx.abort i text

def consumeStep (level : Isolation) (env : SubscriptionEnv) (calls : ι → ConsumeCall) :
    ConsumeRace ι → TxEvent ι → ConsumeRace ι :=
  interleave TxEvent.who (consumeNext level env calls)

def ConsumeRace.start (st : SubscriptionStore) : ConsumeRace ι :=
  ⟨⟨st, Locks.allFree⟩, fun _ => {}⟩

variable (level : Isolation) (env : SubscriptionEnv) (calls : ι → ConsumeCall)

theorem consumeNext_store (e : TxEvent ι) (db : ConsumeDb ι) (tx : ConsumeTx) :
    (consumeNext level env calls e db tx).1.store = db.store ∨ ∃ res, tx.phase = .committing res ∧
        (consumeNext level env calls e db tx).1.store = tx.commit db.store := by
  cases e with
  | abort i text =>
    left
    rw [consumeNext, ConsumeTx.abort]
    split <;> rfl
  | statement i =>
    have hwait : ∀ {c : Prop} [Decidable c] {r : ConsumeDb ι × ConsumeTx},
        (c → r.1.store = db.store) → (if c then r else (db, tx)).1.store = db.store :=
      waits (P := fun (db' : ConsumeDb ι) (_ : ConsumeTx) => db'.store = db.store) rfl
    rw [consumeNext, statement]
    cases hphase : tx.phase with
    | committing res => exact .inr ⟨res, rfl, rfl⟩
    | started | found existing | searching | refused sub | rollingBack err | done res
    | failed err => exact .inl rfl
    | resetting sub rest | charging sub =>
      exact .inl (hwait fun _ => rfl)
    | inserting sub =>
      refine .inl (hwait fun _ => ?_)
      split <;> rfl

variable {level env calls}

theorem consumeNext_locks {e : TxEvent ι} {db : ConsumeDb ι} {j : ι} {k : ConsumeLock}
    (tx : ConsumeTx) (hne : j ≠ e.who) (hk : db.locks k = some j) :
    (consumeNext level env calls e db tx).1.locks k = some j := by
  cases e with
  | abort i text =>
    rw [consumeNext, ConsumeTx.abort]
    split
    · exact hk
    · exact hk
    · exact Locks.held_release hne hk
  | statement i =>
    have hwait : ∀ {c : Prop} [Decidable c] {r : ConsumeDb ι × ConsumeTx},
        (c → r.1.locks k = some j) → (if c then r else (db, tx)).1.locks k = some j :=
      waits (P := fun (db' : ConsumeDb ι) (_ : ConsumeTx) => db'.locks k = some j) hk
    rw [consumeNext, statement]
    cases tx.phase with
    | started | found existing | searching | refused sub | done res | failed err => exact hk
    | committing res | rollingBack err => exact Locks.held_release hne hk
    | resetting sub rest | charging sub =>
      exact hwait fun havailable => Locks.held_take havailable hk
    | inserting sub =>
      refine hwait fun havailable => ?_
      split
      · exact hk
      · exact Locks.held_take havailable hk

end Race

/-! ### The candidate loop -/

section Scan

variable (env : SubscriptionEnv) (call : ConsumeCall)

/-- **The way through the candidates**: the rows saved on it, and the phase it has come to. -/
inductive Scans (cands : List UserSubscription) : List UserSubscription → ConsumePhase → Prop
  | read : Scans cands [] (call.considerCandidates env cands)
  | reset {saved rest : List UserSubscription} {sub : UserSubscription}
      (h : Scans cands saved (.resetting sub rest)) :
      Scans cands (saved ++ [sub]) (call.afterReset env sub rest)

/-- What is left of `preConsumeLoop` from a phase on. -/
def loopFrom (phase : ConsumePhase) (st : SubscriptionStore) :
    Except Halt (SubscriptionPreConsumeResult × SubscriptionStore) :=
  match phase with
  | .inserting sub => chargeSubscription .none call.requestId call.userId call.amount sub st
  | .resetting sub rest =>
    let st := { st with subs := st.subs.save sub }
    if sub.LacksRoom call.amount then
      preConsumeLoop env .none call.requestId call.userId call.amount call.now rest st
    else chargeSubscription .none call.requestId call.userId call.amount sub st
  | .rollingBack err => .error err
  | _ => .error .diverge

variable {env call}

theorem preConsumeLoop_eq_loopFrom (cands : List UserSubscription) (st : SubscriptionStore) :
    preConsumeLoop env .none call.requestId call.userId call.amount call.now cands st =
      loopFrom env call (call.considerCandidates env cands) st := by
  induction cands with
  | nil => rfl
  | cons candidate rest ih =>
    rw [preConsumeLoop, preConsumeLoopIn, considerCandidates]
    cases hplan : env.getPlan candidate.planId with
    | error err => rfl
    | ok plan =>
      simp only [bind, Except.bind, maybeResetUserSubscriptionWithPlanTx]
      cases hd : resetDecision env candidate plan call.now with
      | error err => rfl
      | ok decision =>
        cases decision with
        | keep =>
          dsimp only [pure, Except.pure]
          by_cases hroom : candidate.LacksRoom call.amount
          · rw [if_pos hroom]
            exact (if_pos hroom).trans ih
          · rw [if_neg hroom]
            exact if_neg hroom
        -- a row that was reset or scheduled is saved first; the phase names this statement
        | schedule base next => rfl
        | reset base next => rfl

theorem loopFrom_resetting (sub : UserSubscription) (rest : List UserSubscription)
    (st : SubscriptionStore) : loopFrom env call (.resetting sub rest) st =
      loopFrom env call (call.afterReset env sub rest) { st with subs := st.subs.save sub } := by
  rw [afterReset]
  split
  · rename_i hroom
    rw [← preConsumeLoop_eq_loopFrom]
    exact if_pos hroom
  · rename_i hroom
    exact if_neg hroom

theorem ConsumeCall.considerCandidates_cases (cands : List UserSubscription) :
    (∃ sub rest, call.considerCandidates env cands = .resetting sub rest) ∨
      (∃ sub, call.considerCandidates env cands = .inserting sub) ∨
      ∃ err, call.considerCandidates env cands = .rollingBack err := by
  induction cands with
  | nil => exact .inr (.inr ⟨_, rfl⟩)
  | cons candidate rest ih =>
    rw [considerCandidates]
    cases (do resetDecision env candidate (← env.getPlan candidate.planId) call.now) with
    | error err => exact .inr (.inr ⟨err, rfl⟩)
    | ok decision =>
      cases decision with
      | keep =>
        dsimp only
        split
        · exact ih
        · exact .inr (.inl ⟨candidate, rfl⟩)
      | schedule base next => exact .inl ⟨_, rest, rfl⟩
      | reset base next => exact .inl ⟨_, rest, rfl⟩

section

variable {cands saved : List UserSubscription} {phase : ConsumePhase}
  (h : Scans env call cands saved phase)

include h

theorem Scans.phase_cases :
    (∃ sub rest, phase = .resetting sub rest) ∨ (∃ sub, phase = .inserting sub) ∨
      ∃ err, phase = .rollingBack err := by
  cases h with
  | read => exact call.considerCandidates_cases cands
  | reset h =>
    rename_i rest sub
    rw [afterReset]
    split
    · exact call.considerCandidates_cases rest
    · exact .inr (.inl ⟨sub, rfl⟩)

/-- **Wherever the way has come to, it leads to what the loop leads to.** -/
theorem Scans.loop (st : SubscriptionStore) :
    preConsumeLoop env .none call.requestId call.userId call.amount call.now cands st =
      loopFrom env call phase { st with subs := saved.foldl Table.save st.subs } := by
  induction h with
  | read => exact preConsumeLoop_eq_loopFrom cands st
  | reset h ih =>
    rw [ih, loopFrom_resetting, List.foldl_append]
    rfl

end

theorem chargeSubscription_none {sub : UserSubscription} {st : SubscriptionStore}
    (hfresh : st.records.find? call.requestId = none) :
    chargeSubscription .none call.requestId call.userId call.amount sub st =
      .ok (call.chargeResult sub, ⟨st.subs.save (sub.charged call.amount), st.records.insertIgnore
          (consumedRecord call.requestId call.userId sub.id call.amount)⟩) := by
  obtain ⟨records, hrecords⟩ := Table.exists_insert?
    (a := consumedRecord call.requestId call.userId sub.id call.amount) hfresh
  simp only [chargeSubscription, chargeSubscriptionIn, PreConsumeFaults.none, hrecords,
    Table.insertIgnore, Option.getD_some]
  rfl

end Scan

end NomoApi
