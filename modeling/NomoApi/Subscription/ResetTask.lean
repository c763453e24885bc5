import NomoApi.Lib.While
import NomoApi.Subscription.GroupRestore
import NomoApi.Subscription.ResetTimes
import Mathlib.Data.Finset.Card

/-! # The maintenance task

Once a minute `runSubscriptionQuotaResetOnce` (`service/subscription_reset_task.go`) expires and
resets subscriptions in batches, as long as a batch counts 300 rows. `ResetDueSubscriptions` counts
every row whose plan it can load, also when the plan was changed and the row is left as it is. -/

namespace NomoApi

open List

/-! ### A batch of resets -/

structure ResetRowFaults where
  beginTx : Option String
  findLocked : Option String
  saveSub : Option String
  commitTx : Option String

structure ResetFaults where
  findDue : Option String
  row : Int → ResetRowFaults

def ResetFaults.none : ResetFaults := ⟨.none, fun _ => ⟨.none, .none, .none, .none⟩⟩

def UserSubscription.ResetPassed (now : Int) (sub : UserSubscription) : Prop :=
  0 < sub.nextResetTime ∧ sub.nextResetTime ≤ now
deriving Decidable

/-- **A pending row**: `next_reset_time > 0 AND next_reset_time <= now AND status = active`. -/
def UserSubscription.ResetPending (now : Int) (sub : UserSubscription) : Prop :=
  sub.ResetPassed now ∧ sub.status = .active
deriving Decidable

def resetsBefore (a b : UserSubscription) : Prop := a.nextResetTime ≤ b.nextResetTime
deriving Decidable

def dueResets (limit now : Int) (st : SubscriptionStore) : List UserSubscription :=
  ((st.subs.rows.filter fun r => r.ResetPending now).insertionSort resetsBefore).take
    (if limit ≤ 0 then 200 else limit.toNat)

structure BatchResult where
  count : Nat
  err : Option String
  store : SubscriptionStore

/-- The transaction for the row `id`, read again under a lock; nothing if the catch-up loop does not
end. -/
def resetLocked (env : SubscriptionEnv) (f : ResetRowFaults) (plan : SubscriptionPlan)
    (now id : Int) (count : Nat) (st : SubscriptionStore) : Option BatchResult :=
  match f.beginTx with
  | some text => some ⟨count, some text, st⟩
  | none =>
    match f.findLocked, (st.subs.find? id).filter fun r => r.ResetPassed now with
    | none, some locked =>
      match maybeResetUserSubscriptionWithPlanTx env f.saveSub locked plan now st with
      | .error .diverge => none
      | .error (.error text) => some ⟨count, some text, st⟩
      -- the row counts whether or not it was reset, and before the commit
      | .ok (_, st') =>
        some ⟨count + 1, f.commitTx, if f.commitTx.isSome then st else st'⟩
    | _, _ => some ⟨count, f.commitTx, st⟩

/-- The loop over the rows of a batch. A row without a plan is left out. -/
def resetRows (env : SubscriptionEnv) (f : ResetFaults) (now : Int) :
    List UserSubscription → Nat → SubscriptionStore → Option BatchResult
  | [], count, st => some ⟨count, none, st⟩
  | sub :: rest, count, st =>
    match env.getPlan sub.planId with
    | .error _ => resetRows env f now rest count st
    | .ok plan =>
      match resetLocked env (f.row sub.id) plan now sub.id count st with
      | none => none
      | some r => if r.err.isSome then some r else resetRows env f now rest r.count r.store

def resetDueSubscriptions (env : SubscriptionEnv) (f : ResetFaults) (limit now : Int)
    (st : SubscriptionStore) : Option BatchResult :=
  match f.findDue with
  | some text => some ⟨0, some text, st⟩
  | none => resetRows env f now (dueResets limit now st) 0 st

/-! ### The task -/

def subscriptionResetBatchSize : Nat := 300

structure TaskTables where
  store : SubscriptionStore
  groups : Int → String
  nextId : Int

open TaskTables

def TaskTables.expireStep (m : MapOrder Int) (now : Int) (t : TaskTables) :
    TaskTables ⊕ TaskTables :=
  let (n, g) := expireDueSubscriptions m subscriptionResetBatchSize now
    ⟨t.store.subs, t.groups, t.nextId⟩
  let t' : TaskTables := ⟨{ t.store with subs := g.subs }, g.groups, g.nextId⟩
  if n = 0 then .inr t' else if n < subscriptionResetBatchSize then .inr t' else .inl t'

def TaskTables.resetStep (env : SubscriptionEnv) (f : ResetFaults) (now : Int) (t : TaskTables) :
    TaskTables ⊕ TaskTables :=
  match resetDueSubscriptions env f subscriptionResetBatchSize now t.store with
  | none => .inl t
  | some r =>
    let t' := { t with store := r.store }
    if r.err.isSome then .inr t'
    else if r.count = 0 then .inr t'
    else if r.count < subscriptionResetBatchSize then .inr t'
    else .inl t'

/-- **`runSubscriptionQuotaResetOnce`**, with a bound on the rounds of its loops. All batches see
the same time; `running` keeps a second run out. -/
def runSubscriptionQuotaResetOnce (env : SubscriptionEnv) (f : ResetFaults) (m : MapOrder Int)
    (now : Int) (running : Bool) (rounds : Nat) (t : TaskTables) : Option TaskTables :=
  if running then some t
  else do
    let t ← iterate (expireStep m now) rounds t
    iterate (resetStep env f now) rounds t

/-! ### What a reset does to a pending row -/

section CatchUp

variable {loc : Location} {plan : SubscriptionPlan} {endTime now : Int}

theorem catchUp_result {fuel : Nat} {base next : Int} {advanced : Bool} {r : Int × Int × Bool}
    (h : catchUp loc plan endTime now fuel base next advanced = .ok r) :
    ¬ (r.2.1 > 0 ∧ r.2.1 ≤ now) ∧ (advanced = true ∨ (next > 0 ∧ next ≤ now) → r.2.2 = true) := by
  induction fuel generalizing base next advanced with
  | zero => cases h
  | succ fuel ih =>
    by_cases hdue : next > 0 ∧ next ≤ now
    · rw [catchUp, if_pos hdue] at h
      obtain ⟨hstop, hadv⟩ := ih h
      exact ⟨hstop, fun _ => hadv (.inl rfl)⟩
    · rw [catchUp_of_not_due hdue] at h
      cases h
      exact ⟨hdue, fun hor => hor.resolve_right hdue⟩

theorem catchUp_error {fuel : Nat} {base next : Int} {advanced : Bool} {e : Halt}
    (h : catchUp loc plan endTime now fuel base next advanced = .error e) : e = .diverge := by
  induction fuel generalizing base next advanced with
  | zero =>
    cases h
    rfl
  | succ fuel ih =>
    by_cases hdue : next > 0 ∧ next ≤ now
    · rw [catchUp, if_pos hdue] at h
      exact ih h
    · rw [catchUp_of_not_due hdue] at h
      cases h

end CatchUp

section Row

variable {env : SubscriptionEnv} {now : Int} {c : UserSubscription} {plan : SubscriptionPlan}

theorem resetDecision_error {e : Halt} (h : resetDecision env c plan now = .error e) :
    e = .diverge := by
  cases hloop : catchUp env.loc plan c.endTime now env.fuel
      (if c.lastResetTime ≤ 0 then c.startTime else c.lastResetTime)
      (calcNextResetTime env.loc (if c.lastResetTime ≤ 0 then c.startTime else c.lastResetTime)
        plan c.endTime) false with
  | ok r =>
    obtain ⟨d, hd⟩ := exists_resetDecision rfl ⟨r, hloop⟩
    rw [hd] at h
    cases h
  | error e' =>
    unfold resetDecision at h
    dsimp only at h
    rw [hloop] at h
    split at h
    · cases h
    · split at h
      · cases h
      · cases h
        exact catchUp_error hloop

theorem resetDue_iff (hplan : env.getPlan c.planId = .ok plan) : ResetDue env now c ↔
      (calcNextResetTime env.loc (if c.lastResetTime ≤ 0 then c.startTime else c.lastResetTime)
          plan c.endTime > 0 ∧
        calcNextResetTime env.loc (if c.lastResetTime ≤ 0 then c.startTime else c.lastResetTime)
          plan c.endTime ≤ now) := by
  constructor
  · rintro ⟨plan', hplan', hdue⟩
    rw [hplan] at hplan'
    cases hplan'
    exact hdue
  · intro hdue
    exact ⟨plan, hplan, hdue⟩

theorem resetDecision_passed {d : ResetDecision} (hc : c.ResetPassed now)
    (hplan : env.getPlan c.planId = .ok plan) (hd : resetDecision env c plan now = .ok d) :
    (d = .keep ∧ ¬ ResetDue env now c) ∨
      ∃ base next, d = .reset base next ∧ ResetDue env now c ∧ ¬ (next > 0 ∧ next ≤ now) := by
  obtain ⟨hpos, hle⟩ := hc
  rw [resetDue_iff hplan]
  rw [resetDecision, if_neg (by omega)] at hd
  split at hd
  · rename_i hnever
    cases hd
    rw [calcNextResetTime, hnever]
    dsimp only
    exact .inl ⟨rfl, by omega⟩
  · obtain ⟨⟨base, next, advanced⟩, hloop, hd⟩ := bind_eq_ok.mp hd
    obtain ⟨hstop, hadv⟩ := catchUp_result hloop
    cases advanced with
    | true =>
      cases hd
      exact .inr ⟨base, next, rfl, catchUp_advanced hloop, hstop⟩
    | false =>
      -- the row has a reset time, so none is filled in
      dsimp only at hd
      rw [if_neg Bool.false_ne_true, if_neg (by omega)] at hd
      cases hd
      exact .inl ⟨rfl, fun hdue => Bool.false_ne_true (hadv (.inr hdue))⟩

theorem dueReset_of_no_plan {e : Halt} (hplan : env.getPlan c.planId = .error e) :
    dueReset env now c = c := by
  rw [dueReset, hplan]
  rfl

/-- **A pending row leaves the pending rows iff a reset of it is due.** -/
theorem resetPending_dueReset (hc : c.ResetPending now)
    (hreturns : ∀ plan, env.getPlan c.planId = .ok plan →
      ∃ d, resetDecision env c plan now = .ok d) :
    (dueReset env now c).ResetPending now ↔ ¬ ResetDue env now c := by
  cases hplan : env.getPlan c.planId with
  | error e =>
    have hnot : ¬ ResetDue env now c := by
      rintro ⟨plan, hplan', -⟩
      rw [hplan] at hplan'
      cases hplan'
    rw [dueReset_of_no_plan hplan]
    exact iff_of_true hc hnot
  | ok plan =>
    obtain ⟨d, hd⟩ := hreturns plan hplan
    rw [dueReset_eq hplan hd]
    rcases resetDecision_passed hc.1 hplan hd with ⟨rfl, hnot⟩ | ⟨base, next, rfl, hdue, hstop⟩
    · exact iff_of_true hc hnot
    · exact iff_of_false (fun hp => hstop hp.1) (not_not_intro hdue)

end Row

/-! ### What a batch does -/

section Batch

variable {env : SubscriptionEnv} {now : Int}

variable {c : UserSubscription} {st : SubscriptionStore}

theorem find?_filter_resetPassed (hmem : c ∈ st.subs) (hc : c.ResetPassed now) :
    (st.subs.find? c.id).filter (fun r => r.ResetPassed now) = some c := by
  rw [Table.find?_key hmem, Option.filter_some, if_pos (decide_eq_true hc)]

variable {count : Nat}

section

variable {plan : SubscriptionPlan} (hmem : c ∈ st.subs) (hc : c.ResetPassed now)

include hmem hc

theorem resetLocked_of_ok {d : ResetDecision} (hd : resetDecision env c plan now = .ok d) :
    resetLocked env (ResetFaults.none.row c.id) plan now c.id count st =
      some ⟨count + 1, none, { st with subs := st.subs.save (d.apply c) }⟩ := by
  have hreset : maybeResetUserSubscriptionWithPlanTx env none c plan now st =
      .ok (d.apply c, { st with subs := st.subs.save (d.apply c) }) := by
    rw [maybeResetUserSubscriptionWithPlanTx, hd]
    cases d with
    | keep =>
      rw [ResetDecision.apply, Table.save_of_mem hmem]
      rfl
    | schedule base next => rfl
    | reset base next => rfl
  simp only [resetLocked, ResetFaults.none, find?_filter_resetPassed hmem hc, hreset]
  rfl

theorem resetLocked_of_error {e : Halt} (hd : resetDecision env c plan now = .error e) :
    resetLocked env (ResetFaults.none.row c.id) plan now c.id count st = none := by
  have hreset : maybeResetUserSubscriptionWithPlanTx env none c plan now st = .error .diverge := by
    rw [maybeResetUserSubscriptionWithPlanTx, hd, resetDecision_error hd]
    rfl
  simp [resetLocked, ResetFaults.none, find?_filter_resetPassed hmem hc, hreset]

end

def HasPlan (env : SubscriptionEnv) (c : UserSubscription) : Prop :=
  ∃ plan, env.getPlan c.planId = .ok plan

def DecisionReturns (env : SubscriptionEnv) (now : Int) (c : UserSubscription) : Prop :=
  ∀ plan, env.getPlan c.planId = .ok plan → ∃ d, resetDecision env c plan now = .ok d

/-- **What the loop over some rows has done**: every row is as its due reset leaves it, and
something is counted iff one of them has a plan. -/
structure RowsReset (env : SubscriptionEnv) (now : Int) (l : List UserSubscription) (count : Nat)
    (st : SubscriptionStore) (r : BatchResult) : Prop where
  returns : ∀ c ∈ l, DecisionReturns env now c
  err : r.err = none
  counted : count < r.count ↔ ∃ c ∈ l, HasPlan env c
  least : count ≤ r.count
  rows : ∀ c ∈ l, r.store.subs.find? c.id = some (dueReset env now c)
  frame : ∀ id, id ∉ l.map UserSubscription.id → r.store.subs.find? id = st.subs.find? id

/-- The rows of a batch are stored, due and distinct. -/
structure BatchRows (now : Int) (l : List UserSubscription) (st : SubscriptionStore) : Prop where
  mem : ∀ c ∈ l, c ∈ st.subs
  pending : ∀ c ∈ l, c.ResetPending now
  nodup : (l.map UserSubscription.id).Nodup

variable {l : List UserSubscription}

theorem BatchRows.rest (h : BatchRows now (c :: l) st) :
    BatchRows now l { st with subs := st.subs.save (dueReset env now c) } := by
  obtain ⟨hmem, hpending, hnodup⟩ := h
  rw [map_cons, nodup_cons] at hnodup
  exact ⟨mem_save_dueReset (fun c' hc' => hmem c' (mem_cons_of_mem _ hc')) hnodup.1,
    fun c' hc' => hpending c' (mem_cons_of_mem _ hc'), hnodup.2⟩

theorem resetRows_cons (count : Nat) (hl : BatchRows now (c :: l) st)
    (hc : DecisionReturns env now c) : ∃ count', count ≤ count' ∧ (count < count' ↔ HasPlan env c) ∧
      resetRows env .none now (c :: l) count st =
        resetRows env .none now l count' { st with subs := st.subs.save (dueReset env now c) } := by
  have hmem : c ∈ st.subs := hl.mem c mem_cons_self
  have hpassed : c.ResetPassed now := (hl.pending c mem_cons_self).1
  cases hplan : env.getPlan c.planId with
  | error e =>
    have hnot : ¬ HasPlan env c := by
      rintro ⟨plan, hplan'⟩
      rw [hplan] at hplan'
      cases hplan'
    refine ⟨count, le_rfl, iff_of_false (lt_irrefl _) hnot, ?_⟩
    rw [dueReset_of_no_plan hplan, Table.save_of_mem hmem, resetRows, hplan]
  | ok plan =>
    obtain ⟨d, hd⟩ := hc plan hplan
    refine ⟨count + 1, by omega, iff_of_true (by omega) ⟨plan, hplan⟩, ?_⟩
    rw [dueReset_eq hplan hd, resetRows, hplan]
    dsimp only
    rw [resetLocked_of_ok hmem hpassed hd]
    rfl

theorem resetRows_cons_eq_none (hl : BatchRows now (c :: l) st) (hc : ¬ DecisionReturns env now c) :
    resetRows env .none now (c :: l) count st = none := by
  obtain ⟨plan, hplan, hnot⟩ : ∃ plan, env.getPlan c.planId = .ok plan ∧
      ¬ ∃ d, resetDecision env c plan now = .ok d := by
    by_contra hall
    exact hc fun plan hplan => by_contra fun hnot => hall ⟨plan, hplan, hnot⟩
  cases hd : resetDecision env c plan now with
  | ok d => exact absurd ⟨d, hd⟩ hnot
  | error e =>
    rw [resetRows, hplan]
    dsimp only
    rw [resetLocked_of_error (hl.mem c mem_cons_self) (hl.pending c mem_cons_self).1 hd]

variable {r : BatchResult}

theorem resetRows_spec (hl : BatchRows now l st) (h : resetRows env .none now l count st = some r) :
    RowsReset env now l count st r := by
  induction l generalizing count st with
  | nil =>
    cases h
    exact ⟨by simp, rfl, by simp, le_rfl, by simp, fun _ _ => rfl⟩
  | cons c l ih =>
    have hc : DecisionReturns env now c := by
      by_contra hnot
      rw [resetRows_cons_eq_none hl hnot] at h
      cases h
    obtain ⟨count', hle, hcount, heq⟩ := resetRows_cons count hl hc
    rw [heq] at h
    obtain ⟨hreturns, herr, hcounted, hleast, hrows, hframe⟩ := ih hl.rest h
    have hnot : c.id ∉ l.map UserSubscription.id := (nodup_cons.mp hl.nodup).1
    refine ⟨forall_mem_cons.mpr ⟨hc, hreturns⟩, herr, ?_, by omega, ?_, ?_⟩
    · rw [exists_mem_cons_iff, ← hcount, ← hcounted]
      omega
    · refine forall_mem_cons.mpr ⟨?_, hrows⟩
      rw [hframe _ hnot]
      exact Table.find?_save (dueReset_id ..) (Table.find?_key (hl.mem c mem_cons_self))
    · intro id hout
      rw [map_cons, mem_cons, not_or] at hout
      rw [hframe id hout.2]
      exact Table.find?_save_of_ne (by rw [dueReset_id]; exact hout.1)

theorem exists_resetRows (hl : BatchRows now l st) (hc : ∀ c ∈ l, DecisionReturns env now c) :
    ∃ r, resetRows env .none now l count st = some r := by
  induction l generalizing count st with
  | nil => exact ⟨_, rfl⟩
  | cons c l ih =>
    obtain ⟨count', -, -, heq⟩ := resetRows_cons count hl (hc c mem_cons_self)
    rw [heq]
    exact ih hl.rest fun c' hc' => hc c' (mem_cons_of_mem _ hc')

theorem batchRows_dueResets (limit now : Int) (st : SubscriptionStore) :
    BatchRows now (dueResets limit now st) st := by
  have hmem : ∀ c ∈ dueResets limit now st, c ∈ st.subs ∧ c.ResetPending now := by
    intro c hc
    simpa [Table.mem_iff] using mem_of_mem_take hc
  refine ⟨fun c hc => (hmem c hc).1, fun c hc => (hmem c hc).2, ?_⟩
  refine (Nodup.sublist ((take_sublist _ _).map _)) ?_
  refine ((perm_insertionSort _ _).map _).nodup_iff.mpr ?_
  exact st.subs.nodup.sublist (filter_sublist.map _)

/-- **The pending rows**, by their ids. -/
def pendingIds (now : Int) (st : SubscriptionStore) : Finset Int :=
  ((st.subs.rows.filter fun r => r.ResetPending now).map UserSubscription.id).toFinset

theorem mem_pendingIds {id : Int} :
    id ∈ pendingIds now st ↔ ∃ c, st.subs.find? id = some c ∧ c.ResetPending now := by
  simp only [pendingIds, mem_toFinset, mem_map, mem_filter, decide_eq_true_eq]
  constructor
  · rintro ⟨c, ⟨hmem, hc⟩, rfl⟩
    exact ⟨c, Table.find?_key hmem, hc⟩
  · rintro ⟨c, hfind, hc⟩
    obtain ⟨hmem, hid⟩ := Table.find?_eq_some.mp hfind
    exact ⟨c, ⟨hmem, hc⟩, hid⟩

theorem RowsReset.mem_pendingIds (h : RowsReset env now l count st r) (hl : BatchRows now l st)
    {id : Int} : id ∈ pendingIds now r.store ↔
      id ∈ pendingIds now st ∧ ∀ c ∈ l, c.id = id → ¬ ResetDue env now c := by
  rw [NomoApi.mem_pendingIds, NomoApi.mem_pendingIds]
  by_cases hid : id ∈ l.map UserSubscription.id
  · obtain ⟨c, hc, rfl⟩ := mem_map.mp hid
    have hfind := Table.find?_key (hl.mem c hc)
    have hpending := hl.pending c hc
    have hiff := resetPending_dueReset hpending (h.returns c hc)
    have honly : ∀ c' ∈ l, c'.id = c.id → c' = c :=
      fun c' hc' heq => Table.eq_of_key_eq (hl.mem c' hc') (hl.mem c hc) heq
    rw [h.rows c hc, hfind]
    constructor
    · rintro ⟨c₁, h₁, hpend⟩
      cases h₁
      refine ⟨⟨c, rfl, hpending⟩, fun c' hc' heq => ?_⟩
      rw [honly c' hc' heq]
      exact hiff.mp hpend
    · rintro ⟨-, hall⟩
      exact ⟨_, rfl, hiff.mpr (hall c hc rfl)⟩
  · rw [h.frame id hid]
    refine (and_iff_left fun c hc heq => ?_).symm
    exact absurd (mem_map.mpr ⟨c, hc, heq⟩) hid

/-- **A batch leaves fewer pending rows iff a reset was due for one of its rows.** -/
theorem RowsReset.ssubset_iff (h : RowsReset env now l count st r) (hl : BatchRows now l st) :
    pendingIds now r.store ⊂ pendingIds now st ↔ ∃ c ∈ l, ResetDue env now c := by
  constructor
  · intro hss
    by_contra hnone
    obtain ⟨id, hid, hout⟩ := Finset.exists_of_ssubset hss
    exact hout ((h.mem_pendingIds hl).mpr ⟨hid, fun c hc _ hdue => hnone ⟨c, hc, hdue⟩⟩)
  · rintro ⟨c, hc, hdue⟩
    have hid : c.id ∈ pendingIds now st :=
      NomoApi.mem_pendingIds.mpr ⟨c, Table.find?_key (hl.mem c hc), hl.pending c hc⟩
    refine (Finset.ssubset_iff_of_subset fun id hin => ((h.mem_pendingIds hl).mp hin).1).mpr ?_
    exact ⟨c.id, hid, fun hin => ((h.mem_pendingIds hl).mp hin).2 c hc rfl hdue⟩

end Batch

/-! ### The loops of the task -/

def GroupStore.dueCount (now : Int) (st : GroupStore) : Nat :=
  (st.subs.rows.filter fun r => r.IsDue now).length

theorem dueCount_expireUser (now userId : Int) (st : GroupStore) :
    (st.subs.rows.filter fun r => r.userId = userId ∧ r.IsDue now).length +
      (expireUser now st userId).dueCount now = st.dueCount now := by
  have hexpire : ∀ r : UserSubscription, ¬ r.expire.IsDue now := fun r h => by cases h.1
  rw [GroupStore.dueCount, GroupStore.dueCount, (expireUser_eq now userId st).1, expiredSubs,
    Table.updateWhere]
  dsimp only
  induction st.subs.rows with
  | nil => rfl
  | cons r rows ih =>
    rw [map_cons]
    by_cases hr : r.userId = userId ∧ r.IsDue now
    · rw [filter_cons_of_pos (by simpa using hr), if_pos (decide_eq_true hr),
        filter_cons_of_neg (by simpa using hexpire r),
        filter_cons_of_pos (by simpa using hr.2), length_cons, length_cons]
      omega
    · rw [filter_cons_of_neg (by simpa using hr), if_neg (by simpa using hr)]
      by_cases hdue : r.IsDue now
      · rw [filter_cons_of_pos (by simpa using hdue),
          filter_cons_of_pos (by simpa using hdue), length_cons, length_cons]
        omega
      · rw [filter_cons_of_neg (by simpa using hdue), filter_cons_of_neg (by simpa using hdue)]
        exact ih

/-- **Every row that a batch of expiries counts is due no longer.** -/
theorem dueCount_expireDueSubscriptions (m : MapOrder Int) (limit now : Int) (st : GroupStore) :
    (expireDueSubscriptions m limit now st).1 +
      (expireDueSubscriptions m limit now st).2.dueCount now = st.dueCount now := by
  have hfold : ∀ (users : List Int) (acc : Nat × GroupStore), (users.foldl (fun acc userId =>
          (acc.1 + (acc.2.subs.rows.filter fun r => r.userId = userId ∧ r.IsDue now).length,
            expireUser now acc.2 userId)) acc).1 +
        (users.foldl (fun acc userId =>
          (acc.1 + (acc.2.subs.rows.filter fun r => r.userId = userId ∧ r.IsDue now).length,
            expireUser now acc.2 userId)) acc).2.dueCount now = acc.1 + acc.2.dueCount now := by
    intro users
    induction users with
    | nil => intro acc; rfl
    | cons u users ih =>
      intro acc
      have hrest := ih (acc.1 + (acc.2.subs.rows.filter fun r => r.userId = u ∧ r.IsDue now).length,
        expireUser now acc.2 u)
      have hone := dueCount_expireUser now u acc.2
      rw [foldl_cons, hrest]
      dsimp only
      omega
  have hall := hfold (m.order (dueUsers limit now st)) (0, st)
  rw [Nat.zero_add] at hall
  exact hall

theorem expireLoop_ends (m : MapOrder Int) (now : Int) (t : TaskTables) :
    LoopEnds (expireStep m now) t := by
  refine loopEnds_of_measure
    (fun t => (⟨t.store.subs, t.groups, t.nextId⟩ : GroupStore).dueCount now) ?_
  intro t t' _ hstep
  have hcount := dueCount_expireDueSubscriptions m subscriptionResetBatchSize now
    ⟨t.store.subs, t.groups, t.nextId⟩
  unfold expireStep at hstep
  dsimp only at hstep
  split at hstep
  · cases hstep
  · split at hstep
    · cases hstep
    · rw [← Sum.inl.inj hstep]
      show (expireDueSubscriptions m subscriptionResetBatchSize now
        ⟨t.store.subs, t.groups, t.nextId⟩).2.dueCount now < _
      omega

/-- **The task returns.** -/
def QuotaResetEnds (env : SubscriptionEnv) (m : MapOrder Int) (now : Int) (t : TaskTables) : Prop :=
  ∃ rounds t', runSubscriptionQuotaResetOnce env .none m now false rounds t = some t'

/-- **The states in which the task starts a batch of resets**, after the expiries. -/
def BatchStart (env : SubscriptionEnv) (m : MapOrder Int) (now : Int) (t s : TaskTables) : Prop :=
  ∃ rounds t', iterate (expireStep m now) rounds t = some t' ∧
    Visits (resetStep env .none now) t' s

/-- **A batch that counts rows as reset leaves fewer pending ones.** -/
def BatchReduces (env : SubscriptionEnv) (now : Int) (s : TaskTables) : Prop :=
  ∀ r, resetDueSubscriptions env .none subscriptionResetBatchSize now s.store = some r →
    0 < r.count → pendingIds now r.store ⊂ pendingIds now s.store

/-- **The condition on a batch**: the catch-up loops of its rows end, and if one of them has a plan,
then a reset is due for one. -/
structure BatchOk (env : SubscriptionEnv) (now : Int) (s : TaskTables) : Prop where
  returns : ∀ c ∈ dueResets subscriptionResetBatchSize now s.store, DecisionReturns env now c
  due : (∃ c ∈ dueResets subscriptionResetBatchSize now s.store, HasPlan env c) →
    ∃ c ∈ dueResets subscriptionResetBatchSize now s.store, ResetDue env now c

section Task

variable {env : SubscriptionEnv} {m : MapOrder Int} {now : Int} {t s : TaskTables}

theorem resetDueSubscriptions_spec {limit : Int} {st : SubscriptionStore} {r : BatchResult}
    (h : resetDueSubscriptions env .none limit now st = some r) :
    RowsReset env now (dueResets limit now st) 0 st r :=
  resetRows_spec (batchRows_dueResets limit now st) h

theorem quotaResetEnds_iff {rounds : Nat} {t' : TaskTables}
    (h : iterate (expireStep m now) rounds t = some t') :
    QuotaResetEnds env m now t ↔ LoopEnds (resetStep env .none now) t' := by
  constructor
  · rintro ⟨n, out, hrun⟩
    obtain ⟨t₁, h₁, h₂⟩ := Option.bind_eq_some_iff.mp hrun
    rw [iterate_unique h h₁]
    exact ⟨n, out, h₂⟩
  · rintro ⟨n, out, hloop⟩
    refine ⟨max rounds n, out, ?_⟩
    refine Option.bind_eq_some_iff.mpr ⟨t', iterate_mono (Nat.le_max_left ..) h, ?_⟩
    exact iterate_mono (Nat.le_max_right ..) hloop

theorem exists_batch_of_loopEnds (h : LoopEnds (resetStep env .none now) s) :
    ∃ r, resetDueSubscriptions env .none subscriptionResetBatchSize now s.store = some r := by
  cases hbatch : resetDueSubscriptions env .none subscriptionResetBatchSize now s.store with
  | some r => exact ⟨r, rfl⟩
  | none =>
    refine absurd h (not_loopEnds_of_stuck ?_)
    rw [resetStep, hbatch]

theorem BatchOk.reduces (h : BatchOk env now s) : BatchReduces env now s := by
  intro r hr hpos
  have hspec := resetDueSubscriptions_spec hr
  exact (hspec.ssubset_iff (batchRows_dueResets ..)).mpr (h.due (hspec.counted.mp hpos))

variable {s' : TaskTables}

theorem BatchOk.card_lt (h : BatchOk env now s) (hstep : s.resetStep env .none now = .inl s') :
    (pendingIds now s'.store).card < (pendingIds now s.store).card := by
  obtain ⟨r, hr⟩ : ∃ r, resetDueSubscriptions env .none subscriptionResetBatchSize now s.store =
      some r := exists_resetRows (batchRows_dueResets ..) h.returns
  rw [resetStep, hr] at hstep
  dsimp only at hstep
  split at hstep
  · cases hstep
  · split at hstep
    · cases hstep
    · split at hstep
      · cases hstep
      · rw [← Sum.inl.inj hstep]
        exact Finset.card_lt_card (h.reduces r hr (by omega))

/-- **When the task returns and its batches make progress**: iff each batch, when it starts, meets
the condition. -/
theorem quotaReset_iff (env : SubscriptionEnv) (m : MapOrder Int) (now : Int) (t : TaskTables) :
    (QuotaResetEnds env m now t ∧ ∀ s, BatchStart env m now t s → BatchReduces env now s) ↔
      ∀ s, BatchStart env m now t s → BatchOk env now s := by
  obtain ⟨rounds, t', hexpire⟩ := expireLoop_ends m now t
  rw [quotaResetEnds_iff hexpire]
  constructor
  · rintro ⟨hends, hreduces⟩ s hs
    obtain ⟨n, t₁, h₁, hvisits⟩ := hs
    have hs : BatchStart env m now t s := ⟨n, t₁, h₁, hvisits⟩
    rw [iterate_unique h₁ hexpire] at hvisits
    obtain ⟨r, hr⟩ := exists_batch_of_loopEnds (hends.of_visits hvisits)
    have hspec := resetDueSubscriptions_spec hr
    refine ⟨hspec.returns, fun hplan => ?_⟩
    have hss := hreduces s hs r hr (hspec.counted.mpr hplan)
    exact (hspec.ssubset_iff (batchRows_dueResets ..)).mp hss
  · intro hok
    refine ⟨loopEnds_of_measure (fun s => (pendingIds now s.store).card) ?_,
      fun s hs => (hok s hs).reduces⟩
    intro s s' hvisits hstep
    exact (hok s ⟨rounds, t', hexpire, hvisits⟩).card_lt hstep

end Task

/-! ### Three hundred stale rows -/

def neverPlan : SubscriptionPlan :=
  { (customPlan 0).toSubscriptionPlan with quotaResetPeriod := "never" }

def neverEnv : SubscriptionEnv := ⟨.utc, 0, fun _ => .ok neverPlan⟩

def staleRow (i : Nat) : UserSubscription := { resetAt100 with id := i }

theorem nodup_staleRows (n : Nat) :
    (((List.range n).map staleRow).map UserSubscription.id).Nodup := by
  rw [map_map]
  exact nodup_range.map fun i j h => Int.ofNat.inj h

def staleTables : TaskTables where
  store := ⟨⟨(List.range 300).map staleRow, nodup_staleRows 300⟩, .empty⟩
  groups _ := ""
  nextId := 300

theorem resetRows_keep {env : SubscriptionEnv} {now : Int} {l : List UserSubscription}
    {count : Nat} {st : SubscriptionStore} (hl : BatchRows now l st)
    (hkeep : ∀ c ∈ l, ∃ plan, env.getPlan c.planId = .ok plan ∧
      resetDecision env c plan now = .ok .keep) :
    resetRows env .none now l count st = some ⟨count + l.length, none, st⟩ := by
  induction l generalizing count with
  | nil => rfl
  | cons c l ih =>
    obtain ⟨plan, hplan, hd⟩ := hkeep c mem_cons_self
    have hmem : c ∈ st.subs := hl.mem c mem_cons_self
    have hrest : BatchRows now l st :=
      ⟨fun c' hc' => hl.mem c' (mem_cons_of_mem _ hc'),
        fun c' hc' => hl.pending c' (mem_cons_of_mem _ hc'),
        (nodup_cons.mp hl.nodup).2⟩
    rw [resetRows, hplan]
    dsimp only
    rw [resetLocked_of_ok hmem (hl.pending c mem_cons_self).1 hd, ResetDecision.apply,
      Table.save_of_mem hmem]
    dsimp only
    rw [Option.isSome_none, if_neg Bool.false_ne_true,
      ih hrest fun c' hc' => hkeep c' (mem_cons_of_mem _ hc'), length_cons]
    congr 2
    omega

theorem expireStep_of_none {m : MapOrder Int} {now : Int} {t : TaskTables}
    (h : ∀ c ∈ t.store.subs, ¬ c.IsDue now) : t.expireStep m now = .inr t := by
  have hrows : (t.store.subs.rows.filter fun r => r.IsDue now) = [] :=
    filter_eq_nil_iff.mpr fun c hc => by simpa using h c hc
  have hdue : dueUsers subscriptionResetBatchSize now ⟨t.store.subs, t.groups, t.nextId⟩ = [] := by
    rw [dueUsers, dueSubscriptions, hrows]
    rfl
  have horder : m.order [] = [] := (m.perm []).eq_nil
  simp only [expireStep, expireDueSubscriptions, hdue, horder, foldl_nil, if_true]

/-- **Three hundred stale rows keep the task running.** Each batch counts 300 rows and changes none.
-/
theorem stale_rows_never_end : ¬ QuotaResetEnds neverEnv (.given Int) 200 staleTables := by
  have hrow : ∀ c ∈ staleTables.store.subs, ∃ i, c = staleRow i := by
    intro c hc
    obtain ⟨i, -, hi⟩ := mem_map.mp hc
    exact ⟨i, hi.symm⟩
  have hexpire : staleTables.expireStep (.given Int) 200 = .inr staleTables := by
    refine expireStep_of_none fun c hc => ?_
    obtain ⟨i, rfl⟩ := hrow c hc
    exact fun hdue => Int.lt_irrefl 0 hdue.2.1
  have hlength : (dueResets subscriptionResetBatchSize 200 staleTables.store).length = 300 := by
    have hall : (staleTables.store.subs.rows.filter fun r => r.ResetPending 200) =
        staleTables.store.subs.rows := by
      refine filter_eq_self.mpr fun c hc => ?_
      obtain ⟨i, rfl⟩ := hrow c hc
      rfl
    have hrows : staleTables.store.subs.rows.length = 300 := by
      rw [staleTables, length_map, length_range]
    rw [dueResets, hall, length_take, length_insertionSort, hrows]
    rfl
  have hbatch : resetDueSubscriptions neverEnv .none subscriptionResetBatchSize 200
      staleTables.store = some ⟨300, none, staleTables.store⟩ := by
    have hrows := batchRows_dueResets subscriptionResetBatchSize 200 staleTables.store
    have hkeep : ∀ c ∈ dueResets subscriptionResetBatchSize 200 staleTables.store,
        ∃ plan, neverEnv.getPlan c.planId = .ok plan ∧
          resetDecision neverEnv c plan 200 = .ok .keep := by
      intro c hc
      obtain ⟨i, rfl⟩ := hrow c (hrows.mem c hc)
      refine ⟨neverPlan, rfl, ?_⟩
      rw [resetDecision, if_neg (by simp [staleRow, resetAt100]), if_pos (by decide +kernel)]
    have hall : resetRows neverEnv .none 200 _ 0 staleTables.store = _ :=
      resetRows_keep hrows hkeep
    rw [hlength] at hall
    exact hall
  rw [quotaResetEnds_iff (iterate_of_done hexpire 0)]
  refine not_loopEnds_of_stuck ?_
  rw [resetStep, hbatch]
  rfl

end NomoApi
