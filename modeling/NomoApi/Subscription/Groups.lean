import NomoApi.Lib.Grouping
import NomoApi.Subscription.Consume

/-! # Subscriptions and user groups

A plan may move its buyer to another group while the subscription lasts. `model/subscription.go`
moves the user back when it expires, is cancelled or is deleted, to the group that the row
remembers. A row bought while another one runs remembers nothing. -/

namespace NomoApi

/-- The subscriptions, the `group` column of the users and the next primary key. -/
structure GroupStore where
  subs : SubscriptionTable
  groups : Int → String
  nextId : Int

/-- `UPDATE users SET group = g WHERE id = userId`. -/
def GroupStore.setGroup (st : GroupStore) (userId : Int) (group : String) : GroupStore :=
  { st with groups := Function.update st.groups userId group }

def GroupStore.withSubs (st : GroupStore) (subs : SubscriptionTable) : GroupStore :=
  { st with subs }

def getUserGroupByIdTx (st : GroupStore) (userId : Int) : Except Halt String :=
  if userId ≤ 0 then .error (.error "invalid userId") else .ok (st.groups userId)

/-- An active subscription of the user with an upgrade group that has not ended. -/
def UserSubscription.IsUpgrade (userId now : Int) (sub : UserSubscription) : Prop :=
  sub.userId = userId ∧ sub.status = .active ∧ sub.endTime > now ∧ sub.upgradeGroup ≠ ""
deriving Decidable

/-- The group the user is moved back to, empty for none, and the store. -/
def downgradeUserGroupForSubscriptionTx (sub : UserSubscription) (now : Int) (st : GroupStore) :
    Except Halt (String × GroupStore) :=
  let upgradeGroup := trimSpace sub.upgradeGroup
  if upgradeGroup = "" then .ok ("", st)
  else do
    let currentGroup ← getUserGroupByIdTx st sub.userId
    -- someone moved to another group since then stays there
    if currentGroup ≠ upgradeGroup then .ok ("", st)
    else if ∃ r ∈ st.subs.rows, r.IsUpgrade sub.userId now ∧ r.id ≠ sub.id then .ok ("", st)
    else
      let prevGroup := trimSpace sub.prevUserGroup
      -- a purchase made in the bought group remembers no previous one: there is no way back
      if prevGroup = "" ∨ prevGroup = currentGroup then .ok ("", st)
      else .ok (prevGroup, st.setGroup sub.userId prevGroup)

def newSubscription (loc : Location) (id userId : Int) (plan : SubscriptionPlan) (source : String)
    (now endUnix : Int) (prevGroup : String) : UserSubscription :=
  let nextReset := calcNextResetTime loc now plan endUnix
  { id, userId, planId := plan.id, amountTotal := plan.totalAmount, amountUsed := 0
    startTime := now, endTime := endUnix, status := .active, source
    lastResetTime := if nextReset > 0 then now else 0, nextResetTime := nextReset
    upgradeGroup := trimSpace plan.upgradeGroup, prevUserGroup := prevGroup }

def GroupStore.create (st : GroupStore) (row : UserSubscription) :
    Except Halt (UserSubscription × GroupStore) :=
  match st.subs.insert? row with
  | none => .error (.error "duplicated key not allowed")
  | some subs => .ok (row, { st with subs, nextId := st.nextId + 1 })

def createUserSubscriptionFromPlanTx (loc : Location) (userId : Int) (plan : SubscriptionPlan)
    (source : String) (now : Int) (st : GroupStore) :
    Except Halt (UserSubscription × GroupStore) :=
  if plan.id = 0 then .error (.error "invalid plan")
  else if userId ≤ 0 then .error (.error "invalid user id")
  else if plan.maxPurchasePerUser > 0 ∧
      ((st.subs.rows.filter fun r => r.userId = userId ∧ r.planId = plan.id).length : Int) ≥
        plan.maxPurchasePerUser then
    .error (.error "已达到该套餐购买上限")
  else do
    let endUnix ← calcPlanEndTime loc now plan
    let row := newSubscription loc st.nextId userId plan source now endUnix
    let upgradeGroup := trimSpace plan.upgradeGroup
    if upgradeGroup = "" then st.create (row "")
    else
      let currentGroup ← getUserGroupByIdTx st userId
      -- the previous group is the one at this moment, which may itself be a bought one
      if currentGroup ≠ upgradeGroup then
        (st.setGroup userId upgradeGroup).create (row currentGroup)
      else st.create (row "")

section Create

variable {loc : Location} {userId now : Int} {plan : SubscriptionPlan} {source : String}
  {st st' : GroupStore} {row row' : UserSubscription}

theorem create_eq_ok (h : st.create row = .ok (row', st')) :
    st.subs.insert? row = some st'.subs ∧ st'.groups = st.groups := by
  unfold GroupStore.create at h
  split at h
  · cases h
  · rename_i subs hins
    cases h
    exact ⟨hins, rfl⟩

/-- **What a purchase has checked and done.** -/
theorem createUserSubscriptionFromPlanTx_eq_ok
    (h : createUserSubscriptionFromPlanTx loc userId plan source now st = .ok (row, st')) :
    plan.id ≠ 0 ∧ ¬ userId ≤ 0 ∧
      ¬ (plan.maxPurchasePerUser > 0 ∧ ((st.subs.rows.filter fun r =>
        r.userId = userId ∧ r.planId = plan.id).length : Int) ≥ plan.maxPurchasePerUser) ∧
      ∃ endUnix prev, calcPlanEndTime loc now plan = .ok endUnix ∧
        st.subs.insert? (newSubscription loc st.nextId userId plan source now endUnix prev) =
          some st'.subs ∧
        (trimSpace plan.upgradeGroup = "" → st'.groups = st.groups ∧ prev = "") ∧
        (trimSpace plan.upgradeGroup ≠ "" →
          st'.groups = Function.update st.groups userId (trimSpace plan.upgradeGroup) ∧ prev =
            if st.groups userId ≠ trimSpace plan.upgradeGroup then st.groups userId else "") := by
  unfold createUserSubscriptionFromPlanTx at h
  obtain ⟨hid, h⟩ := ite_error_eq_ok.mp h
  obtain ⟨huser, h⟩ := ite_error_eq_ok.mp h
  obtain ⟨hlimit, h⟩ := ite_error_eq_ok.mp h
  obtain ⟨endUnix, hend, h⟩ := bind_eq_ok.mp h
  refine ⟨hid, huser, hlimit, endUnix, ?_⟩
  dsimp only at h
  split at h
  · rename_i hup
    obtain ⟨hins, hgroups⟩ := create_eq_ok h
    exact ⟨"", hend, hins, fun _ => ⟨hgroups, rfl⟩, fun hne => absurd hup hne⟩
  · rename_i hup
    rw [getUserGroupByIdTx, if_neg huser] at h
    simp only [bind, Except.bind] at h
    by_cases hcur : st.groups userId ≠ trimSpace plan.upgradeGroup
    · rw [if_pos hcur] at h
      obtain ⟨hins, hgroups⟩ := create_eq_ok h
      exact ⟨st.groups userId, hend, hins, fun he => absurd he hup,
        fun _ => ⟨hgroups, (if_pos hcur).symm⟩⟩
    · rw [if_neg hcur] at h
      obtain ⟨hins, hgroups⟩ := create_eq_ok h
      refine ⟨"", hend, hins, fun he => absurd he hup, fun _ => ⟨?_, (if_neg hcur).symm⟩⟩
      rw [hgroups, ← not_not.mp hcur, Function.update_eq_self]

end Create

/-- The row as `AdminInvalidateUserSubscription` leaves it. -/
def UserSubscription.cancel (sub : UserSubscription) (now : Int) : UserSubscription :=
  { sub with status := .cancelled, endTime := now }

def adminInvalidateUserSubscription (userSubscriptionId now : Int) (st : GroupStore) :
    Except Halt (String × GroupStore) :=
  if userSubscriptionId ≤ 0 then .error (.error "invalid userSubscriptionId")
  else
    match st.subs.find? userSubscriptionId with
    | none => .error (.error "record not found")
    | some sub => do
        let cancelled := st.withSubs (st.subs.save (sub.cancel now))
        let (target, st) ← downgradeUserGroupForSubscriptionTx (sub.cancel now) now cancelled
        return (if target = "" then "" else "用户分组将回退到 " ++ target, st)

def adminDeleteUserSubscription (userSubscriptionId now : Int) (st : GroupStore) :
    Except Halt (String × GroupStore) :=
  if userSubscriptionId ≤ 0 then .error (.error "invalid userSubscriptionId")
  else
    match st.subs.find? userSubscriptionId with
    | none => .error (.error "record not found")
    | some sub => do
        -- the group is looked at while the row is still there; its id keeps it out of the search
        let (target, st) ← downgradeUserGroupForSubscriptionTx sub now st
        return (if target = "" then "" else "用户分组将回退到 " ++ target,
          st.withSubs (st.subs.erase userSubscriptionId))

def UserSubscription.IsDue (now : Int) (sub : UserSubscription) : Prop :=
  sub.status = .active ∧ 0 < sub.endTime ∧ sub.endTime ≤ now
deriving Decidable

/-- The row as `ExpireDueSubscriptions` leaves it. -/
def UserSubscription.expire (sub : UserSubscription) : UserSubscription :=
  { sub with status := .expired }

@[simp] theorem UserSubscription.expire_id (sub : UserSubscription) : sub.expire.id = sub.id := rfl

/-- The first row in the order `end_time desc, id desc`. -/
def latest (subs : List UserSubscription) : Option UserSubscription :=
  (subs.insertionSort fun a b => endsBefore b a).head?

def expiredUpgrades (st : GroupStore) (userId : Int) : List UserSubscription :=
  st.subs.rows.filter fun r => r.userId = userId ∧ r.status = .expired ∧ r.upgradeGroup ≠ ""

def expiredSubs (now userId : Int) (st : GroupStore) : SubscriptionTable :=
  st.subs.updateWhere (fun r => r.userId = userId ∧ r.IsDue now) UserSubscription.expire
    UserSubscription.expire_id

/-- The transaction of `ExpireDueSubscriptions` for one user. -/
def expireUser (now : Int) (st : GroupStore) (userId : Int) : GroupStore :=
  let st := st.withSubs (expiredSubs now userId st)
  if ∃ r ∈ st.subs.rows, r.IsUpgrade userId now then st
  else
    -- all expired rows are looked at, not only those that expire now
    match latest (expiredUpgrades st userId) with
    | none => st
    | some lastExpired =>
      let upgradeGroup := trimSpace lastExpired.upgradeGroup
      let prevGroup := trimSpace lastExpired.prevUserGroup
      if upgradeGroup = "" ∨ prevGroup = "" then st
      else if st.groups userId ≠ upgradeGroup ∨ st.groups userId = prevGroup then st
      else st.setGroup userId prevGroup

/-- The due rows that one call of `ExpireDueSubscriptions` reads. -/
def dueSubscriptions (limit now : Int) (st : GroupStore) : List UserSubscription :=
  ((st.subs.rows.filter fun r => r.IsDue now).insertionSort endsBefore).take
    (if limit ≤ 0 then 200 else limit.toNat)

def dueUsers (limit now : Int) (st : GroupStore) : List Int :=
  (((dueSubscriptions limit now st).map (·.userId)).filter (· > 0)).dedup

/-- One transaction for each user of a due row; the number of expired rows and the store. -/
def expireDueSubscriptions (m : MapOrder Int) (limit now : Int) (st : GroupStore) :
    Nat × GroupStore :=
  (m.order (dueUsers limit now st)).foldl
    (fun acc userId =>
      (acc.1 + (acc.2.subs.rows.filter fun r => r.userId = userId ∧ r.IsDue now).length,
        expireUser now acc.2 userId))
    (0, st)

end NomoApi
