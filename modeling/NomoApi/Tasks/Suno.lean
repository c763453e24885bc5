import NomoApi.Tasks.Video

/-! # Polling Suno tasks

`updateSunoTasks` of `service/task_polling.go` asks for all tasks of a channel in one request. An
item that differs from the task in memory is copied into it, a failed task is refunded, and only
then is the row saved, without a guard. An upstream ID that the round does not know panics. -/

namespace NomoApi

/-- **`SunoDataResponse`**: one item of an upstream answer. -/
structure SunoItem where
  taskID : String
  status : TaskStatus
  failReason : String
  submitTime : Int
  startTime : Int
  finishTime : Int
  data : List UInt8
deriving DecidableEq

structure SunoVisit where
  item : SunoItem
  fault : Option String
  billing : BillingEnv

inductive SunoFetch where
  | failed (err : String)
  | refused
  | items (visits : List SunoVisit)

structure SunoEnv where
  order : MapOrder Int
  channelError : Int → Option String
  bulkFault : Int → Option String
  adaptorFound : Bool
  fetch : Int → SunoFetch
  marshal : List UInt8 → List UInt8

/-! ### One item -/

/-- The data are compared as multisets of bytes. -/
def taskNeedsUpdate (marshal : List UInt8 → List UInt8) (oldTask : Task) (newTask : SunoItem) :
    Bool :=
  oldTask.submitTime ≠ newTask.submitTime ∨ oldTask.startTime ≠ newTask.startTime ∨
    oldTask.finishTime ≠ newTask.finishTime ∨ oldTask.status ≠ newTask.status ∨
    oldTask.failReason ≠ newTask.failReason ∨
    ((oldTask.status = .failure ∨ oldTask.status = .success) ∧ oldTask.progress ≠ "100%") ∨
    (marshal oldTask.data).insertionSort (· ≤ ·) ≠ (marshal newTask.data).insertionSort (· ≤ ·)

def SunoItem.newStatus (item : SunoItem) (t : Task) : TaskStatus :=
  if item.status ≠ ⟨""⟩ then item.status else t.status

/-- **The task has failed**, as the item tells it, and is refunded. -/
def SunoItem.refunds (item : SunoItem) (t : Task) : Bool :=
  item.failReason ≠ "" ∨ item.newStatus t = .failure

/-- **The task in memory after an item.** Empty texts and zero times leave the task's own. -/
def applySunoItem (item : SunoItem) (t : Task) : Task :=
  { t with
    status := item.newStatus t
    failReason := if item.failReason ≠ "" then item.failReason else t.failReason
    submitTime := if item.submitTime ≠ 0 then item.submitTime else t.submitTime
    startTime := if item.startTime ≠ 0 then item.startTime else t.startTime
    finishTime := if item.finishTime ≠ 0 then item.finishTime else t.finishTime
    progress := if item.refunds t ∨ item.status = .success then "100%" else t.progress
    data := item.data }

/-- **An item that changes the task `t`**: refund, then save. -/
def saveSunoItem (v : SunoVisit) (t : Task) (st : PollState) : PollState :=
  let after := applySunoItem v.item t
  { st with
    mem := st.mem.save after
    -- the refund comes before the save and does not depend on it
    ledger := if v.item.refunds t then refundTaskQuota v.billing after st.ledger else st.ledger
    -- the save writes the whole row and is not guarded by a status
    rows := match v.fault with
      | some _ => st.rows
      | none => st.rows.save after }

variable (env : SunoEnv) (tasks : TaskTable)

/-- **The body of the loop over the items.** -/
def updateSunoItem (st : PollState) (v : SunoVisit) : PollState :=
  if st.panicked then st
  else match (taskM tasks v.item.taskID).bind fun t => st.mem.find? t.id with
    -- the source reads fields of the task it looks up without a check, and a missing one is nil
    | none => { st with panicked := true }
    | some t => if taskNeedsUpdate env.marshal t v.item then saveSunoItem v t st else st

/-! ### A round -/

def failSunoTasks (channelId : Int) (taskIds : List String) (st : PollState) : PollState :=
  st.failBulk (env.bulkFault channelId) (failedIDs tasks taskIds)
    s!"获取渠道信息失败，请联系管理员，渠道ID：{channelId}"

def updateSunoTasks (channelId : Int) (taskIds : List String) (st : PollState) : PollState :=
  if st.panicked then st
  else match env.channelError channelId with
    | some _ => failSunoTasks env tasks channelId taskIds st
    | none =>
      if env.adaptorFound then
        match env.fetch channelId with
        -- the channel is left for the next round
        | .failed _ => st
        | .refused => st
        | .items visits => visits.foldl (updateSunoItem env tasks) st
      else st

/-- **`UpdateSunoTasks`**: all channels, in the order of the map. -/
def updateAllSunoTasks (st : PollState) : PollState :=
  (taskChannelM env.order tasks).foldl (fun st g => updateSunoTasks env tasks g.1 g.2 st) st

/-! ### A round as a run -/

inductive SunoStep where
  | failChannel (channelId : Int) (taskIds : List String)
  | item (v : SunoVisit)

open SunoStep

def sunoChannelSteps (g : Int × List String) : List SunoStep :=
  match env.channelError g.1 with
  | some _ => [.failChannel g.1 g.2]
  | none =>
    if env.adaptorFound then
      match env.fetch g.1 with
      | .items visits => visits.map .item
      | _ => []
    else []

def sunoSteps : List SunoStep :=
  (taskChannelM env.order tasks).flatMap (sunoChannelSteps env)

/-- One piece of work, done; after a panic nothing is done any more. -/
def SunoStep.perform (st : PollState) : SunoStep → PollState
  | .failChannel channelId taskIds =>
    if st.panicked then st else failSunoTasks env tasks channelId taskIds st
  | .item v => updateSunoItem env tasks st v

theorem updateSunoTasks_eq_run (g : Int × List String)
    (st : PollState) : updateSunoTasks env tasks g.1 g.2 st =
      run (perform env tasks) st (sunoChannelSteps env g) := by
  have hpanic : ∀ (l : List SunoVisit) (st : PollState), st.panicked = true →
      run (perform env tasks) st (l.map .item) = st := by
    intro l st hp
    induction l with
    | nil => rfl
    | cons v l ih =>
      have hstep : perform env tasks st (.item v) = st := if_pos hp
      rw [List.map_cons, run_cons, hstep, ih]
  unfold updateSunoTasks sunoChannelSteps
  cases env.channelError g.1 with
  | some err => rfl
  | none =>
    cases env.adaptorFound with
    | false => exact ite_self st
    | true =>
      cases env.fetch g.1 with
      | failed err => exact ite_self st
      | refused => exact ite_self st
      | items visits =>
        simp only [if_true]
        split
        · rename_i hp
          exact (hpanic visits st hp).symm
        · simp only [run, List.foldl_map]
          rfl

theorem updateAllSunoTasks_eq_run (st : PollState) : updateAllSunoTasks env tasks st =
      run (perform env tasks) st (sunoSteps env tasks) := by
  simp [updateAllSunoTasks, updateSunoTasks_eq_run, sunoSteps, run, List.foldl_flatMap]

/-! ### What an item does to the round -/

def visitsOf (id : Int) (steps : List SunoStep) : List SunoVisit :=
  steps.filterMap fun
    | .failChannel .. => none
    | .item v => if (taskM tasks v.item.taskID).any (fun t => t.id = id) then some v else none

theorem sunoStep_cases (st : PollState) (step : SunoStep) :
    (∃ panicked, step.perform env tasks st = { st with panicked }) ∨
      (∃ c ids fault reason, step = .failChannel c ids ∧
        step.perform env tasks st = st.failBulk fault (failedIDs tasks ids) reason) ∨
      ∃ v t m, step = .item v ∧ taskM tasks v.item.taskID = some t ∧
        st.mem.find? t.id = some m ∧ step.perform env tasks st = saveSunoItem v m st := by
  cases step with
  | failChannel c ids =>
    simp only [perform]
    split
    · exact .inl ⟨_, rfl⟩
    · exact .inr (.inl ⟨c, ids, _, _, rfl, rfl⟩)
  | item v =>
    simp only [perform, updateSunoItem]
    split
    · exact .inl ⟨_, rfl⟩
    · split
      · exact .inl ⟨_, rfl⟩
      · rename_i m hm
        obtain ⟨t, ht, hfind⟩ := Option.bind_eq_some_iff.mp hm
        split
        · exact .inr (.inr ⟨v, t, m, rfl, ht, hfind, rfl⟩)
        · exact .inl ⟨_, rfl⟩

theorem saveSunoItem_of_ne (v : SunoVisit) {m : Task} {id : Int} (h : id ≠ m.id) (st : PollState) :
    st.SameAt id (saveSunoItem v m st) := by
  have hid : id ≠ (applySunoItem v.item m).id := h
  refine ⟨Table.find?_save_of_ne hid, ?_, ?_, rfl⟩
  · simp only [saveSunoItem]
    split
    · rfl
    · exact Table.find?_save_of_ne hid
  · simp only [saveSunoItem]
    split
    · exact refundsOf_refundTaskQuota_of_ne v.billing hid.symm st.ledger
    · rfl

theorem sunoPerform_untouched (st : PollState) {step : SunoStep} {id : Int}
    (hfail : ∀ c ids, step = .failChannel c ids → id ∉ failedIDs tasks ids)
    (hitem : ∀ v t, step = .item v → taskM tasks v.item.taskID = some t → t.id ≠ id) :
    st.SameAt id (step.perform env tasks st) := by
  rcases sunoStep_cases env tasks st step with
    ⟨p, hperform⟩ | ⟨c, ids, _, _, hstep, hperform⟩ | ⟨v, t, m, hstep, ht, hm, hperform⟩ <;>
    rw [hperform]
  · exact ⟨rfl, rfl, rfl, rfl⟩
  · exact sameAt_failBulk _ _ (hfail c ids hstep)
  · refine saveSunoItem_of_ne v ?_ st
    rw [(Table.find?_eq_some.mp hm).2]
    exact (hitem v t hstep ht).symm

theorem saveSunoItem_self (v : SunoVisit) {m row : Task} {st : PollState}
    (hm : st.mem.find? m.id = some m) (hrow : st.rows.find? m.id = some row) :
    (saveSunoItem v m st).mem.find? m.id = some (applySunoItem v.item m) ∧
      (saveSunoItem v m st).rows.find? m.id =
        some (if v.fault = none then applySunoItem v.item m else row) ∧
      (saveSunoItem v m st).ledger.refundsOf m.id =
        if v.item.refunds m = true ∧ m.quota ≠ 0 ∧ v.billing.fundingFault = none then
          adjustment v.billing (applySunoItem v.item m) (-m.quota) :: st.ledger.refundsOf m.id
        else st.ledger.refundsOf m.id := by
  refine ⟨Table.find?_save rfl hm, ?_, ?_⟩
  · simp only [saveSunoItem]
    cases v.fault with
    | some err => simpa using hrow
    | none => exact Table.find?_save rfl hrow
  · simp only [saveSunoItem]
    split
    · rename_i hrefunds
      have hbook := refundsOf_refundTaskQuota v.billing (applySunoItem v.item m) st.ledger
      simp only [hrefunds, true_and]
      exact hbook
    · rename_i hrefunds
      rw [if_neg fun h => hrefunds h.1]

end NomoApi
