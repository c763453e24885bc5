import NomoApi.Lib.Calendar
import NomoApi.Lib.Grouping
import NomoApi.Lib.Run
import NomoApi.Lib.Table

/-! # Polling Midjourney tasks

`UpdateMidjourneyTaskBulk` of `controller/midjourney.go` polls all rows whose progress is not
`100%`. Rows without an upstream ID, and rows of a channel that does not load, are set to `FAILURE`
in bulk. Every other row is written back guarded by the status that the task had, and the quota of a
task that failed is returned. -/

namespace NomoApi

open List

structure Midjourney where
  id : Int
  code : Int
  userId : Int
  mjId : String
  promptEn : String
  state : String
  submitTime : Int
  startTime : Int
  finishTime : Int
  imageUrl : String
  videoUrl : String
  videoUrls : String
  status : String
  progress : String
  failReason : String
  channelId : Int
  quota : Int
  buttons : String
  properties : String
deriving DecidableEq

structure MidjourneyDto where
  mjId : String
  promptEn : String
  state : String
  submitTime : Int
  startTime : Int
  finishTime : Int
  imageUrl : String
  videoUrl : String
  videoUrls : Option String
  status : String
  progress : String
  failReason : String
  buttons : Option String
  properties : Option String
deriving DecidableEq

abbrev MjTable := Table Midjourney Midjourney.id

structure MjRefund where
  taskId : Int
  userId : Int
  quota : Int
deriving DecidableEq

def Midjourney.refund (t : Midjourney) : MjRefund := ⟨t.id, t.userId, t.quota⟩

/-! ### The table -/

/-- Writes the whole row if its status is still `fromStatus`, and reports whether it did. -/
def Midjourney.updateWithStatus (t : Midjourney) (fromStatus : String) (rows : MjTable) :
    Bool × MjTable :=
  match rows.find? t.id with
  | none => (false, rows)
  | some row => if row.status = fromStatus then (true, rows.save t) else (false, rows)

theorem Midjourney.updateWithStatus_cases (t : Midjourney) (fromStatus : String) (rows : MjTable) :
    ((∀ row, rows.find? t.id = some row → row.status ≠ fromStatus) ∧
        t.updateWithStatus fromStatus rows = (false, rows)) ∨
      ∃ row, rows.find? t.id = some row ∧ row.status = fromStatus ∧
        t.updateWithStatus fromStatus rows = (true, rows.save t) := by
  unfold updateWithStatus
  split
  · rename_i hrow
    refine .inl ⟨fun row h => ?_, rfl⟩
    rw [hrow] at h
    cases h
  · rename_i row hrow
    by_cases hstatus : row.status = fromStatus
    · exact .inr ⟨row, hrow, hstatus, if_pos hstatus⟩
    · refine .inl ⟨fun row' h => ?_, if_neg hstatus⟩
      rw [hrow, Option.some.injEq] at h
      rw [← h]
      exact hstatus

def Midjourney.bulkFail (failReason : Option String) (t : Midjourney) : Midjourney :=
  { t with status := "FAILURE", progress := "100%", failReason := failReason.getD t.failReason }

theorem Midjourney.bulkFail_id (failReason : Option String) (t : Midjourney) :
    (t.bulkFail failReason).id = t.id := rfl

/-- **Bulk updates** set rows to `FAILURE`, whatever their status is. -/
def mjBulkUpdateWhere (p : Midjourney → Bool) (failReason : Option String) (rows : MjTable) :
    MjTable :=
  rows.updateWhere p (Midjourney.bulkFail failReason) (Midjourney.bulkFail_id failReason)

def mjBulkUpdateByTaskIds (taskIDs : List Int) (rows : MjTable) : MjTable :=
  mjBulkUpdateWhere (fun t => t.id ∈ taskIDs) none rows

def mjBulkUpdate (mjIds : List String) (failReason : String) (rows : MjTable) : MjTable :=
  mjBulkUpdateWhere (fun t => t.mjId ∈ mjIds) (some failReason) rows

theorem nodup_ids_unfinished (order : MapOrder Midjourney) (rows : MjTable) :
    ((order.order (rows.rows.filter fun t => t.progress ≠ "100%")).map Midjourney.id).Nodup :=
  ((order.perm _).map Midjourney.id).nodup_iff.mpr (rows.filter fun t => t.progress ≠ "100%").nodup

def getAllUnFinishTasks (fault : Option String) (order : MapOrder Midjourney) (rows : MjTable) :
    MjTable :=
  match fault with
  | some _ => .empty
  | none => ⟨order.order (rows.rows.filter fun t => t.progress ≠ "100%"),
      nodup_ids_unfinished order rows⟩

theorem mem_getAllUnFinishTasks {fault : Option String} {order : MapOrder Midjourney}
    {rows : MjTable} {t : Midjourney} (h : t ∈ getAllUnFinishTasks fault order rows) :
    t ∈ rows ∧ t.progress ≠ "100%" := by
  cases fault with
  | some err => cases h
  | none =>
    have hmem : t ∈ rows.rows.filter fun t => t.progress ≠ "100%" := (order.perm _).mem_iff.mp h
    rw [mem_filter] at hmem
    exact ⟨hmem.1, of_decide_eq_true hmem.2⟩

/-! ### One item -/

def checkMjTaskNeedUpdate (oldTask : Midjourney) (newTask : MidjourneyDto) : Bool :=
  oldTask.code ≠ 1 ∨ oldTask.progress ≠ newTask.progress ∨ oldTask.promptEn ≠ newTask.promptEn ∨
    oldTask.state ≠ newTask.state ∨ oldTask.submitTime ≠ newTask.submitTime ∨
    oldTask.startTime ≠ newTask.startTime ∨ oldTask.finishTime ≠ newTask.finishTime ∨
    oldTask.imageUrl ≠ newTask.imageUrl ∨ oldTask.status ≠ newTask.status ∨
    oldTask.failReason ≠ newTask.failReason ∨
    -- the source compares the finish times twice
    oldTask.finishTime ≠ newTask.finishTime ∨
    (oldTask.progress ≠ "100%" ∧ newTask.failReason ≠ "") ∨
    oldTask.videoUrl ≠ newTask.videoUrl ∨
    -- an item without URLs clears those of the task
    oldTask.videoUrls ≠ newTask.videoUrls.getD ""

/-- **The timeout**: an item for an unfinished task submitted more than an hour ago is a failure. -/
def MidjourneyDto.checkTime (now : Int) (task : Midjourney) (item : MidjourneyDto) :
    MidjourneyDto :=
  if 3600000 < wrap64 (now - task.submitTime) ∧ task.progress ≠ "100%" then
    { item with failReason := "上游任务超时（超过1小时）", status := "FAILURE" }
  else item

/-- **The build failed**: a reason before `100%`, or complete with the status `FAILURE`. -/
def MidjourneyDto.buildFailed (item : MidjourneyDto) : Bool :=
  (item.progress ≠ "100%" ∧ item.failReason ≠ "") ∨
    (item.progress = "100%" ∧ item.status = "FAILURE")

/-- **The task in memory after an item.** -/
def Midjourney.updated (task : Midjourney) (item : MidjourneyDto) : Midjourney :=
  { task with
    code := 1
    promptEn := item.promptEn
    state := item.state
    submitTime := item.submitTime
    startTime := item.startTime
    finishTime := item.finishTime
    imageUrl := item.imageUrl
    status := item.status
    failReason := item.failReason
    properties := item.properties.getD task.properties
    buttons := item.buttons.getD task.buttons
    videoUrl := item.videoUrl
    videoUrls := item.videoUrls.getD ""
    -- the status of a failed build stays the one that the item has
    progress := if item.buildFailed then "100%" else item.progress }

@[simp] theorem Midjourney.updated_id (task : Midjourney) (item : MidjourneyDto) :
    (task.updated item).id = task.id := rfl

def shouldReturnQuota (item : MidjourneyDto) (task : Midjourney) : Bool :=
  item.buildFailed ∧ task.quota ≠ 0

structure MjVisit where
  item : MidjourneyDto
  now : Int
  updateFault : Option String
  increaseFault : Option String

/-- **The state of the loop**: the table, the tasks of the round in memory, and what has happened.
-/
structure MjState where
  rows : MjTable
  mem : MjTable
  refunds : List MjRefund
  /-- The items that were looked up though the channel was not asked for them. -/
  strays : List (Int × String)
  panicked : Bool

def MjState.start (rows : MjTable) : MjState := ⟨rows, .empty, [], [], false⟩

/-- **`IncreaseUserQuota`** for the quota of a task; a negative one is refused. -/
def MjState.increaseUserQuota (fault : Option String) (task : Midjourney) (st : MjState) :
    MjState :=
  if task.quota < 0 ∨ fault ≠ none then st
  else { st with refunds := task.refund :: st.refunds }

/-- **An item that changes the task** in memory: the row is written if it still has the status of
the task, and the quota returned if the build failed. -/
def saveMjItem (v : MjVisit) (item : MidjourneyDto) (task : Midjourney) (st : MjState) : MjState :=
  let after := task.updated item
  let held := { st with mem := st.mem.save after }
  match v.updateFault with
  | some _ => held
  | none =>
    let write := after.updateWithStatus task.status st.rows
    let saved := { held with rows := write.2 }
    if write.1 ∧ shouldReturnQuota item task then
      -- the error is only logged
      saved.increaseUserQuota v.increaseFault after
    else saved

def mjPollable (tasks : MjTable) : List Midjourney := tasks.rows.filter fun t => t.mjId ≠ ""

/-- **`taskM`**: the last task with an upstream ID. -/
def mjTaskM (tasks : MjTable) (mjId : String) : Option Midjourney :=
  (mjPollable tasks).reverse.find? fun t => t.mjId = mjId

/-- **`taskIds`**: the IDs that a channel is asked for. -/
def mjTaskIds (tasks : MjTable) (channelId : Int) : List String :=
  ((mjPollable tasks).filter fun t => t.channelId = channelId).map Midjourney.mjId

/-- **The body of the loop over the items** of the answer of a channel. -/
def updateMjItem (channelId : Int) (st : MjState) (v : MjVisit) : MjState :=
  let looked := if v.item.mjId ∈ mjTaskIds st.mem channelId then st
    else { st with strays := (channelId, v.item.mjId) :: st.strays }
  match mjTaskM st.mem v.item.mjId with
  -- the source reads fields of the task it looks up without a check, and a missing one is nil
  | none => { looked with panicked := true }
  | some task =>
    let item := v.item.checkTime v.now task
    if checkMjTaskNeedUpdate task item then saveMjItem v item task looked else looked

/-! ### A round -/

inductive MjFetch where
  | channelError (bulkFault : Option String)
  /-- The channel has no base URL: the pointer is nil. -/
  | noBaseURL
  | failed
  | items (visits : List MjVisit)

structure MjRound where
  loadFault : Option String
  loadOrder : MapOrder Midjourney
  nullFault : Option String
  order : MapOrder Int
  fetch : Int → MjFetch

def unlessPanicked {α : Type} (f : MjState → α → MjState) (st : MjState) (a : α) : MjState :=
  if st.panicked then st else f st a

def MjRound.tasks (e : MjRound) (rows : MjTable) : MjTable :=
  getAllUnFinishTasks e.loadFault e.loadOrder rows

/-- **`nullTaskIds`**: the loaded rows without an upstream ID. -/
def nullMjTaskIds (tasks : MjTable) : List Int :=
  (tasks.rows.filter fun t => t.mjId = "").map Midjourney.id

/-- **The rows without an upstream ID** are set to `FAILURE`. -/
def failNullMjTasks (fault : Option String) (st : MjState) : MjState :=
  match fault with
  | some _ => st
  | none => { st with rows := mjBulkUpdateByTaskIds (nullMjTaskIds st.mem) st.rows }

/-- **The rows of a channel that does not load** are set to `FAILURE`. -/
def failMjChannel (channelId : Int) (taskIds : List String) (fault : Option String)
    (st : MjState) : MjState :=
  match fault with
  | some _ => st
  | none =>
    { st with
      rows := mjBulkUpdate taskIds s!"获取渠道信息失败，请联系管理员，渠道ID：{channelId}" st.rows }

/-- **`taskChannelM`**: the upstream IDs by channel, with repetitions. -/
def mjTaskChannelM (order : MapOrder Int) (tasks : MjTable) : List (Int × List String) :=
  (grouped order Midjourney.channelId (mjPollable tasks)).map fun g =>
    (g.1, g.2.map Midjourney.mjId)

/-- **The body of the loop over the channels.** -/
def updateMjChannel (e : MjRound) (st : MjState) (g : Int × List String) : MjState :=
  match e.fetch g.1 with
  | .channelError fault => failMjChannel g.1 g.2 fault st
  | .noBaseURL => { st with panicked := true }
  -- the channel is left for the next round
  | .failed => st
  | .items visits => visits.foldl (unlessPanicked (updateMjItem g.1)) st

/-- **One round of `UpdateMidjourneyTaskBulk`.** -/
def updateMidjourneyTasks (st : MjState) (e : MjRound) : MjState :=
  if st.panicked then st
  else
    let tasks := e.tasks st.rows
    let loaded := failNullMjTasks e.nullFault { st with mem := tasks }
    (mjTaskChannelM e.order tasks).foldl (unlessPanicked (updateMjChannel e)) loaded

theorem mjTaskM_eq_some {tasks : MjTable} {mjId : String} {m : Midjourney}
    (h : mjTaskM tasks mjId = some m) : m ∈ tasks ∧ m.mjId = mjId := by
  have hmem := mem_of_find?_eq_some h
  rw [mem_reverse, mjPollable, mem_filter] at hmem
  exact ⟨hmem.1, by simpa using find?_some h⟩

/-! ### A round as a run -/

inductive MjStep where
  | load (e : MjRound)
  | failNull (fault : Option String)
  | failChannel (channelId : Int) (taskIds : List String) (fault : Option String)
  /-- The base URL of a channel that has none is looked at. -/
  | crash
  | item (channelId : Int) (v : MjVisit)

open MjStep

def MjStep.act (st : MjState) : MjStep → MjState
  | .load e => { st with mem := e.tasks st.rows }
  | .failNull fault => failNullMjTasks fault st
  | .failChannel channelId taskIds fault => failMjChannel channelId taskIds fault st
  | .crash => { st with panicked := true }
  | .item channelId v => updateMjItem channelId st v

def MjStep.perform : MjState → MjStep → MjState := unlessPanicked act

def mjChannelSteps (e : MjRound) (g : Int × List String) : List MjStep :=
  match e.fetch g.1 with
  | .channelError fault => [.failChannel g.1 g.2 fault]
  | .noBaseURL => [.crash]
  | .failed => []
  | .items visits => visits.map (.item g.1)

def mjSteps (e : MjRound) (rows : MjTable) : List MjStep :=
  .load e :: .failNull e.nullFault ::
    (mjTaskChannelM e.order (e.tasks rows)).flatMap (mjChannelSteps e)

theorem MjStep.perform_of_panicked {st : MjState} (h : st.panicked = true) (s : MjStep) :
    s.perform st = st := if_pos h

theorem MjStep.perform_of_not_panicked {st : MjState} (h : st.panicked = false) (s : MjStep) :
    s.perform st = s.act st := if_neg (by simp [h])

theorem run_perform_of_panicked {st : MjState} (h : st.panicked = true) (steps : List MjStep) :
    run perform st steps = st := by
  induction steps with
  | nil => rfl
  | cons s steps ih => rw [run_cons, perform_of_panicked h, ih]

theorem updateMjChannel_eq_run (e : MjRound) (st : MjState) (g : Int × List String) :
    unlessPanicked (updateMjChannel e) st g = run perform st (mjChannelSteps e g) := by
  cases hp : st.panicked with
  | true =>
    rw [run_perform_of_panicked hp]
    exact if_pos hp
  | false =>
    have hgo : unlessPanicked (updateMjChannel e) st g = updateMjChannel e st g :=
      if_neg (by simp [hp])
    rw [hgo, updateMjChannel, mjChannelSteps]
    cases e.fetch g.1 with
    | channelError fault =>
      exact (perform_of_not_panicked hp (.failChannel g.1 g.2 fault)).symm
    | noBaseURL => exact (perform_of_not_panicked hp .crash).symm
    | failed => rfl
    | items visits =>
      dsimp only [run]
      rw [foldl_map]
      rfl

theorem updateMidjourneyTasks_eq_run (st : MjState) (e : MjRound) :
    updateMidjourneyTasks st e = run perform st (mjSteps e st.rows) := by
  cases hp : st.panicked with
  | true =>
    rw [run_perform_of_panicked hp]
    exact if_pos hp
  | false =>
    have hgroups : ∀ (groups : List (Int × List String)) (st : MjState),
        groups.foldl (unlessPanicked (updateMjChannel e)) st =
          run perform st (groups.flatMap (mjChannelSteps e)) := by
      intro groups
      induction groups with
      | nil => exact fun _ => rfl
      | cons g groups ih =>
        intro st
        rw [foldl_cons, ih, flatMap_cons, run_append, updateMjChannel_eq_run]
    have hload : perform st (.load e) = { st with mem := e.tasks st.rows } :=
      perform_of_not_panicked hp _
    have hnull : perform { st with mem := e.tasks st.rows } (.failNull e.nullFault) =
        failNullMjTasks e.nullFault { st with mem := e.tasks st.rows } := if_neg (by simp [hp])
    rw [mjSteps, run_cons, run_cons, hload, hnull, ← hgroups]
    exact if_neg (by simp [hp])

/-- **The work of many rounds.** -/
def pollingSteps : MjState → List MjRound → List MjStep
  | _, [] => []
  | st, e :: es => mjSteps e st.rows ++ pollingSteps (updateMidjourneyTasks st e) es

theorem run_pollingSteps (st : MjState) (es : List MjRound) :
    run perform st (pollingSteps st es) = run updateMidjourneyTasks st es := by
  induction es generalizing st with
  | nil => rfl
  | cons e es ih =>
    rw [pollingSteps, run_append, ← updateMidjourneyTasks_eq_run, ih, run_cons]

end NomoApi
