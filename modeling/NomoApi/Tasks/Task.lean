import Mathlib.Data.List.Sort
import NomoApi.Lib.Table

/-! # Asynchronous tasks

The task row of `model/task.go` and the statements of the pollers: the two queries for unfinished
rows, the compare-and-swap `UpdateWithStatus`, the unguarded `Update` and the bulk update. -/

namespace NomoApi

open List

/-- **`TaskStatus`**, a string type: upstream answers may put any text there. -/
structure TaskStatus where
  text : String
deriving DecidableEq

namespace TaskStatus

def notStart : TaskStatus := ⟨"NOT_START"⟩
def submitted : TaskStatus := ⟨"SUBMITTED"⟩
def queued : TaskStatus := ⟨"QUEUED"⟩
def inProgress : TaskStatus := ⟨"IN_PROGRESS"⟩
def failure : TaskStatus := ⟨"FAILURE"⟩
def success : TaskStatus := ⟨"SUCCESS"⟩
def unknown : TaskStatus := ⟨"UNKNOWN"⟩

/-- The status is **terminal**: `SUCCESS` or `FAILURE`. -/
def isDone (s : TaskStatus) : Bool := s = success ∨ s = failure

@[simp] theorem isDone_failure : failure.isDone = true := by decide

theorem isDone_eq_false {s : TaskStatus} : s.isDone = false ↔ s ≠ success ∧ s ≠ failure := by
  simp [isDone]

end TaskStatus

/-- **`TaskBillingContext`**, the part that later billing reads. -/
structure TaskBillingContext where
  originModelName : String
  perCallBilling : Bool
deriving DecidableEq

structure TaskPrivateData where
  key : String
  upstreamTaskID : String
  resultURL : String
  billingSource : String
  subscriptionId : Int
  tokenId : Int
  billingContext : Option TaskBillingContext
deriving DecidableEq

/-- `data` is the raw JSON, byte by byte. -/
structure Task where
  id : Int
  taskID : String
  platform : String
  userId : Int
  group : String
  channelId : Int
  quota : Int
  action : String
  status : TaskStatus
  failReason : String
  submitTime : Int
  startTime : Int
  finishTime : Int
  progress : String
  originModelName : String
  privateData : TaskPrivateData
  data : List UInt8
deriving DecidableEq

/-- **`ProgressSubmitted`** and its siblings in `taskcommon`. -/
def progressSubmitted : String := "10%"
def progressQueued : String := "20%"
def progressInProgress : String := "30%"
def progressComplete : String := "100%"

namespace Task

def getUpstreamTaskID (t : Task) : String :=
  if t.privateData.upstreamTaskID ≠ "" then t.privateData.upstreamTaskID else t.taskID

/-- Old rows keep the URL in `fail_reason`. -/
def getResultURL (t : Task) : String :=
  if t.privateData.resultURL ≠ "" then t.privateData.resultURL else t.failReason

def Unfinished (t : Task) : Prop :=
  t.progress ≠ progressComplete ∧ t.status ≠ .failure ∧ t.status ≠ .success
deriving Decidable

theorem Unfinished.isDone {t : Task} (h : t.Unfinished) : t.status.isDone = false :=
  TaskStatus.isDone_eq_false.mpr ⟨h.2.2, h.2.1⟩

/-- **`taskSnapshot`**: the columns a poll may change. -/
structure Snapshot where
  status : TaskStatus
  progress : String
  startTime : Int
  finishTime : Int
  failReason : String
  resultURL : String
  data : List UInt8
deriving DecidableEq

def snapshot (t : Task) : Snapshot :=
  ⟨t.status, t.progress, t.startTime, t.finishTime, t.failReason, t.privateData.resultURL, t.data⟩

end Task

/-! ### The task table -/

abbrev TaskTable := Table Task Task.id

/-- Writes the whole row if its status is still `fromStatus`, and reports whether it did. -/
def updateWithStatus (t : Task) (fromStatus : TaskStatus) (rows : TaskTable) : Bool × TaskTable :=
  match rows.find? t.id with
  | none => (false, rows)
  -- the whole row is written, with every column as the task in memory has it
  | some row => if row.status = fromStatus then (true, rows.save t) else (false, rows)

theorem find?_updateWithStatus_of_ne {t : Task} {id : Int} (h : id ≠ t.id)
    (fromStatus : TaskStatus) (rows : TaskTable) :
    (updateWithStatus t fromStatus rows).2.find? id = rows.find? id := by
  unfold updateWithStatus
  split
  · rfl
  · split
    · exact Table.find?_save_of_ne h
    · rfl

variable {rows : TaskTable}

theorem updateWithStatus_won {t row : Task} (h : rows.find? t.id = some row) :
    updateWithStatus t row.status rows = (true, rows.save t) := by
  rw [updateWithStatus, h]
  exact if_pos rfl

def Task.bulkFail (failReason : Option String) (t : Task) : Task :=
  { t with status := .failure, progress := "100%", failReason := failReason.getD t.failReason }

theorem Task.bulkFail_id (failReason : Option String) (t : Task) :
    (t.bulkFail failReason).id = t.id := rfl

/-- The rows with these IDs are set to `FAILURE` whatever their status is. -/
def taskBulkUpdateByID (ids : List Int) (failReason : Option String) (rows : TaskTable) :
    TaskTable :=
  rows.updateWhere (fun t => t.id ∈ ids) (Task.bulkFail failReason) (Task.bulkFail_id failReason)

def getAllUnFinishSyncTasks (limit : Nat) (rows : TaskTable) : List Task :=
  ((rows.rows.filter fun t => t.Unfinished).insertionSort fun a b => a.id ≤ b.id).take limit

def getTimedOutUnfinishedTasks (cutoffUnix : Int) (limit : Nat) (rows : TaskTable) : List Task :=
  ((rows.rows.filter fun t => t.Unfinished ∧ t.submitTime < cutoffUnix).insertionSort
    fun a b => a.submitTime ≤ b.submitTime).take limit

theorem mem_getAllUnFinishSyncTasks {limit : Nat} {t : Task}
    (h : t ∈ getAllUnFinishSyncTasks limit rows) : t ∈ rows ∧ t.Unfinished := by
  have hmem := (mem_insertionSort _).mp (mem_of_mem_take h)
  rw [Table.mem_iff]
  simpa using hmem

theorem mem_getTimedOutUnfinishedTasks {cutoff : Int} {limit : Nat} {t : Task}
    (h : t ∈ getTimedOutUnfinishedTasks cutoff limit rows) : t ∈ rows ∧ t.Unfinished := by
  have hmem := (mem_insertionSort _).mp (mem_of_mem_take h)
  obtain ⟨hrow, hun⟩ : t ∈ rows.rows ∧ t.Unfinished ∧ t.submitTime < cutoff := by simpa using hmem
  exact ⟨hrow, hun.1⟩

theorem nodup_ids_select (p : Task → Bool) (r : Task → Task → Prop) [DecidableRel r] (limit : Nat) :
    ((((rows.rows.filter p).insertionSort r).take limit).map Task.id).Nodup := by
  have hfilter : ((rows.rows.filter p).map Task.id).Nodup :=
    rows.nodup.sublist (filter_sublist.map Task.id)
  have hsort : (((rows.rows.filter p).insertionSort r).map Task.id).Nodup :=
    ((perm_insertionSort r _).map Task.id).nodup_iff.mpr hfilter
  exact hsort.sublist ((take_sublist ..).map Task.id)

/-- **The tasks a round loads**, as a table in memory. -/
def unfinishedTasks (limit : Nat) (rows : TaskTable) : TaskTable :=
  ⟨getAllUnFinishSyncTasks limit rows, nodup_ids_select ..⟩

theorem mem_unfinishedTasks {limit : Nat} {t : Task}
    (h : t ∈ unfinishedTasks limit rows) : t ∈ rows ∧ t.Unfinished :=
  mem_getAllUnFinishSyncTasks h

theorem find?_taskBulkUpdateByID (ids : List Int) (failReason : Option String) (rows : TaskTable)
    (id : Int) : (taskBulkUpdateByID ids failReason rows).find? id =
      (rows.find? id).map fun t => if id ∈ ids then t.bulkFail failReason else t := by
  rw [taskBulkUpdateByID, Table.find?_updateWhere]
  cases h : rows.find? id with
  | none => rfl
  | some t =>
    have hid : t.id = id := (Table.find?_eq_some.mp h).2
    simp [hid]

end NomoApi
