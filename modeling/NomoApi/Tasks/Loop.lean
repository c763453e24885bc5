import NomoApi.Tasks.SunoRefunds

/-! # The polling loop

One turn of `TaskPollingLoop`: sweep the tasks that have timed out, load the unfinished ones, and
for each platform set the tasks without an upstream ID to `FAILURE` and poll the rest. -/

namespace NomoApi

structure LoopRound where
  taskTimeoutMinutes : Int
  /-- The clock at the cutoff of the sweep, and when its rows are written. -/
  cutoffClock : Int
  sweepClock : Int
  sweepFault : Int → Option String
  sweepBilling : Int → BillingEnv
  limit : Nat
  order : MapOrder String
  nullFault : String → Option String
  suno : SunoEnv
  video : String → VideoEnv

/-! ### The sweep -/

/-- **The body of the loop in `sweepTimedOutTasks`.** -/
def sweepTask (r : LoopRound) (w : TaskWorld) (t : Task) : TaskWorld :=
  let after := timeOutTask r.taskTimeoutMinutes r.sweepClock t
  match r.sweepFault t.id with
  | some _ => w
  | none =>
    let out := updateWithStatus after t.status w.rows
    -- only the process whose write wins refunds
    if out.1 then
      ⟨out.2, if refundsTimeOut t then refundTaskQuota (r.sweepBilling t.id) after w.ledger
        else w.ledger⟩
    else w

def sweptTasks (r : LoopRound) (rows : TaskTable) : List Task :=
  getTimedOutUnfinishedTasks (r.cutoffClock - r.taskTimeoutMinutes * 60) 100 rows

def sweepTimedOutTasks (r : LoopRound) (w : TaskWorld) : TaskWorld :=
  if r.taskTimeoutMinutes ≤ 0 then w else run (sweepTask r) w (sweptTasks r w.rows)

/-! ### The platforms -/

variable (r : LoopRound) (platform : String)

def dispatchPlatformUpdate (tasks : TaskTable) (st : PollState) : PollState :=
  -- Midjourney tasks are polled by a loop of their own
  if platform = "mj" then st
  else if platform = "suno" then updateAllSunoTasks r.suno tasks st
  else updateAllVideoTasks (r.video platform) tasks st

def platformRound (tasks : TaskTable) (w : TaskWorld) : PollState :=
  dispatchPlatformUpdate r platform tasks
    (.start (failNullTasks (r.nullFault platform) tasks w.rows) tasks w.ledger)

variable (loaded : TaskTable)

/-- **The work on one platform**, and whether it panicked. -/
def pollPlatform (acc : TaskWorld × Bool) (platform : String) : TaskWorld × Bool :=
  if acc.2 then acc
  else
    let st := platformRound r platform (loaded.filter fun t => t.platform = platform) acc.1
    (⟨st.rows, st.ledger⟩, st.panicked)

def platforms : List String :=
  r.order.order (loaded.rows.map Task.platform).dedup

def pollPlatforms (w : TaskWorld) : TaskWorld :=
  (run (pollPlatform r loaded) (w, false) (platforms r loaded)).1

/-- **One turn of `TaskPollingLoop`**. -/
def loopRound (w : TaskWorld) (r : LoopRound) : TaskWorld :=
  -- the sweep comes first, so its rows are not loaded any more
  let swept := sweepTimedOutTasks r w
  pollPlatforms r (unfinishedTasks r.limit swept.rows) swept

/-! ### Rows that a part of the loop leaves alone -/

/-- The row `id` and its refunds are the same in both worlds. -/
def SameRow (id : Int) (w w' : TaskWorld) : Prop :=
  w'.rows.find? id = w.rows.find? id ∧ w'.ledger.refundsOf id = w.ledger.refundsOf id

theorem SameRow.trans {id : Int} {w w' w'' : TaskWorld} (h : SameRow id w w')
    (h' : SameRow id w' w'') : SameRow id w w'' := ⟨h'.1.trans h.1, h'.2.trans h.2⟩

theorem sweepTask_of_ne (w : TaskWorld) {t : Task} {id : Int} (h : t.id ≠ id) :
    SameRow id w (sweepTask r w t) := by
  have hid : (timeOutTask r.taskTimeoutMinutes r.sweepClock t).id ≠ id := h
  simp only [sweepTask]
  split
  · exact ⟨rfl, rfl⟩
  · split
    · refine ⟨find?_updateWithStatus_of_ne hid.symm _ _, ?_⟩
      dsimp only
      split
      · exact refundsOf_refundTaskQuota_of_ne _ hid _
      · rfl
    · exact ⟨rfl, rfl⟩

theorem find?_failNullTasks_of_not {fault : Option String} {tasks rows : TaskTable} {id : Int}
    (h : id ∉ nullTaskIds tasks) : (failNullTasks fault tasks rows).find? id = rows.find? id := by
  unfold failNullTasks
  split
  · rfl
  · rw [find?_taskBulkUpdateByID]
    simp [h]

section

variable {id : Int}

theorem platformRound_of_notLoaded (platform : String) {tasks : TaskTable} (h : NotLoaded tasks id)
    (w : TaskWorld) : (platformRound r platform tasks w).rows.find? id = w.rows.find? id ∧
      (platformRound r platform tasks w).ledger.refundsOf id = w.ledger.refundsOf id := by
  have hnull : (failNullTasks (r.nullFault platform) tasks w.rows).find? id = w.rows.find? id := by
    refine find?_failNullTasks_of_not fun hmem => ?_
    obtain ⟨t, ht, heq, -⟩ := mem_nullTaskIds hmem
    exact h t ht heq
  unfold platformRound dispatchPlatformUpdate
  split
  · exact ⟨hnull, rfl⟩
  · split
    · rw [updateAllSunoTasks_eq_run]
      have hsame := run_of_notLoaded r.suno h (sunoSteps r.suno tasks)
        (.start (failNullTasks (r.nullFault platform) tasks w.rows) tasks w.ledger)
      exact ⟨hsame.rows.trans hnull, hsame.refunds⟩
    · rw [updateAllVideoTasks_eq_run]
      have hsame := sameAt_run (J := PollState.Loaded tasks)
        (fun _ step hl => loaded_perform (r.video platform) hl step)
        (fun _ _ hl => perform_untouched (r.video platform) hl (fun _ ids _ => h.not_failed ids)
          fun _ _ s _ hs => h s (taskM_eq_some hs).1)
        (loaded_start (failNullTasks (r.nullFault platform) tasks w.rows) tasks w.ledger)
        (videoSteps (r.video platform) tasks)
      exact ⟨hsame.rows.trans hnull, hsame.refunds⟩

theorem pollPlatform_of_notLoaded {loaded : TaskTable} {platform : String}
    (h : NotLoaded (loaded.filter fun t => t.platform = platform) id) (acc : TaskWorld × Bool) :
    SameRow id acc.1 (pollPlatform r loaded acc platform).1 := by
  unfold pollPlatform
  split
  · exact ⟨rfl, rfl⟩
  · exact platformRound_of_notLoaded r platform h acc.1

/-- **A turn of the loop** leaves a row alone that was not loaded after the sweep. -/
theorem pollPlatforms_of_notLoaded {loaded : TaskTable} (h : NotLoaded loaded id) (w : TaskWorld) :
    SameRow id w (pollPlatforms r loaded w) := by
  refine run_induction (I := fun acc : TaskWorld × Bool => SameRow id w acc.1) ?_ ⟨rfl, rfl⟩
    (platforms r loaded)
  intro acc platform hacc
  refine hacc.trans (pollPlatform_of_notLoaded r (fun t ht => ?_) acc)
  exact h t (Table.mem_filter.mp ht).1

theorem sweepTimedOutTasks_of_not {w : TaskWorld} (h : ∀ t ∈ sweptTasks r w.rows, t.id ≠ id) :
    SameRow id w (sweepTimedOutTasks r w) := by
  unfold sweepTimedOutTasks
  split
  · exact ⟨rfl, rfl⟩
  · exact run_induction_mem (I := SameRow id w)
      (fun _ t ht hw => hw.trans (sweepTask_of_ne r _ (h t ht))) ⟨rfl, rfl⟩

end

end NomoApi
