import NomoApi.Tasks.Video

/-! # Upstream IDs that collide

`taskM` keeps one task for each upstream ID, but the lists of `taskChannelM` keep every occurrence:
when several tasks have the same upstream ID, the last of them is polled once for each, through each
one's channel. A poll that finds the task already ended in memory skips the guarded write, and bills
it all the same. -/

namespace NomoApi

open List VideoStep PollState

/-! ### The index by upstream ID -/

def sharing (tasks : TaskTable) (u : String) : List Task :=
  (pollable tasks).filter fun t => t.getUpstreamTaskID = u

/-- **The task is the one that `taskM` keeps** under its upstream ID. -/
def Survives (tasks : TaskTable) (s : Task) : Prop := taskM tasks s.getUpstreamTaskID = some s
deriving Decidable

variable {tasks : TaskTable} {s : Task}

theorem Survives.mem_sharing (h : Survives tasks s) : s ∈ sharing tasks s.getUpstreamTaskID := by
  have hfind := mem_of_find?_eq_some h
  rw [sharing, mem_filter]
  exact ⟨mem_reverse.mp hfind, by simp⟩

def polledAs (tasks : TaskTable) (s : Task) (u : String) : Bool :=
  (taskM tasks u).any fun t => t.id = s.id

theorem polledAs_iff (hs : s ∈ tasks) {u : String} :
    polledAs tasks s u = true ↔ taskM tasks u = some s := by
  unfold polledAs
  cases h : taskM tasks u with
  | none => simp
  | some t =>
    have ht := (taskM_eq_some h).1
    simp only [Option.any_some, decide_eq_true_eq, Option.some.injEq]
    exact ⟨fun hid => Table.eq_of_key_eq ht hs hid, fun heq => heq ▸ rfl⟩

/-- **How often a row is listed**: as often as its upstream ID, if `taskM` keeps the task. -/
theorem countP_polledAs (hs : s ∈ tasks) :
    (pollable tasks).countP (fun t => polledAs tasks s t.getUpstreamTaskID) =
      if Survives tasks s then (sharing tasks s.getUpstreamTaskID).length else 0 := by
  split
  · rename_i hsurvives
    rw [sharing, ← countP_eq_length_filter]
    refine countP_congr fun t _ => ?_
    rw [polledAs_iff hs, decide_eq_true_eq]
    constructor
    · intro h
      exact (taskM_eq_some h).2.1.symm
    · intro h
      rw [h]
      exact hsurvives
  · rename_i hsurvives
    rw [countP_eq_zero]
    intro t _ hpolled
    rw [polledAs_iff hs] at hpolled
    refine hsurvives ?_
    rw [Survives, (taskM_eq_some hpolled).2.1]
    exact hpolled

/-! ### Counting the polls of a row -/

theorem countP_polls (tasks : TaskTable) (s : Task) (c : Int) (l : List Task) :
    (((l.map Task.getUpstreamTaskID).map (VideoStep.poll c)).filterMap
        (VideoStep.poll? tasks)).countP (fun p => p.row = s.id) =
      l.countP fun t => polledAs tasks s t.getUpstreamTaskID := by
  rw [countP_filterMap, map_map, countP_map]
  refine countP_congr fun t _ => ?_
  simp only [Function.comp_apply, poll?, polledAs]
  cases taskM tasks t.getUpstreamTaskID <;> simp

def pollCount (env : VideoEnv) (tasks : TaskTable) (s : Task) (groups : List (Int × List Task)) :
    Nat :=
  ((groups.flatMap fun g => channelSteps env (g.1, g.2.map Task.getUpstreamTaskID)).filterMap
    (VideoStep.poll? tasks)).countP fun p => p.row = s.id

/-- A row is polled **at most as often as the channels list it**, and as often if they all load. -/
theorem pollCount_le (env : VideoEnv) (tasks : TaskTable) (s : Task)
    (groups : List (Int × List Task)) :
    let listed := (groups.flatMap Prod.snd).countP fun t => polledAs tasks s t.getUpstreamTaskID
    pollCount env tasks s groups ≤ listed ∧ ((∀ c, env.channelError c = none) →
      env.adaptorFound = true → pollCount env tasks s groups = listed) := by
  unfold pollCount
  induction groups with
  | nil => exact ⟨Nat.le_refl 0, fun _ _ => rfl⟩
  | cons g groups ih =>
    have hgroup := countP_polls tasks s g.1 g.2
    simp only [flatMap_cons, filterMap_append, countP_append, ← hgroup]
    refine ⟨Nat.add_le_add ?_ ih.1, fun hload hadaptor => ?_⟩
    · unfold channelSteps
      split
      · exact Nat.zero_le _
      · split
        · exact le_rfl
        · exact Nat.zero_le _
    · rw [ih.2 hload hadaptor]
      simp [channelSteps, hload, hadaptor]

variable {env : VideoEnv}

theorem pollsOf_videoRound (env : VideoEnv) (rows tasks : TaskTable) (s : Task) :
    (videoRound env rows tasks).pollsOf s.id =
      pollCount env tasks s (grouped env.order Task.channelId (pollable tasks)) := by
  rw [pollsOf, videoRound, updateAllVideoTasks_eq_run,
    polls_run env (loaded_start rows tasks _), countP_append, countP_reverse]
  simp [start, pollCount, videoSteps, taskChannelM, flatMap_map]

theorem countP_videoSteps_le (env : VideoEnv) (hs : s ∈ tasks) :
    ((videoSteps env tasks).filterMap (VideoStep.poll? tasks)).countP (fun p => p.row = s.id) ≤
      if Survives tasks s then (sharing tasks s.getUpstreamTaskID).length else 0 := by
  rw [← countP_polledAs hs, videoSteps, taskChannelM, flatMap_map]
  refine (pollCount_le env tasks s _).1.trans_eq ?_
  exact (grouped_perm env.order Task.channelId (pollable tasks)).countP_eq _

theorem pollsOf_le (env : VideoEnv) (rows : TaskTable) (hs : s ∈ tasks) :
    (videoRound env rows tasks).pollsOf s.id ≤
      if Survives tasks s then (sharing tasks s.getUpstreamTaskID).length else 0 := by
  have hcount := countP_videoSteps_le env hs
  rw [videoSteps, taskChannelM, flatMap_map] at hcount
  rw [pollsOf_videoRound]
  exact hcount

theorem pollsOf_eq (hload : ∀ c, env.channelError c = none) (hadaptor : env.adaptorFound = true)
    (rows : TaskTable) (hs : s ∈ tasks) (hsurvives : Survives tasks s) :
    (videoRound env rows tasks).pollsOf s.id = (sharing tasks s.getUpstreamTaskID).length := by
  rw [pollsOf_videoRound, (pollCount_le env tasks s _).2 hload hadaptor]
  have hperm := grouped_perm env.order Task.channelId (pollable tasks)
  rw [hperm.countP_eq, countP_polledAs hs, if_pos hsurvives]

/-! ### The channels a row is polled through -/

theorem mem_polls_videoRound (env : VideoEnv) (rows tasks : TaskTable) (p : Poll) :
    p ∈ (videoRound env rows tasks).polls ↔
      ∃ step ∈ videoSteps env tasks, step.poll? tasks = some p := by
  rw [videoRound, updateAllVideoTasks_eq_run, polls_run env (loaded_start rows tasks _)]
  simp [start]

variable {rows : TaskTable}

/-- **Every poll stems from a task of the list**, but polls the task that `taskM` keeps. -/
theorem poll_origin {p : Poll} (h : p ∈ (videoRound env rows tasks).polls) :
    ∃ t ∈ pollable tasks, ∃ s, taskM tasks t.getUpstreamTaskID = some s ∧
      p = ⟨t.channelId, s.id⟩ := by
  obtain ⟨step, hstep, hpoll⟩ := (mem_polls_videoRound env rows tasks p).mp h
  obtain ⟨g, hg, hstep⟩ := mem_flatMap.mp hstep
  obtain ⟨⟨c, l⟩, hgroup, rfl⟩ := mem_map.mp hg
  have hl := mem_grouped hgroup
  unfold channelSteps at hstep
  split at hstep
  · obtain rfl := mem_singleton.mp hstep
    cases hpoll
  · split at hstep
    · obtain ⟨u, hu, rfl⟩ := mem_map.mp hstep
      obtain ⟨t, ht, rfl⟩ := mem_map.mp hu
      rw [hl, mem_filter] at ht
      obtain ⟨s, hs, rfl⟩ := Option.map_eq_some_iff.mp hpoll
      refine ⟨t, ht.1, s, hs, ?_⟩
      rw [of_decide_eq_true ht.2]
    · cases hstep

variable {t : Task}

theorem poll_of_task (hload : ∀ c, env.channelError c = none) (hadaptor : env.adaptorFound = true)
    (rows : TaskTable) (ht : t ∈ pollable tasks) (hs : taskM tasks t.getUpstreamTaskID = some s) :
    (⟨t.channelId, s.id⟩ : Poll) ∈ (videoRound env rows tasks).polls := by
  rw [mem_polls_videoRound]
  refine ⟨.poll t.channelId t.getUpstreamTaskID, ?_, by rw [poll?, hs]; rfl⟩
  have hkey : t.channelId ∈ env.order.order ((pollable tasks).map Task.channelId).dedup := by
    rw [(env.order.perm _).mem_iff, mem_dedup]
    exact mem_map_of_mem ht
  refine mem_flatMap.mpr ⟨_, mem_map.mpr ⟨_, mem_map.mpr ⟨_, hkey, rfl⟩, rfl⟩, ?_⟩
  simp only [channelSteps, hload, hadaptor, if_true]
  refine mem_map_of_mem (mem_map_of_mem ?_)
  exact mem_filter.mpr ⟨ht, by simp⟩

/-! ### How often a row is refunded -/

/-- **The refunds of the row of `s` are bounded by its polls**, and one less if the task had no
quota to begin with. -/
structure Bounded (s : Task) (st : PollState) : Prop where
  task : ∃ m, st.mem.find? s.id = some m ∧ m.perCallBilling = s.perCallBilling ∧
    (s.quota = 0 → st.pollsOf s.id = 0 ∨ s.perCallBilling = true → m.quota = 0)
  refunds : (st.ledger.refundsOf s.id).length ≤ st.pollsOf s.id
  fewer : s.quota = 0 → (st.ledger.refundsOf s.id).length ≤ st.pollsOf s.id - 1
  never : s.quota = 0 → s.perCallBilling = true → st.ledger.refundsOf s.id = []

variable {m : Task} {c : Int} {st st' : PollState}

theorem Bounded.visit_self (h : Bounded s st) (hm : st.mem.find? s.id = some m) (hid : s.id = m.id)
    (hv : Visited c m st st') : Bounded s st' := by
  obtain ⟨n, hn, hper, hzero⟩ := h.task
  obtain rfl : m = n := Option.some.inj (hm.symm.trans hn)
  obtain ⟨m', hmem, hid', hper', hquota'⟩ := hv.task
  have hpolls : st'.pollsOf s.id = st.pollsOf s.id + 1 := by
    rw [hid]
    exact pollsOf_cons_self hv
  have hrefunds := hv.refunds
  rw [← hid] at hrefunds hid'
  refine ⟨⟨m', ?_, hper'.trans hper, ?_⟩, ?_, ?_, ?_⟩
  · rw [hmem]
    exact Table.find?_save hid' hn
  · rintro hs (h0 | hcall)
    · omega
    · rw [hquota' (hper.trans hcall)]
      exact hzero hs (.inr hcall)
  · rw [hpolls]
    rcases hrefunds with heq | ⟨-, a, heq⟩ <;> rw [heq]
    · have := h.refunds
      omega
    · exact Nat.succ_le_succ h.refunds
  · intro hs
    rw [hpolls]
    rcases hrefunds with heq | ⟨hquota, a, heq⟩ <;> rw [heq]
    · have := h.refunds
      omega
    · have hpolled : st.pollsOf s.id ≠ 0 := fun h0 => hquota (hzero hs (.inl h0))
      have := h.fewer hs
      rw [length_cons]
      omega
  · intro hs hcall
    rcases hrefunds with heq | ⟨hquota, -⟩
    · rw [heq]
      exact h.never hs hcall
    · exact absurd (hzero hs (.inr hcall)) hquota

theorem Bounded.of_same (h : Bounded s st) (hmem : st'.mem.find? s.id = st.mem.find? s.id)
    (hrefunds : st'.ledger.refundsOf s.id = st.ledger.refundsOf s.id)
    (hpolls : st'.pollsOf s.id = st.pollsOf s.id) : Bounded s st' where
  task := by rw [hmem, hpolls]; exact h.task
  refunds := by rw [hrefunds, hpolls]; exact h.refunds
  fewer := by rw [hrefunds, hpolls]; exact h.fewer
  never := by rw [hrefunds]; exact h.never

theorem Bounded.visit (h : Bounded s st) (hm : ∃ id, st.mem.find? id = some m)
    (hv : Visited c m st st') : Bounded s st' := by
  by_cases hid : s.id = m.id
  · -- `m` is what was in memory under the ID of `s`
    obtain ⟨id, hfind⟩ := hm
    have hkey : m.id = id := (Table.find?_eq_some.mp hfind).2
    exact h.visit_self (by rw [hid, hkey, hfind]) hid hv
  · obtain ⟨hmem, -, hrefunds, hpolls⟩ := hv.sameAt hid
    exact h.of_same hmem hrefunds hpolls

theorem bounded_videoRound (env : VideoEnv) (rows : TaskTable) (hs : s ∈ tasks) :
    Bounded s (videoRound env rows tasks) := by
  rw [videoRound, updateAllVideoTasks_eq_run]
  have hstart : Bounded s (start rows tasks ⟨[], []⟩) :=
    ⟨⟨s, Table.find?_key hs, rfl, fun h _ => h⟩, Nat.le_refl 0, fun _ => Nat.le_refl 0,
      fun _ _ => rfl⟩
  refine (run_induction (I := fun st => st.Loaded tasks ∧ Bounded s st) ?_
    ⟨loaded_start rows tasks _, hstart⟩ (videoSteps env tasks)).2
  rintro st step ⟨hloaded, hbounded⟩
  refine ⟨loaded_perform env hloaded step, ?_⟩
  rcases perform_cases env hloaded step with ⟨-, hmem, hledger, hpolls⟩ |
    ⟨c, u, t, m, -, -, hm, hvisit⟩
  · exact hbounded.of_same (by rw [hmem]) (by rw [hledger]) (by rw [pollsOf, hpolls, pollsOf])
  · rw [hvisit]
    exact hbounded.visit ⟨t.id, hm⟩ (visitTask_visited env c m st)

/-! ### A round that exposes a collision -/

def answer (r : TaskInfo) : FetchResult := .response ⟨none, .ok r, .unparsable, []⟩

def plainBilling : BillingEnv :=
  ⟨none, fun _ => "", fun _ _ => 1, fun _ _ => none⟩

/-- **The round that exposes a collision at the row of `s`**: every task failed, except that with
`settles` the first poll of the row finds success. -/
def exposing (s : Task) (settles : Bool) : VideoEnv where
  serverAddress := ""
  order := .given Int
  channelError _ := none
  adaptorFound := true
  bulkFault _ := some "not reached"
  visit id n :=
    { fetch := answer
        (if settles ∧ id = s.id ∧ n = 0 then ⟨.success, "", "", "", 0⟩ else failTaskInfo "")
      now := 0
      fault := none
      billing := plainBilling }

variable {r : TaskInfo}

theorem pollTask_answer (serverAddress : String) (now : Int) (taskId : String) (t : Task)
    (hr : r.status = .success ∨ r.status = .failure) :
    ∃ save settle refund, (pollTask serverAddress now (answer r) taskId t).action =
      .proceed r save settle refund := by
  have hempty : resolveEmptyStatus ⟨none, .ok r, .unparsable, []⟩ r = some r := by
    rw [resolveEmptyStatus, if_neg]
    rcases hr with hr | hr <;> rw [hr] <;> decide
  have happly : ∃ after, applyTaskResult serverAddress now r { t with data := [] } =
      some after := by
    unfold applyTaskResult
    rcases hr with hr | hr <;> rw [hr] <;> exact ⟨_, rfl⟩
  obtain ⟨after, happly⟩ := happly
  refine ⟨saveKind t after, after.status = .success, after.status = .failure ∧ t.quota ≠ 0, ?_⟩
  simp [pollTask, answer, VideoResponse.taskResult, hempty, pollResult, happly]

/-- The row of `t` has, in the table, the status that `t` has in memory. -/
def PollState.InStep (st : PollState) (t : Task) : Prop :=
  ∃ row, st.rows.find? t.id = some row ∧ row.status = t.status

theorem perform_terminal {after : Task} (hid : after.id = t.id) (hdone : after.status.isDone = true)
    (h : t.status = after.status ∨ st.InStep t) :
    ((saveKind t after).perform none (updateWithStatus after t.status st.rows) st.rows).1 = true ∧
      (t.status ≠ after.status →
        ((saveKind t after).perform none (updateWithStatus after t.status st.rows)
          st.rows).2.find? t.id = some after) := by
  by_cases hsame : t.status = after.status
  · refine ⟨?_, fun hne => absurd hsame hne⟩
    rw [saveKind, if_neg fun hc => hc.2 hsame]
    split <;> rfl
  · obtain ⟨row, hrow, hstatus⟩ := h.resolve_left hsame
    have hwon : updateWithStatus after t.status st.rows = (true, st.rows.save after) := by
      rw [← hstatus]
      exact updateWithStatus_won (by rw [hid]; exact hrow)
    rw [saveKind, if_pos ⟨hdone, hsame⟩, SaveKind.perform, hwon]
    exact ⟨rfl, fun _ => Table.find?_save hid hrow⟩

/-- The task in memory is **primed**: the next poll that finds it failed will refund it. -/
def Primed (id : Int) (st : PollState) : Prop :=
  ∃ m, st.mem.find? id = some m ∧ m.quota ≠ 0 ∧ (m.status = .failure ∨ st.InStep m)

section

variable (visit : VisitEnv) (c : Int) {out : PollOutcome} {save : SaveKind} {settle refund : Bool}
  (hfault : visit.fault = none) (hm : st.mem.find? m.id = some m)
  (haction : out.action = .proceed r save settle refund)
  (hpolled : Polled m out.task r save settle refund)

include hfault hm haction hpolled

theorem finishVisit_terminal (hdone : out.task.status.isDone = true)
    (hstep : m.status = out.task.status ∨ st.InStep m) :
    let st' := finishVisit visit c m out st
    let bill := billPoll visit.billing r settle refund out.task st.ledger
    st'.mem.find? m.id = some bill.1 ∧ st'.ledger = bill.2 ∧
      (m.status ≠ out.task.status → st'.rows.find? m.id = some out.task) := by
  have hid := Task.id_of_fixed hpolled.fixed
  obtain ⟨⟨q, hq⟩, -⟩ := billPoll_task visit.billing r settle refund out.task st.ledger
  obtain ⟨hwon, hrow⟩ := perform_terminal hid hdone hstep
  unfold finishVisit
  simp only [haction, hfault, hpolled.save, hwon, Bool.true_and]
  exact ⟨Table.find?_save (by rw [hq]; exact hid) hm, trivial, hrow⟩

/-- **A poll that finds a primed task failed** refunds it and leaves it primed. -/
theorem visit_failure (hfunding : visit.billing.fundingFault = none) (hquota : m.quota ≠ 0)
    (hstep : m.status = .failure ∨ st.InStep m) (hr : r.status = .failure) :
    Primed m.id (finishVisit visit c m out st) ∧
      ∃ a, (finishVisit visit c m out st).ledger.refundsOf m.id =
        a :: st.ledger.refundsOf m.id := by
  have hstatus : out.task.status = .failure := hpolled.status.trans hr
  have hq : out.task.quota ≠ 0 := Task.quota_of_fixed hpolled.fixed ▸ hquota
  have hsettle : settle = false := by rw [hpolled.settle, hstatus]; rfl
  have hrefund : refund = true := by rw [hpolled.refund]; exact decide_eq_true ⟨hstatus, hquota⟩
  obtain ⟨hmem, hledger, -⟩ := finishVisit_terminal visit c hfault hm haction hpolled
    (by rw [hstatus]; rfl) (hstatus ▸ hstep)
  rw [hsettle, hrefund] at hmem hledger
  refine ⟨⟨out.task, hmem, hq, .inl hstatus⟩, ?_⟩
  have hbook := refundsOf_refundTaskQuota visit.billing out.task st.ledger
  rw [Task.id_of_fixed hpolled.fixed, if_pos ⟨hq, hfunding⟩] at hbook
  exact ⟨_, by rw [hledger]; exact hbook⟩

/-- **A first poll that finds an unbilled task done** settles it and so primes it. -/
theorem visit_success (hbilling : visit.billing = plainBilling) (hquota : m.quota = 0)
    (hcall : m.perCallBilling = false) (hun : m.status ≠ .success) (hstep : st.InStep m)
    (hr : r.status = .success) : Primed m.id (finishVisit visit c m out st) ∧
      (finishVisit visit c m out st).ledger.refundsOf m.id = st.ledger.refundsOf m.id := by
  have hid := Task.id_of_fixed hpolled.fixed
  have hstatus : out.task.status = .success := hpolled.status.trans hr
  have hq := Task.quota_of_fixed hpolled.fixed
  have hper := Task.perCallBilling_of_fixed hpolled.fixed
  have hsettle : settle = true := by rw [hpolled.settle]; exact decide_eq_true hstatus
  have hrefund : refund = false := by rw [hpolled.refund, hstatus]; rfl
  have hbill : billPoll plainBilling r true false out.task st.ledger =
      ({ out.task with quota := 1 },
        { st.ledger with settlements := adjustment plainBilling out.task 1 ::
          st.ledger.settlements }) := by
    have hzero : out.task.quota = 0 := hq.trans hquota
    simp [billPoll, settleTaskBillingOnComplete, hper, hcall, plainBilling,
      recalculateTaskQuota, hzero]
  obtain ⟨hmem, hledger, hrow⟩ := finishVisit_terminal visit c hfault hm haction hpolled
    (by rw [hstatus]; rfl) (.inr hstep)
  rw [hbilling, hsettle, hrefund, hbill] at hmem hledger
  refine ⟨⟨_, hmem, one_ne_zero, .inr ⟨out.task, ?_, rfl⟩⟩, by rw [hledger]; rfl⟩
  rw [← hrow (by rw [hstatus]; exact hun), ← hid]

end

/-- Where the exposing round stands with the row of `s`: not polled yet, or primed and refunded by
every poll but the settling one. -/
def Exposed (s : Task) (settles : Bool) (st : PollState) : Prop :=
  (settles = true ∧ st.pollsOf s.id = 0 ∧ st.mem.find? s.id = some s ∧
      st.rows.find? s.id = some s ∧ st.ledger.refundsOf s.id = []) ∨
    Primed s.id st ∧ (st.ledger.refundsOf s.id).length + settles.toNat = st.pollsOf s.id

theorem perform_exposing_of_none (s : Task) (settles : Bool) (st : PollState) {step : VideoStep}
    (h : step.poll? tasks = none) : step.perform (exposing s settles) tasks st = st := by
  cases step with
  | failChannel c ids => rfl
  | poll c u =>
    have htask : taskM tasks u = none := by simpa [poll?] using h
    simp [perform, updateVideoSingleTask, htask]

variable {settles : Bool}

theorem Exposed.visit_of_ne (h : Exposed s settles st) (hne : s.id ≠ m.id)
    (hv : Visited c m st st') : Exposed s settles st' := by
  obtain ⟨hmem, hrow, hbook, hpolls⟩ := hv.sameAt hne
  rcases h with ⟨hs, h0, hm, hr, hl⟩ | ⟨⟨n, hn, hquota, hstep⟩, hcount⟩
  · exact .inl ⟨hs, hpolls.trans h0, hmem.trans hm, hrow.trans hr, hbook.trans hl⟩
  · refine .inr ⟨⟨n, hmem.trans hn, hquota, ?_⟩, by rw [hbook, hpolls]; exact hcount⟩
    refine hstep.imp_right ?_
    rintro ⟨row, hfind, hstatus⟩
    have hnid : n.id = s.id := (Table.find?_eq_some.mp hn).2
    exact ⟨row, by rw [hnid, hrow, ← hnid]; exact hfind, hstatus⟩

theorem visitTask_exposing {fetch : FetchResult}
    (hfetch : ((exposing s settles).visit m.id (st.pollsOf m.id)).fetch = fetch) (c : Int) :
    visitTask (exposing s settles) c m st =
      finishVisit ((exposing s settles).visit m.id (st.pollsOf m.id)) c m
        (pollTask "" 0 fetch m.getUpstreamTaskID m) st := by
  simp only [visitTask, hfetch]
  rfl

theorem visit_settles (hs : s.quota = 0 ∧ s.perCallBilling = false ∧ s.status ≠ .success)
    (hfirst : st.pollsOf s.id = 0) (hmem : st.mem.find? s.id = some s)
    (hrow : st.rows.find? s.id = some s) : Primed s.id (visitTask (exposing s true) c s st) ∧
      (visitTask (exposing s true) c s st).ledger.refundsOf s.id = st.ledger.refundsOf s.id := by
  obtain ⟨hquota, hcall, hun⟩ := hs
  have hfetch : ((exposing s true).visit s.id (st.pollsOf s.id)).fetch =
      answer ⟨.success, "", "", "", 0⟩ := by simp [exposing, hfirst]
  obtain ⟨save, settle, refund, haction⟩ :=
    pollTask_answer "" 0 s.getUpstreamTaskID s (r := ⟨.success, "", "", "", 0⟩) (.inl rfl)
  rw [visitTask_exposing hfetch]
  exact visit_success ((exposing s true).visit s.id (st.pollsOf s.id)) c
    rfl hmem haction (pollTask_proceed haction) rfl hquota hcall hun ⟨s, hrow, rfl⟩ rfl

/-- **A poll of the row of `s`** settles it if that comes first, and otherwise refunds it. -/
theorem Exposed.visit_self
    (hs : settles = true → s.quota = 0 ∧ s.perCallBilling = false ∧ s.status ≠ .success)
    (h : Exposed s settles st) (hm : st.mem.find? s.id = some m) :
    Exposed s settles (visitTask (exposing s settles) c m st) := by
  have hmid : m.id = s.id := (Table.find?_eq_some.mp hm).2
  have hpolls := pollsOf_cons_self (visitTask_visited (exposing s settles) c m st)
  rw [hmid] at hpolls
  rcases h with ⟨rfl, h0, hs', hrow, hbook⟩ | ⟨⟨n, hn, hquota, hstep⟩, hcount⟩
  · obtain rfl : m = s := Option.some.inj (hm.symm.trans hs')
    obtain ⟨hprimed, hkeep⟩ := visit_settles (c := c) (hs rfl) h0 hm hrow
    refine .inr ⟨hprimed, ?_⟩
    rw [hpolls, h0, hkeep, hbook]
    rfl
  · obtain rfl : m = n := Option.some.inj (hm.symm.trans hn)
    have hmem : st.mem.find? m.id = some m := by rw [hmid]; exact hm
    have hfetch : ((exposing s settles).visit m.id (st.pollsOf m.id)).fetch =
        answer (failTaskInfo "") := by
      have hfirst : ¬ (settles = true ∧ m.id = s.id ∧ st.pollsOf m.id = 0) := by
        rintro ⟨rfl, -, h0⟩
        rw [hmid] at h0
        rw [h0] at hcount
        simp at hcount
      simp [exposing, if_neg hfirst]
    obtain ⟨save, settle, refund, haction⟩ :=
      pollTask_answer "" 0 m.getUpstreamTaskID m (r := failTaskInfo "") (.inr rfl)
    obtain ⟨hprimed, a, hbook⟩ := visit_failure
      ((exposing s settles).visit m.id (st.pollsOf m.id)) c rfl hmem haction
      (pollTask_proceed haction) rfl hquota hstep rfl
    rw [← visitTask_exposing hfetch, hmid] at hprimed hbook
    refine .inr ⟨hprimed, ?_⟩
    rw [hpolls, hbook, length_cons]
    omega

theorem refunds_exposing (hs : s ∈ tasks) (hsurvives : Survives tasks s) (hrow : s ∈ rows)
    (hun : s.Unfinished) (hquota : s.quota = 0 ↔ settles = true)
    (hcall : settles = true → s.perCallBilling = false) :
    ((videoRound (exposing s settles) rows tasks).ledger.refundsOf s.id).length + settles.toNat =
      (sharing tasks s.getUpstreamTaskID).length := by
  have hpolls := @pollsOf_eq tasks s (exposing s settles) (fun _ => rfl) rfl rows hs hsurvives
  have hexposed : Exposed s settles (videoRound (exposing s settles) rows tasks) := by
    rw [videoRound, updateAllVideoTasks_eq_run]
    have hstart : Exposed s settles (start rows tasks ⟨[], []⟩) := by
      cases hsettles : settles with
      | true => exact .inl ⟨rfl, rfl, Table.find?_key hs, Table.find?_key hrow, rfl⟩
      | false =>
        refine .inr ⟨⟨s, Table.find?_key hs, ?_, .inr ⟨s, Table.find?_key hrow, rfl⟩⟩, rfl⟩
        intro h0
        rw [hquota.mp h0] at hsettles
        cases hsettles
    refine (run_induction (I := fun st => st.Loaded tasks ∧ Exposed s settles st) ?_
      ⟨loaded_start rows tasks _, hstart⟩ (videoSteps (exposing s settles) tasks)).2
    rintro st step ⟨hloaded, hexposed⟩
    refine ⟨loaded_perform _ hloaded step, ?_⟩
    rcases perform_cases (exposing s settles) hloaded step with ⟨hnone, -⟩ |
      ⟨c, u, t, m, -, -, hm, hvisit⟩
    · rw [perform_exposing_of_none s settles st hnone]
      exact hexposed
    · rw [hvisit]
      by_cases hid : s.id = m.id
      · have htid : m.id = t.id := (Table.find?_eq_some.mp hm).2
        refine hexposed.visit_self (fun h => ⟨hquota.mpr h, hcall h, hun.2.2⟩) ?_
        rw [hid, htid]
        exact hm
      · exact hexposed.visit_of_ne hid (visitTask_visited _ c m st)
  rcases hexposed with ⟨-, h0, -⟩ | ⟨-, hcount⟩
  · -- A task that `taskM` keeps shares its ID at least with itself, so it has been polled.
    have hpos := length_pos_of_mem hsurvives.mem_sharing
    omega
  · rw [hcount, hpolls]

/-! ### Safe rounds -/

/-- **A safe round**: every row is refunded at most once, and polled only through the channel of its
task. -/
def RoundSafe (tasks : TaskTable) (st : PollState) : Prop :=
  ∀ s ∈ tasks, (st.ledger.refundsOf s.id).length ≤ 1 ∧
    ∀ p ∈ st.polls, p.row = s.id → p.channelId = s.channelId

/-- **Safely grouped**: an upstream ID belongs to one task only, or its tasks are all in one
channel, the one that `taskM` keeps has no quota to refund, and the ID occurs at most twice or the
task is billed per call. -/
def SafelyGrouped (tasks : TaskTable) : Prop :=
  ∀ s ∈ tasks.rows, Survives tasks s →
    (sharing tasks s.getUpstreamTaskID).length ≤ 1 ∨
      (∀ t ∈ sharing tasks s.getUpstreamTaskID, t.channelId = s.channelId) ∧ s.quota = 0 ∧
        ((sharing tasks s.getUpstreamTaskID).length ≤ 2 ∨ s.perCallBilling = true)
deriving Decidable

theorem eq_of_sharing_le_one {u : String} (h : (sharing tasks u).length ≤ 1)
    (hs : s ∈ sharing tasks u) (ht : t ∈ sharing tasks u) : s = t := by
  match hl : sharing tasks u with
  | [] => rw [hl] at hs; cases hs
  | [x] =>
    rw [hl, mem_singleton] at hs ht
    rw [hs, ht]
  | x :: y :: l => rw [hl] at h; simp at h

theorem channel_of_safelyGrouped (h : SafelyGrouped tasks) (hs : s ∈ tasks) {p : Poll}
    (hp : p ∈ (videoRound env rows tasks).polls) (hrow : p.row = s.id) :
    p.channelId = s.channelId := by
  obtain ⟨t, ht, s', hs', rfl⟩ := poll_origin hp
  obtain ⟨hmem, hup, -⟩ := taskM_eq_some hs'
  obtain rfl : s' = s := Table.eq_of_key_eq hmem hs hrow
  have hsurvives : Survives tasks s' := by rw [Survives, hup]; exact hs'
  have hshare : t ∈ sharing tasks s'.getUpstreamTaskID :=
    mem_filter.mpr ⟨ht, by simp [hup]⟩
  rcases h s' hs hsurvives with hone | ⟨hchannel, -⟩
  · rw [eq_of_sharing_le_one hone hshare hsurvives.mem_sharing]
  · exact hchannel t hshare

theorem refunds_of_safelyGrouped (env : VideoEnv) (rows : TaskTable) (h : SafelyGrouped tasks)
    (hs : s ∈ tasks) : ((videoRound env rows tasks).ledger.refundsOf s.id).length ≤ 1 := by
  have hbound := bounded_videoRound env rows hs
  have hpolls := pollsOf_le env rows hs
  have hrefunds := hbound.refunds
  split at hpolls
  · rename_i hsurvives
    rcases h s hs hsurvives with hone | ⟨-, hquota, htwo | hcall⟩
    · omega
    · have hfewer := hbound.fewer hquota
      omega
    · rw [hbound.never hquota hcall]
      exact Nat.zero_le 1
  · omega

/-- **When a round is safe**, whatever the upstream answers, whatever fails and in whatever order
the channels are visited: iff the tasks are safely grouped. -/
theorem round_safe_iff (tasks : TaskTable) (hun : ∀ t ∈ tasks, t.Unfinished) :
    (∀ env rows, (∀ t ∈ tasks, t ∈ rows) → RoundSafe tasks (videoRound env rows tasks)) ↔
      SafelyGrouped tasks := by
  constructor
  · intro hsafe s hs hsurvives
    by_contra hbad
    push Not at hbad
    obtain ⟨hmany, hbad⟩ := hbad
    -- The settling round is the one to look at for a task without a quota.
    have hround := hsafe (exposing s (decide (s.quota = 0))) tasks (fun _ ht => ht) s hs
    by_cases hchannel : ∀ t ∈ sharing tasks s.getUpstreamTaskID, t.channelId = s.channelId
    · have hcall : decide (s.quota = 0) = true → s.perCallBilling = false := by
        intro h0
        have h3 := (hbad hchannel (of_decide_eq_true h0)).2
        simpa using h3
      have hcount := @refunds_exposing tasks s tasks _ hs hsurvives hs (hun s hs) (by simp) hcall
      have hone := hround.1
      by_cases hquota : s.quota = 0
      · have h3 := (hbad hchannel hquota).1
        simp only [hquota, decide_true, Bool.toNat_true] at hcount hone
        omega
      · simp only [hquota, decide_false, Bool.toNat_false] at hcount hone
        omega
    · push Not at hchannel
      obtain ⟨t, ht, hne⟩ := hchannel
      obtain ⟨htask, hup⟩ := mem_filter.mp ht
      have hpoll := @poll_of_task tasks s (exposing s (decide (s.quota = 0))) t (fun _ => rfl) rfl
        tasks htask (by rw [of_decide_eq_true hup]; exact hsurvives)
      exact hne (hround.2 _ hpoll rfl)
  · intro h env rows _ s hs
    exact ⟨refunds_of_safelyGrouped env rows h hs,
      fun p hp hrow => channel_of_safelyGrouped h hs hp hrow⟩

def videoTask (id : Int) (upstreamTaskID : String) : Task where
  id := id
  taskID := "task"
  platform := "video"
  userId := 1
  group := "default"
  channelId := 1
  quota := 10
  action := "generate"
  status := .submitted
  failReason := ""
  submitTime := 1750000000
  startTime := 0
  finishTime := 0
  progress := "10%"
  originModelName := "model"
  privateData := ⟨"", upstreamTaskID, "", "wallet", 0, 0, none⟩
  data := []

def twinTasks : TaskTable := ⟨[videoTask 1 "u", videoTask 2 "u"], by decide⟩

/-- When both polls of a shared upstream ID find a failure, the second task is refunded twice. -/
theorem not_safe_twinTasks : (∀ t ∈ twinTasks, t.Unfinished) ∧ ¬ RoundSafe twinTasks
        (videoRound (exposing (videoTask 2 "u") false) twinTasks twinTasks) := by
  constructor
  · show ∀ t ∈ twinTasks.rows, t.Unfinished
    decide
  · intro hsafe
    have honce := (hsafe (videoTask 2 "u") (mem_cons_of_mem _ (mem_singleton_self _))).1
    revert honce
    decide

def distinctTasks : TaskTable := ⟨[videoTask 1 "u", videoTask 2 "v"], by decide⟩

/-- A round over tasks with upstream IDs of their own is safe, even if both fail. -/
theorem round_safe_distinctTasks : RoundSafe distinctTasks
      (videoRound (exposing (videoTask 2 "v") false) distinctTasks distinctTasks) := by
  have hun : ∀ t ∈ distinctTasks.rows, t.Unfinished := by decide
  exact (round_safe_iff distinctTasks hun).mpr (by decide) _ distinctTasks fun _ ht => ht

end NomoApi
