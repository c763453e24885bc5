import NomoApi.Tasks.Collisions
import NomoApi.Tasks.Loop

/-! # Refunds of the tasks that the loop fails

Five paths of the polling loop write `FAILURE`. A video poll and the timeout sweep refund the task
behind a guarded write, a Suno poll before an unguarded one; the bulk updates refund nothing. A turn
reaches a row through the sweep and then through the work on its platform, each at most once, so
each is an instance of `run_once`. -/

namespace NomoApi

open List VideoStep

/-! ### What is owed to a task -/

variable (id quota : Int) (source : TaskFunding)

/-- **The quota has been returned exactly once** to the funding source. -/
def RefundedOnce (w : TaskWorld) : Prop :=
  ∃ a, w.ledger.refundsOf id = [a] ∧ a.source = source ∧ a.delta = -quota

/-- A task in status `FAILURE` has had its quota returned exactly once. -/
def FailureRefunded (s : Task) (w : TaskWorld) : Prop :=
  ∀ row, w.rows.find? s.id = some row → row.status = .failure →
    RefundedOnce s.id s.quota (taskFunding s) w

/-- **The quota is still held**: not failed, not a legacy row, and nothing was returned. -/
def QuotaHeld (w : TaskWorld) : Prop :=
  ∃ row, w.rows.find? id = some row ∧ row.quota = quota ∧ taskFunding row = source ∧
    row.status ≠ .failure ∧ legacyTaskCutoff ≤ row.submitTime ∧ w.ledger.refundsOf id = []

/-- **The row is closed**: no poller takes it up again, and if it has failed its quota was returned.
-/
def RowClosed (w : TaskWorld) : Prop :=
  ∃ row, w.rows.find? id = some row ∧ ¬ row.Unfinished ∧
    (row.status = .failure → RefundedOnce id quota source w)

def Tracked (w : TaskWorld) : Prop :=
  QuotaHeld id quota source w ∨ RowClosed id quota source w

variable {id quota : Int} {source : TaskFunding} {w w' : TaskWorld}

theorem RowClosed.same (h : RowClosed id quota source w) (hsame : SameRow id w w') :
    RowClosed id quota source w' := by
  obtain ⟨row, hfind, hun, hpaid⟩ := h
  refine ⟨row, hsame.1.trans hfind, hun, fun hf => ?_⟩
  obtain ⟨a, ha, hsrc, hdelta⟩ := hpaid hf
  exact ⟨a, hsame.2.trans ha, hsrc, hdelta⟩

theorem Tracked.same (h : Tracked id quota source w) (hsame : SameRow id w w') :
    Tracked id quota source w' := by
  rcases h with ⟨row, hfind, hq, hsrc, hst, hsub, hnone⟩ | hclosed
  · exact .inl ⟨row, hsame.1.trans hfind, hq, hsrc, hst, hsub, hsame.2.trans hnone⟩
  · exact .inr (hclosed.same hsame)

/-- **A task that a turn may refund**: unfinished, with a quota, and not a legacy row. -/
structure Refundable (t : Task) : Prop where
  unfinished : t.Unfinished
  quota : t.quota ≠ 0
  submitted : legacyTaskCutoff ≤ t.submitTime

/-- The row of `t` is as it was read, and nothing was returned for it. -/
def Untouched (t : Task) (w : TaskWorld) : Prop :=
  w.rows.find? t.id = some t ∧ w.ledger.refundsOf t.id = []

variable {t : Task}

theorem Untouched.same (h : Untouched t w) (hsame : SameRow t.id w w') : Untouched t w' :=
  ⟨hsame.1.trans h.1, hsame.2.trans h.2⟩

theorem Untouched.tracked (ht : Refundable t) (h : Untouched t w) :
    Tracked t.id t.quota (taskFunding t) w :=
  .inl ⟨t, h.1, rfl, rfl, ht.unfinished.2.1, ht.submitted, h.2⟩

variable {ledger : Ledger}

theorem closed_of_failure (after : Task) (env : BillingEnv) (hquota : t.quota ≠ 0)
    (hfunding : env.fundingFault = none) (hid : after.id = t.id) (hq : after.quota = t.quota)
    (hsrc : taskFunding after = taskFunding t) (hun : ¬ after.Unfinished)
    (hnone : ledger.refundsOf t.id = []) (hrow : w.rows.find? t.id = some after)
    (hledger : w.ledger = refundTaskQuota env after ledger) :
    RowClosed t.id t.quota (taskFunding t) w := by
  refine ⟨after, hrow, hun, fun _ => ?_⟩
  have hbook := refundsOf_refundTaskQuota env after ledger
  rw [if_pos ⟨by rw [hq]; exact hquota, hfunding⟩, hid, hnone] at hbook
  exact ⟨_, by rw [hledger]; exact hbook, hsrc, by rw [← hq]; rfl⟩

/-! ### The sweep -/

section

variable (r : LoopRound) (ht : Refundable t) (hfunding : (r.sweepBilling t.id).fundingFault = none)
  (h : Untouched t w)

include ht hfunding h

theorem sweepTask_self :
    Untouched t (sweepTask r w t) ∨ RowClosed t.id t.quota (taskFunding t) (sweepTask r w t) := by
  simp only [sweepTask]
  split
  · exact .inl h
  · right
    have hwon : updateWithStatus (timeOutTask r.taskTimeoutMinutes r.sweepClock t) t.status w.rows =
        (true, w.rows.save (timeOutTask r.taskTimeoutMinutes r.sweepClock t)) :=
      updateWithStatus_won h.1
    have hlegacy : t.isLegacy = false := decide_eq_false fun hold =>
      absurd ht.submitted (not_le.mpr hold.2)
    have hrefunds : refundsTimeOut t = true := by simp [refundsTimeOut, hlegacy, ht.quota]
    rw [hwon, hrefunds]
    exact closed_of_failure (timeOutTask r.taskTimeoutMinutes r.sweepClock t) _ ht.quota hfunding
      rfl rfl rfl (fun hun => hun.2.1 rfl) h.2 (Table.find?_save rfl h.1) rfl

theorem sweep_untouched_or_closed : Untouched t (sweepTimedOutTasks r w) ∨
      RowClosed t.id t.quota (taskFunding t) (sweepTimedOutTasks r w) := by
  unfold sweepTimedOutTasks
  split
  · exact .inl h
  · refine run_once (fun t' => decide (t'.id = t.id)) ?_ ?_ ?_ h
    · intro w' t' _ hne
      have hsame := sweepTask_of_ne r w' (of_decide_eq_false hne)
      exact ⟨fun hw => hw.same hsame, fun hw => hw.same hsame⟩
    · intro w' t' hmem hid hw
      have hrow := (mem_getTimedOutUnfinishedTasks hmem).1
      obtain rfl : t' = t := Table.eq_of_find? hrow (of_decide_eq_true hid) h.1
      exact sweepTask_self r ht hfunding hw
    · have hnodup : ((sweptTasks r w.rows).map Task.id).Nodup := nodup_ids_select ..
      have hcount := nodup_iff_count_le_one.mp hnodup t.id
      rw [count, countP_map] at hcount
      refine le_trans (le_of_eq (countP_congr fun t' _ => ?_)) hcount
      simp

end

/-! ### Video polling -/

def PollState.world (st : PollState) : TaskWorld := ⟨st.rows, st.ledger⟩

variable {after : Task}

theorem Untouched.find?_save (h : Untouched t w) (hid : after.id = t.id) :
    (w.rows.save after).find? t.id = some after :=
  Table.find?_save hid h.1

variable {rows : TaskTable}

theorem tracked_of_ne_finish (ht : Refundable t) (env : BillingEnv) {r : TaskInfo} {save : SaveKind}
    {settle refund : Bool} (h : Untouched t w) (hpolled : Polled t after r save settle refund)
    (hsave : save ≠ .finish) (hrows : rows = w.rows ∨ rows = w.rows.save after) :
    Tracked t.id t.quota (taskFunding t)
      ⟨rows, (billPoll env r (true && settle) (true && refund) after w.ledger).2⟩ := by
  obtain ⟨hs, hf⟩ := Bool.or_eq_false_iff.mp (not_owes_of_ne_finish ht.unfinished hpolled hsave)
  rw [hs, hf]
  rcases hrows with rfl | rfl
  · exact h.tracked ht
  · have hdone := isDone_of_ne_finish ht.unfinished (by rw [← hpolled.save]; exact hsave)
    exact .inl ⟨after, h.find?_save (Task.id_of_fixed hpolled.fixed),
      Task.quota_of_fixed hpolled.fixed, Task.taskFunding_of_fixed hpolled.fixed,
      (TaskStatus.isDone_eq_false.mp hdone).2,
      (Task.submitTime_of_fixed hpolled.fixed).symm ▸ ht.submitted, h.2⟩

theorem tracked_of_finish (ht : Refundable t) {env : BillingEnv} {r : TaskInfo}
    {settle refund : Bool} (h : Untouched t w) (hfunding : env.fundingFault = none)
    (hpolled : Polled t after r .finish settle refund) : Tracked t.id t.quota (taskFunding t)
      ⟨w.rows.save after, (billPoll env r (true && settle) (true && refund) after w.ledger).2⟩ := by
  have hid := Task.id_of_fixed hpolled.fixed
  have hdone := isDone_of_finish hpolled.save.symm
  by_cases hfailure : after.status = .failure
  · have hs : settle = false := by rw [hpolled.settle, hfailure]; rfl
    have hf : refund = true := by
      rw [hpolled.refund]
      exact decide_eq_true ⟨hfailure, ht.quota⟩
    rw [hs, hf]
    exact .inr (closed_of_failure after env ht.quota hfunding hid
      (Task.quota_of_fixed hpolled.fixed) (Task.taskFunding_of_fixed hpolled.fixed)
      (fun hun => hun.2.1 hfailure) h.2 (h.find?_save hid) rfl)
  · refine .inr ⟨after, h.find?_save hid, fun hun => ?_, fun hf => absurd hf hfailure⟩
    have hopen := hun.isDone
    rw [hdone] at hopen
    cases hopen

variable {st : PollState}

theorem finishVisit_tracked (ht : Refundable t) {visit : VisitEnv} (c : Int) {out : PollOutcome}
    (h : Untouched t st.world) (hfunding : visit.billing.fundingFault = none)
    (hproceed : ∀ r save settle refund, out.action = .proceed r save settle refund →
      Polled t out.task r save settle refund) :
    Tracked t.id t.quota (taskFunding t) (finishVisit visit c t out st).world := by
  unfold finishVisit
  split
  · exact h.tracked ht
  · rename_i r save settle refund haction
    have hpolled := hproceed r save settle refund haction
    have hwon : updateWithStatus out.task t.status st.rows = (true, st.rows.save out.task) :=
      updateWithStatus_won (by rw [Task.id_of_fixed hpolled.fixed]; exact h.1)
    cases hsave : save with
    | finish =>
      cases visit.fault with
      | some err =>
        -- the guarded write failed: nothing is written and nothing is billed
        exact h.tracked ht
      | none =>
        simp only [SaveKind.perform, hwon]
        exact tracked_of_finish ht h hfunding (hsave ▸ hpolled)
    | refresh =>
      have hne : save ≠ .finish := by rw [hsave]; simp
      cases visit.fault with
      | some err => exact tracked_of_ne_finish ht visit.billing h hpolled hne (.inl rfl)
      | none =>
        simp only [SaveKind.perform, hwon]
        exact tracked_of_ne_finish ht visit.billing h hpolled hne (.inr rfl)
    | skip =>
      have hne : save ≠ .finish := by rw [hsave]; simp
      exact tracked_of_ne_finish ht visit.billing h hpolled hne (.inl rfl)

/-- **The task has its upstream ID for itself** among the tasks of its platform. -/
structure Alone (tasks : TaskTable) (t : Task) : Prop where
  mem : t ∈ tasks
  upstream : t.getUpstreamTaskID ≠ ""
  unique : ∀ t' ∈ tasks, t'.getUpstreamTaskID = t.getUpstreamTaskID → t' = t

variable {tasks : TaskTable}

theorem Alone.not_null (h : Alone tasks t) : t.id ∉ nullTaskIds tasks := by
  intro hmem
  obtain ⟨t', ht', hid, hnull⟩ := mem_nullTaskIds hmem
  obtain rfl : t' = t := Table.eq_of_key_eq ht' h.mem hid
  exact h.upstream hnull

theorem Alone.upstream_eq {s : Task} (h : Alone tasks t) {u : String} (hs : taskM tasks u = some s)
    (hid : s.id = t.id) : s = t ∧ u = t.getUpstreamTaskID := by
  obtain ⟨hmem, hup, -⟩ := taskM_eq_some hs
  obtain rfl : s = t := Table.eq_of_key_eq hmem h.mem hid
  exact ⟨rfl, hup.symm⟩

theorem Alone.not_failed {order : MapOrder Int} (h : Alone tasks t) {g : Int × List String}
    (hg : g ∈ taskChannelM order tasks) (hne : g.1 ≠ t.channelId) : t.id ∉ failedIDs tasks g.2 := by
  intro hmem
  obtain ⟨u, hu, hrow⟩ := mem_filterMap.mp hmem
  obtain ⟨s, hs, hid⟩ := Option.map_eq_some_iff.mp hrow
  obtain ⟨rfl, rfl⟩ := h.upstream_eq hs hid
  obtain ⟨⟨c, l⟩, hgroup, rfl⟩ := mem_map.mp hg
  obtain ⟨t', ht', hup⟩ := mem_map.mp hu
  rw [mem_grouped hgroup, mem_filter] at ht'
  have hmem' : t' ∈ tasks := (mem_filter.mp ht'.1).1
  rw [h.unique t' hmem' hup] at ht'
  exact hne (of_decide_eq_true ht'.2).symm

theorem Alone.countP_le_one (h : Alone tasks t) (env : VideoEnv) :
    (videoSteps env tasks).countP (fun step => ((step.poll? tasks).map
      fun p => decide (p.row = t.id)).getD false) ≤ 1 := by
  have hcount := countP_videoSteps_le env h.mem
  rw [countP_filterMap] at hcount
  refine hcount.trans ?_
  split
  · have hnodup : (sharing tasks t.getUpstreamTaskID).Nodup :=
      ((Nodup.of_map Task.id tasks.nodup).filter _).filter _
    have hall : ∀ t' ∈ sharing tasks t.getUpstreamTaskID, t' = t := by
      intro t' ht'
      obtain ⟨hpoll, hup⟩ := mem_filter.mp ht'
      exact h.unique t' (mem_filter.mp hpoll).1 (of_decide_eq_true hup)
    rw [eq_replicate_of_mem hall] at hnodup
    exact nodup_replicate.mp hnodup
  · exact Nat.zero_le 1

theorem failChannel_mem_videoSteps {env : VideoEnv} {c : Int} {ids : List String}
    (h : .failChannel c ids ∈ videoSteps env tasks) :
    (c, ids) ∈ taskChannelM env.order tasks ∧ env.channelError c ≠ none := by
  obtain ⟨g, hg, hmem⟩ := mem_flatMap.mp h
  unfold channelSteps at hmem
  split at hmem
  · rename_i herr
    obtain ⟨rfl, rfl⟩ : c = g.1 ∧ ids = g.2 := by simpa using hmem
    exact ⟨hg, by rw [herr]; exact Option.some_ne_none _⟩
  · split at hmem
    · simp at hmem
    · cases hmem

theorem Alone.perform_other {env : VideoEnv} (h : Alone tasks t)
    (hchannel : env.channelError t.channelId = none) (hl : st.Loaded tasks) {step : VideoStep}
    (hstep : step ∈ videoSteps env tasks)
    (hno : ((step.poll? tasks).map fun p => decide (p.row = t.id)).getD false = false) :
    st.SameAt t.id (step.perform env tasks st) := by
  refine perform_untouched env hl ?_ ?_
  · rintro c ids rfl
    obtain ⟨hg, herr⟩ := failChannel_mem_videoSteps hstep
    refine h.not_failed hg ?_
    rintro rfl
    exact herr hchannel
  · rintro c u s rfl hs hid
    simp [poll?, hs, hid] at hno

/-- **A round tracks a task** that at most one piece of work touches, if that one tracks it. -/
theorem tracked_run {α : Type} {step : PollState → α → PollState} {steps : List α}
    {J : PollState → Prop} (touches : α → Bool) (hJ : ∀ st a, J st → J (step st a))
    (hother : ∀ st, ∀ a ∈ steps, touches a = false → J st → st.SameAt id (step st a))
    (hself : ∀ st', ∀ a ∈ steps, touches a = true → J st' → st.SameAt id st' →
      st.SameAt id (step st' a) ∨ Tracked id quota source (step st' a).world)
    (hcount : steps.countP touches ≤ 1) (h0 : J st) (h : Tracked id quota source st.world) :
    Tracked id quota source (run step st steps).world := by
  have hrun := run_once (s := st) (P := fun st' => J st' ∧ st.SameAt id st')
    (Q := fun st' => J st' ∧ Tracked id quota source st'.world) touches
    (fun st' a ha hno =>
      ⟨fun hst' => ⟨hJ st' a hst'.1, hst'.2.trans (hother st' a ha hno hst'.1)⟩, fun hst' =>
        have hsame := hother st' a ha hno hst'.1
        ⟨hJ st' a hst'.1, hst'.2.same ⟨hsame.rows, hsame.refunds⟩⟩⟩)
    (fun st' a ha hyes hst' => (hself st' a ha hyes hst'.1 hst'.2).imp (⟨hJ st' a hst'.1, ·⟩)
      (⟨hJ st' a hst'.1, ·⟩)) hcount ⟨h0, rfl, rfl, rfl, rfl⟩
  rcases hrun with ⟨-, hsame⟩ | ⟨-, htracked⟩
  · exact h.same ⟨hsame.rows, hsame.refunds⟩
  · exact htracked

/-- **Video polling** tracks a task that is alone with its upstream ID and whose channel loads. -/
theorem video_tracked (env : VideoEnv) (ht : Refundable t) (halone : Alone tasks t)
    (hchannel : env.channelError t.channelId = none)
    (hfunding : (env.visit t.id 0).billing.fundingFault = none) (h : Untouched t ⟨rows, ledger⟩) :
    Tracked t.id t.quota (taskFunding t)
      (updateAllVideoTasks env tasks (.start rows tasks ledger)).world := by
  rw [updateAllVideoTasks_eq_run]
  refine tracked_run (J := PollState.Loaded tasks) _ (fun _ step hl => loaded_perform env hl step)
    (fun _ _ hstep hno hl => halone.perform_other hchannel hl hstep hno) ?_
    (halone.countP_le_one env) (loaded_start rows tasks ledger) (h.tracked ht)
  intro st step _ hyes hl hsame
  rcases perform_cases env hl step with ⟨hnone, -⟩ | ⟨c, u, s, m, rfl, hs, hfind, hvisit⟩
  · rw [hnone] at hyes
    cases hyes
  · -- Before its poll the task is in memory as it is in the table.
    have hm : st.mem.find? t.id = some t := hsame.mem.trans (Table.find?_key halone.mem)
    have h0 : st.pollsOf t.id = 0 := hsame.polls
    have hid : s.id = t.id := by simpa [poll?, hs] using hyes
    rw [hid, hm] at hfind
    obtain rfl : t = m := Option.some.inj hfind
    rw [hvisit]
    simp only [visitTask, h0]
    exact .inr (finishVisit_tracked ht c (h.same ⟨hsame.rows, hsame.refunds⟩) hfunding
      fun _ _ _ _ haction => pollTask_proceed haction)

/-! ### Suno polling -/

def SunoStep.names (u : String) : SunoStep → Bool
  | .failChannel .. => false
  | .item v => v.item.taskID = u

/-- **The answers of a round are orderly for a task**: at most one item names it, and a failure that
it tells of is saved and refunded. -/
structure SunoOrderly (env : SunoEnv) (t : Task) : Prop where
  channel : env.channelError t.channelId = none
  once : ∀ c visits, env.fetch c = .items visits →
    visits.countP (fun v => v.item.taskID = t.getUpstreamTaskID) ≤ 1
  sole : ∀ c c' visits visits', env.fetch c = .items visits → env.fetch c' = .items visits' →
    (∃ v ∈ visits, v.item.taskID = t.getUpstreamTaskID) →
    (∃ v ∈ visits', v.item.taskID = t.getUpstreamTaskID) → c = c'
  saved : ∀ c visits, env.fetch c = .items visits → ∀ v ∈ visits,
    v.item.taskID = t.getUpstreamTaskID →
    (v.item.Fails → v.fault = none ∧ v.billing.fundingFault = none) ∧
      (v.item.submitTime = 0 ∨ legacyTaskCutoff ≤ v.item.submitTime)

variable {env : SunoEnv}

theorem mem_sunoChannelSteps {g : Int × List String} {v : SunoVisit}
    (h : .item v ∈ sunoChannelSteps env g) :
    ∃ visits, env.fetch g.1 = .items visits ∧ v ∈ visits := by
  unfold sunoChannelSteps at h
  split at h
  · simp at h
  · split at h
    · split at h
      · rename_i visits hfetch
        refine ⟨visits, hfetch, ?_⟩
        simpa using h
      · cases h
    · cases h

theorem SunoOrderly.countP_le_one (h : SunoOrderly env t) (tasks : TaskTable) :
    (sunoSteps env tasks).countP (SunoStep.names t.getUpstreamTaskID) ≤ 1 := by
  have hfst : ((taskChannelM env.order tasks).map Prod.fst).Nodup := by
    rw [taskChannelM, map_map]
    exact nodup_grouped env.order Task.channelId (pollable tasks)
  have hnames : ∀ g : Int × List String,
      0 < (sunoChannelSteps env g).countP (SunoStep.names t.getUpstreamTaskID) →
      ∃ visits, env.fetch g.1 = .items visits ∧
        ∃ v ∈ visits, v.item.taskID = t.getUpstreamTaskID := by
    intro g hpos
    obtain ⟨step, hstep, hname⟩ := countP_pos_iff.mp hpos
    cases step with
    | failChannel c ids => cases hname
    | item v =>
      obtain ⟨visits, hfetch, hv⟩ := mem_sunoChannelSteps hstep
      exact ⟨visits, hfetch, v, hv, of_decide_eq_true hname⟩
  refine countP_flatMap_le_one (Nodup.of_map Prod.fst hfst) ?_ ?_
  · intro g _
    unfold sunoChannelSteps
    split
    · exact Nat.zero_le 1
    · split
      · split
        · rename_i visits hfetch
          rw [countP_map]
          exact h.once g.1 visits hfetch
        · exact Nat.zero_le 1
      · exact Nat.zero_le 1
  · intro g hg g' hg' hpos hpos'
    obtain ⟨visits, hfetch, hv⟩ := hnames g hpos
    obtain ⟨visits', hfetch', hv'⟩ := hnames g' hpos'
    exact inj_on_of_nodup_map hfst hg hg' (h.sole _ _ _ _ hfetch hfetch' hv hv')

theorem fails_of_refunds {item : SunoItem} (h : item.refunds t = true) (ht : t.status ≠ .failure) :
    item.Fails := by
  by_contra hfails
  rw [(refunds_of_not_fails hfails ht).1] at h
  cases h

theorem saveSunoItem_tracked (ht : Refundable t) {v : SunoVisit} (h : Untouched t st.world)
    (hm : st.mem.find? t.id = some t)
    (hsaved : v.item.Fails → v.fault = none ∧ v.billing.fundingFault = none)
    (hsubmit : v.item.submitTime = 0 ∨ legacyTaskCutoff ≤ v.item.submitTime) :
    Tracked t.id t.quota (taskFunding t) (saveSunoItem v t st).world := by
  obtain ⟨-, hrow, hbook⟩ := saveSunoItem_self v hm h.1
  cases hrefunds : v.item.refunds t with
  | true =>
    have hfails := fails_of_refunds hrefunds ht.unfinished.2.1
    obtain ⟨hfault, hfunding⟩ := hsaved hfails
    rw [if_pos hfault] at hrow
    refine .inr (closed_of_failure (applySunoItem v.item t) v.billing ht.quota hfunding rfl rfl
      rfl (fun hun => hun.1 (progress_of_fails hfails t)) h.2 hrow ?_)
    simp only [PollState.world, saveSunoItem, hrefunds, if_true]
  | false =>
    rw [hrefunds, if_neg (by simp)] at hbook
    have hstatus : v.item.newStatus t ≠ .failure := (not_or.mp (of_decide_eq_false hrefunds)).2
    split at hrow
    · refine .inl ⟨applySunoItem v.item t, hrow, rfl, rfl, hstatus, ?_, hbook.trans h.2⟩
      simp only [applySunoItem]
      split
      · rename_i hne
        exact hsubmit.resolve_left hne
      · exact ht.submitted
    · exact .inl ⟨t, hrow, rfl, rfl, ht.unfinished.2.1, ht.submitted, hbook.trans h.2⟩

theorem failChannel_mem_sunoSteps {c : Int} {ids : List String}
    (h : .failChannel c ids ∈ sunoSteps env tasks) :
    (c, ids) ∈ taskChannelM env.order tasks ∧ env.channelError c ≠ none := by
  obtain ⟨g, hg, hmem⟩ := mem_flatMap.mp h
  unfold sunoChannelSteps at hmem
  split at hmem
  · rename_i herr
    obtain ⟨rfl, rfl⟩ : c = g.1 ∧ ids = g.2 := by simpa using hmem
    exact ⟨hg, by rw [herr]; exact Option.some_ne_none _⟩
  · split at hmem
    · split at hmem
      · simp at hmem
      · cases hmem
    · cases hmem

theorem Alone.sunoPerform_other (h : Alone tasks t) (hchannel : env.channelError t.channelId = none)
    (st : PollState) {step : SunoStep} (hstep : step ∈ sunoSteps env tasks)
    (hno : step.names t.getUpstreamTaskID = false) :
    st.SameAt t.id (step.perform env tasks st) := by
  refine sunoPerform_untouched env tasks st ?_ ?_
  · rintro c ids rfl
    obtain ⟨hg, herr⟩ := failChannel_mem_sunoSteps hstep
    refine h.not_failed hg ?_
    rintro rfl
    exact herr hchannel
  · rintro v s rfl hs hid
    exact of_decide_eq_false hno (h.upstream_eq hs hid).2

/-- **Suno polling** tracks a task that is alone, if the answers are orderly for it. -/
theorem suno_tracked (env : SunoEnv) (ht : Refundable t) (halone : Alone tasks t)
    (horderly : SunoOrderly env t) (h : Untouched t ⟨rows, ledger⟩) :
    Tracked t.id t.quota (taskFunding t)
      (updateAllSunoTasks env tasks (.start rows tasks ledger)).world := by
  rw [updateAllSunoTasks_eq_run]
  refine tracked_run (J := fun _ => True) _ (fun _ _ _ => trivial)
    (fun st _ hstep hno _ => halone.sunoPerform_other horderly.channel st hstep hno) ?_
    (horderly.countP_le_one tasks) trivial (h.tracked ht)
  intro st step hstep hyes _ hsame
  rcases sunoStep_cases env tasks st step with
    ⟨p, hperform⟩ | ⟨c, ids, _, _, rfl, -⟩ | ⟨v, s, m, rfl, hs, hfind, hsave⟩
  · rw [hperform]
    exact .inl ⟨hsame.mem, hsame.rows, hsame.refunds, hsame.polls⟩
  · cases hyes
  · -- The item names the upstream ID of the task, so it reaches the task.
    have hname : v.item.taskID = t.getUpstreamTaskID := of_decide_eq_true hyes
    obtain ⟨hsmem, hup, -⟩ := taskM_eq_some hs
    obtain rfl : s = t := halone.unique s hsmem (hup.trans hname)
    have hm : st.mem.find? s.id = some s := hsame.mem.trans (Table.find?_key halone.mem)
    obtain rfl : s = m := Option.some.inj (hm.symm.trans hfind)
    obtain ⟨g, -, hg⟩ := mem_flatMap.mp hstep
    obtain ⟨visits, hfetch, hv⟩ := mem_sunoChannelSteps hg
    obtain ⟨hsaved, hsubmit⟩ := horderly.saved g.1 visits hfetch v hv hname
    rw [hsave]
    exact .inr (saveSunoItem_tracked ht (h.same ⟨hsame.rows, hsame.refunds⟩) hm hsaved hsubmit)

/-! ### A turn of the loop -/

/-- **The turn is orderly for the unfinished row `t`**: the task has an upstream ID of its own, its
channel loads, and its funding source accepts a refund. -/
structure OrderlyRow (w : TaskWorld) (r : LoopRound) (t : Task) : Prop where
  upstream : t.getUpstreamTaskID ≠ ""
  unique : ∀ t' ∈ w.rows, t'.Unfinished → t'.platform = t.platform →
    t'.getUpstreamTaskID = t.getUpstreamTaskID → t' = t
  swept : (r.sweepBilling t.id).fundingFault = none
  suno : t.platform = "suno" → SunoOrderly r.suno t
  video : t.platform ≠ "mj" → t.platform ≠ "suno" →
    (r.video t.platform).channelError t.channelId = none ∧
      ((r.video t.platform).visit t.id 0).billing.fundingFault = none

/-- **The turn is orderly for the row `id`**, if it is unfinished. -/
def LoopRound.Orderly (id : Int) (w : TaskWorld) (r : LoopRound) : Prop :=
  ∀ t ∈ w.rows, t.id = id → t.Unfinished → OrderlyRow w r t

theorem mem_sweep_of_unfinished (r : LoopRound) (h : t ∈ (sweepTimedOutTasks r w).rows)
    (hun : t.Unfinished) : t ∈ w.rows := by
  unfold sweepTimedOutTasks at h
  split at h
  · exact h
  · refine run_induction (I := fun w' : TaskWorld => t ∈ w'.rows → t ∈ w.rows) ?_ (fun ht => ht)
      (sweptTasks r w.rows) h
    intro w' s hw' ht
    refine hw' ?_
    simp only [sweepTask] at ht
    split at ht
    · exact ht
    · split at ht
      · unfold updateWithStatus at ht
        split at ht
        · exact ht
        · split at ht
          · obtain ⟨t', ht', heq⟩ := Table.mem_save.mp ht
            split at heq
            · rw [← heq] at hun
              exact absurd rfl hun.2.1
            · exact heq ▸ ht'
          · exact ht
      · exact ht

variable {r : LoopRound}

section

variable (ht : Refundable t) {w₀ : TaskWorld} (horderly : OrderlyRow w₀ r t)

include ht horderly

theorem platformRound_tracked (halone : Alone tasks t) (h : Untouched t w) :
    Tracked t.id t.quota (taskFunding t) (platformRound r t.platform tasks w).world := by
  have hstart : Untouched t ⟨failNullTasks (r.nullFault t.platform) tasks w.rows, w.ledger⟩ :=
    ⟨(find?_failNullTasks_of_not halone.not_null).trans h.1, h.2⟩
  unfold platformRound dispatchPlatformUpdate
  split
  · exact hstart.tracked ht
  · rename_i hmj
    split
    · rename_i hsuno
      exact suno_tracked r.suno ht halone (horderly.suno hsuno) hstart
    · rename_i hsuno
      obtain ⟨hchannel, hfunding⟩ := horderly.video hmj hsuno
      exact video_tracked (r.video t.platform) ht halone hchannel hfunding hstart

theorem pollPlatforms_tracked {loaded : TaskTable} (hmem : t ∈ loaded)
    (hunique : ∀ t' ∈ loaded, t'.platform = t.platform →
      t'.getUpstreamTaskID = t.getUpstreamTaskID → t' = t)
    (h : Untouched t w) :
    Tracked t.id t.quota (taskFunding t) (pollPlatforms r loaded w) := by
  have hother : ∀ platform, platform ≠ t.platform →
      NotLoaded (loaded.filter fun t' => t'.platform = platform) t.id := by
    intro platform hne t' ht' hid
    obtain ⟨hmem', hplatform⟩ := Table.mem_filter.mp ht'
    obtain rfl : t' = t := Table.eq_of_key_eq hmem' hmem hid
    exact hne (of_decide_eq_true hplatform).symm
  have halone : Alone (loaded.filter fun t' => t'.platform = t.platform) t :=
    { mem := Table.mem_filter.mpr ⟨hmem, by simp⟩
      upstream := horderly.upstream
      unique := fun t' ht' hup =>
        hunique t' (Table.mem_filter.mp ht').1 (of_decide_eq_true (Table.mem_filter.mp ht').2) hup }
  have hrun : Untouched t (pollPlatforms r loaded w) ∨
      Tracked t.id t.quota (taskFunding t) (pollPlatforms r loaded w) := by
    refine run_once (P := fun acc : TaskWorld × Bool => Untouched t acc.1)
      (Q := fun acc => Tracked t.id t.quota (taskFunding t) acc.1)
      (fun platform => decide (platform = t.platform)) ?_ ?_ ?_ h
    · intro acc platform _ hno
      have hsame := pollPlatform_of_notLoaded r (hother platform (of_decide_eq_false hno)) acc
      exact ⟨fun hacc => hacc.same hsame, fun hacc => hacc.same hsame⟩
    · intro acc platform _ hyes hacc
      obtain rfl : platform = t.platform := of_decide_eq_true hyes
      unfold pollPlatform
      split
      · exact .inl hacc
      · exact .inr (platformRound_tracked ht horderly halone hacc)
    · have hnodup : (platforms r loaded).Nodup :=
        (r.order.perm _).nodup_iff.mpr (nodup_dedup _)
      have hcount := nodup_iff_count_le_one.mp hnodup t.platform
      rw [count] at hcount
      refine le_trans (le_of_eq (countP_congr fun platform _ => ?_)) hcount
      simp
  exact hrun.elim (fun hu => hu.tracked ht) id

end

/-- **A turn of the loop keeps a row tracked**, if it is orderly for it. -/
theorem tracked_loopRound (hquota : quota ≠ 0) (h : Tracked id quota source w)
    (horderly : r.Orderly id w) : Tracked id quota source (loopRound w r) := by
  have hfind : ∃ row, w.rows.find? id = some row := by
    rcases h with ⟨row, hrow, -⟩ | ⟨row, hrow, -⟩ <;> exact ⟨row, hrow⟩
  obtain ⟨t, ht⟩ := hfind
  obtain ⟨htmem, hid⟩ := Table.find?_eq_some.mp ht
  by_cases hun : t.Unfinished
  · obtain ⟨row, hrow, hq, hsrc, -, hsubmit, hnone⟩ := h.resolve_right fun ⟨row, hrow, hrun, _⟩ =>
      hrun (Option.some.inj (ht.symm.trans hrow) ▸ hun)
    obtain rfl : t = row := Option.some.inj (ht.symm.trans hrow)
    have hrow' := horderly t htmem hid hun
    subst hid hq hsrc
    have hable : Refundable t := ⟨hun, hquota, hsubmit⟩
    have hsweep := sweep_untouched_or_closed r hable hrow'.swept ⟨ht, hnone⟩
    simp only [loopRound]
    -- What is loaded after the sweep was unfinished before it.
    have hloaded : ∀ t' ∈ unfinishedTasks r.limit (sweepTimedOutTasks r w).rows,
        t' ∈ (sweepTimedOutTasks r w).rows ∧ t' ∈ w.rows ∧ t'.Unfinished := by
      intro t' ht'
      obtain ⟨hmem, hun'⟩ := mem_unfinishedTasks ht'
      exact ⟨hmem, mem_sweep_of_unfinished r hmem hun', hun'⟩
    by_cases hin : t ∈ unfinishedTasks r.limit (sweepTimedOutTasks r w).rows
    · rcases hsweep with hu | ⟨row, hrow, hclosed, -⟩
      · refine pollPlatforms_tracked hable hrow' hin ?_ hu
        intro t' ht' hplatform hup
        obtain ⟨-, hmem, hun'⟩ := hloaded t' ht'
        exact hrow'.unique t' hmem hun' hplatform hup
      · have hfind := Table.find?_key (hloaded t hin).1
        exact absurd hun (Option.some.inj (hfind.symm.trans hrow) ▸ hclosed)
    · have hnot : NotLoaded (unfinishedTasks r.limit (sweepTimedOutTasks r w).rows) t.id := by
        intro t' ht' heq
        exact hin (Table.eq_of_key_eq (hloaded t' ht').2.1 htmem heq ▸ ht')
      have hsame := pollPlatforms_of_notLoaded r hnot (sweepTimedOutTasks r w)
      rcases hsweep with hu | hclosed
      · exact (hu.same hsame).tracked hable
      · exact .inr (hclosed.same hsame)
  · have hne : ∀ t' ∈ w.rows, t'.Unfinished → t'.id ≠ id := by
      intro t' ht' hun' heq
      exact hun (Table.eq_of_key_eq ht' htmem (heq.trans hid.symm) ▸ hun')
    have hsweep : SameRow id w (sweepTimedOutTasks r w) := by
      refine sweepTimedOutTasks_of_not r fun t' ht' => ?_
      obtain ⟨hmem, hun'⟩ := mem_getTimedOutUnfinishedTasks ht'
      exact hne t' hmem hun'
    have hnot : NotLoaded (unfinishedTasks r.limit (sweepTimedOutTasks r w).rows) id := by
      intro t' ht'
      obtain ⟨hmem, hun'⟩ := mem_unfinishedTasks ht'
      exact hne t' (mem_sweep_of_unfinished r hmem hun') hun'
    exact h.same (hsweep.trans (pollPlatforms_of_notLoaded r hnot _))

/-- **Every task that the loop fails is refunded exactly once**, in every run whose turns are
orderly for it. -/
theorem failures_refunded_once {w : TaskWorld} {s : Task} (hs : s ∈ w.rows) (hquota : 0 < s.quota)
    (hsubmit : legacyTaskCutoff ≤ s.submitTime) (hstatus : s.status ≠ .failure)
    (hnone : w.ledger.refundsOf s.id = []) {rs : List LoopRound}
    (horderly : AllSteps (fun w r => r.Orderly s.id w) loopRound w rs) :
    Always (FailureRefunded s) loopRound w rs := by
  have hstart : Tracked s.id s.quota (taskFunding s) w :=
    .inl ⟨s, Table.find?_key hs, rfl, rfl, hstatus, hsubmit, hnone⟩
  have halways : Always (Tracked s.id s.quota (taskFunding s)) loopRound w rs :=
    always_of_allSteps (I := Tracked s.id s.quota (taskFunding s))
      (fun _ _ h hr => tracked_loopRound (ne_of_gt hquota) h hr) hstart horderly
  refine halways.mono ?_
  rintro w (⟨row, hrow, -, -, hst, -⟩ | ⟨row, hrow, -, hpaid⟩) row' hrow' hfailure
  · exact absurd hfailure (Option.some.inj (hrow'.symm.trans hrow) ▸ hst)
  · exact hpaid (Option.some.inj (hrow'.symm.trans hrow) ▸ hfailure)

def videoWorld : TaskWorld := ⟨.singleton (videoTask 1 "u"), ⟨[], []⟩⟩

def videoTurn (env : VideoEnv) : LoopRound where
  taskTimeoutMinutes := 0
  cutoffClock := 0
  sweepClock := 0
  sweepFault _ := none
  sweepBilling _ := plainBilling
  limit := 100
  order := .given String
  nullFault _ := none
  suno := (sunoAnswer []).env
  video _ := env

def lostChannels : VideoEnv :=
  { exposing (videoTask 1 "u") false with
    channelError := fun _ => some "record not found"
    bulkFault := fun _ => none }

/-- When its channel can no longer be loaded, a task with a quota is set to `FAILURE` and nothing is
returned. -/
theorem not_refunded_lostChannels :
    0 < (videoTask 1 "u").quota ∧ legacyTaskCutoff ≤ (videoTask 1 "u").submitTime ∧
      ¬ FailureRefunded (videoTask 1 "u") (run loopRound videoWorld [videoTurn lostChannels]) := by
  refine ⟨by decide, by decide, fun h => ?_⟩
  have hfind : (run loopRound videoWorld [videoTurn lostChannels]).rows.find? 1 =
      some ((videoTask 1 "u").bulkFail
        (some s!"Failed to get channel info, channel ID: {(1 : Int)}")) := rfl
  obtain ⟨a, ha, -⟩ := h _ hfind rfl
  have hnone : (run loopRound videoWorld [videoTurn lostChannels]).ledger.refundsOf 1 = [] := rfl
  rw [show (videoTask 1 "u").id = 1 from rfl, hnone] at ha
  cases ha

/-- A task that its upstream reports as failed is refunded once. -/
theorem failures_refunded_videoWorld :
    Always (FailureRefunded (videoTask 1 "u")) loopRound videoWorld
      [videoTurn (exposing (videoTask 1 "u") false)] := by
  refine failures_refunded_once (mem_singleton_self (videoTask 1 "u")) (by decide) (by decide)
    (by decide) rfl ⟨?_, trivial⟩
  intro t ht _ _
  obtain rfl : t = videoTask 1 "u" := mem_singleton.mp ht
  exact
    { upstream := by decide
      unique := fun t' ht' _ _ _ => mem_singleton.mp ht'
      swept := rfl
      suno := fun h => absurd h (by decide)
      video := fun _ _ => ⟨rfl, rfl⟩ }

end NomoApi
