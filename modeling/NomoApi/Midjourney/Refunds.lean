import NomoApi.Midjourney.Poll

/-! # Which Midjourney tasks are refunded

A task that ends with `FAILURE` should have its quota returned once, every other task never. The
loop writes `FAILURE` in three places and returns the quota in one of them only; there it asks for
the progress and the reason of the item and not for its status. -/

namespace NomoApi

open MjState Table MjStep

/-- The row **ended in failure**: `100%` and `FAILURE`. -/
def Midjourney.EndedInFailure (t : Midjourney) : Prop := t.progress = "100%" ∧ t.status = "FAILURE"
deriving Decidable

def Midjourney.Pending (t : Midjourney) : Prop := t.progress ≠ "100%" ∧ 0 < t.quota
deriving Decidable

def MjState.refundsOf (st : MjState) (id : Int) : List MjRefund :=
  st.refunds.filter fun r => r.taskId = id

/-- **The refunds of a task are right**: the quota once if its row ended in failure, else nothing.
-/
def MjRefundedOnce (t : Midjourney) (st : MjState) : Prop :=
  ∃ row ∈ st.rows.find? t.id,
    st.refundsOf t.id = if row.EndedInFailure then [t.refund] else []
deriving Decidable

/-- **The loop has been fair**: the refunds are right, and no answer made it look up a task that the
channel was not asked for. -/
structure MjFair (initial : MjTable) (st : MjState) : Prop where
  refunded : ∀ t ∈ initial, t.Pending → MjRefundedOnce t st
  asked : st.strays = []

instance (initial : MjTable) (st : MjState) : Decidable (MjFair initial st) :=
  decidable_of_iff ((∀ t ∈ initial.rows, t.Pending → MjRefundedOnce t st) ∧ st.strays = [])
    ⟨fun h => ⟨h.1, h.2⟩, fun h => ⟨h.refunded, h.asked⟩⟩

/-! ### Sound pieces of work -/

/-- **A bulk update is sound** if its rows have ended in failure before. -/
def BulkSound (initial : MjTable) (p : Midjourney → Bool) (st : MjState) : Prop :=
  ∀ t ∈ initial, t.Pending → ∀ row ∈ st.rows.find? t.id, p row = true → row.EndedInFailure

/-- **An item writes the row**: the statement succeeds, and the row has the status of the task in
memory. -/
def MjVisit.Wins (v : MjVisit) (m row : Midjourney) : Prop :=
  v.updateFault = none ∧ row.status = m.status

/-- **What an item may write** over a row, after the timeout. -/
def MjVisit.ReturnsOnce (v : MjVisit) (item : MidjourneyDto) (m row : Midjourney) : Prop :=
  if shouldReturnQuota item m then
    if v.increaseFault = none then item.status = "FAILURE" ∧ ¬ row.EndedInFailure
    -- nothing reaches the user, so the row may only stay what it is
    else (item.status = "FAILURE" ↔ row.EndedInFailure)
  else ¬ row.EndedInFailure

/-- **An item is sound** for the task `m`: if it writes the row of a task that was paid for, it
writes what it may. -/
def MjVisit.Sound (v : MjVisit) (initial : MjTable) (m : Midjourney) (st : MjState) : Prop :=
  checkMjTaskNeedUpdate m (v.item.checkTime v.now m) = true →
    ∀ t ∈ initial, t.Pending → m.id = t.id → ∀ row ∈ st.rows.find? t.id, v.Wins m row →
      v.ReturnsOnce (v.item.checkTime v.now m) m row

/-- **A piece of work is sound** in the state in which it is done. -/
def MjStep.Sound (initial : MjTable) (st : MjState) (s : MjStep) : Prop :=
  st.panicked = false →
    match s with
    | .load _ => True
    | .crash => True
    | .failNull fault => fault = none →
        BulkSound initial (fun t => t.id ∈ nullMjTaskIds st.mem) st
    | .failChannel _ taskIds fault => fault = none →
        BulkSound initial (fun t => t.mjId ∈ taskIds) st
    | .item channelId v => v.item.mjId ∈ mjTaskIds st.mem channelId ∧
        ∀ m ∈ mjTaskM st.mem v.item.mjId, v.Sound initial m st

/-! ### One row -/

variable {t row : Midjourney} {st : MjState}

theorem mjRefundedOnce_iff (hrow : st.rows.find? t.id = some row) :
    MjRefundedOnce t st ↔ st.refundsOf t.id = if row.EndedInFailure then [t.refund] else [] := by
  simp [MjRefundedOnce, hrow]

variable {st' : MjState}

/-- **What a write may do**: a refund is paid iff the row ends in failure only now. -/
theorem mjRefundedOnce_written_iff {after : Midjourney} (paid : Bool) (h : MjRefundedOnce t st)
    (hrow : st.rows.find? t.id = some row) (hafter : st'.rows.find? t.id = some after)
    (hrefunds : st'.refundsOf t.id =
      if paid then t.refund :: st.refundsOf t.id else st.refundsOf t.id) : MjRefundedOnce t st' ↔
      if paid then after.EndedInFailure ∧ ¬ row.EndedInFailure
      else (after.EndedInFailure ↔ row.EndedInFailure) := by
  rw [mjRefundedOnce_iff hrow] at h
  rw [mjRefundedOnce_iff hafter, hrefunds, h]
  by_cases hr : row.EndedInFailure <;> by_cases ha : after.EndedInFailure <;> cases paid <;>
    simp [hr, ha]

theorem MjRefundedOnce.exists_row (h : MjRefundedOnce t st) :
    ∃ row, st.rows.find? t.id = some row := by
  obtain ⟨row, hrow, -⟩ := h
  exact ⟨row, hrow⟩

/-! ### Bulk updates -/

variable {initial : MjTable}

theorem mjFair_bulk_iff (h : MjFair initial st) (p : Midjourney → Bool) (reason : Option String) :
    MjFair initial { st with rows := mjBulkUpdateWhere p reason st.rows } ↔
      BulkSound initial p st := by
  have hone : ∀ t ∈ initial, t.Pending →
      (MjRefundedOnce t { st with rows := mjBulkUpdateWhere p reason st.rows } ↔
        ∀ row ∈ st.rows.find? t.id, p row = true → row.EndedInFailure) := by
    intro t ht hpend
    obtain ⟨row, hrow⟩ := (h.refunded t ht hpend).exists_row
    have hafter : (mjBulkUpdateWhere p reason st.rows).find? t.id =
        some (if p row then row.bulkFail reason else row) := by
      rw [mjBulkUpdateWhere, find?_updateWhere, hrow]
      rfl
    have hiff : MjRefundedOnce t { st with rows := mjBulkUpdateWhere p reason st.rows } ↔ _ :=
      mjRefundedOnce_written_iff false (h.refunded t ht hpend) hrow hafter rfl
    rw [hiff, hrow]
    have hended : (row.bulkFail reason).EndedInFailure := ⟨rfl, rfl⟩
    cases hp : p row <;> simp [hp, hended]
  constructor
  · intro hfair t ht hpend
    exact (hone t ht hpend).mp (hfair.refunded t ht hpend)
  · intro hsound
    exact ⟨fun t ht hpend => (hone t ht hpend).mpr (hsound t ht hpend), h.asked⟩

/-! ### Items -/

theorem Midjourney.updated_endedInFailure (m : Midjourney) (item : MidjourneyDto) :
    (m.updated item).EndedInFailure ↔ item.buildFailed = true ∧ item.status = "FAILURE" := by
  have hprogress : (m.updated item).progress =
      if item.buildFailed then "100%" else item.progress := rfl
  have hstatus : (m.updated item).status = item.status := rfl
  rw [Midjourney.EndedInFailure, hprogress, hstatus]
  cases hfailed : item.buildFailed with
  | true => simp
  | false =>
    rw [MidjourneyDto.buildFailed, decide_eq_false_iff_not, not_or] at hfailed
    simp only [Bool.false_eq_true, if_false, false_and, iff_false]
    exact hfailed.2

/-- **The state after a write that takes effect.** -/
def MjState.written (v : MjVisit) (item : MidjourneyDto) (m : Midjourney) (st : MjState) :
    MjState :=
  let after := m.updated item
  let saved := { st with mem := st.mem.save after, rows := st.rows.save after }
  if shouldReturnQuota item m then saved.increaseUserQuota v.increaseFault after else saved

section

variable (v : MjVisit) (item : MidjourneyDto) (m : Midjourney) (st : MjState)

/-- **What an item does**: only the task in memory changes, or the write takes effect. -/
theorem saveMjItem_cases : ((∀ row, st.rows.find? m.id = some row → ¬ v.Wins m row) ∧
        saveMjItem v item m st = { st with mem := st.mem.save (m.updated item) }) ∨
      ∃ row, st.rows.find? m.id = some row ∧ v.Wins m row ∧
        saveMjItem v item m st = st.written v item m := by
  unfold saveMjItem
  cases hfault : v.updateFault with
  | some err =>
    refine .inl ⟨fun row _ hwins => ?_, rfl⟩
    rw [MjVisit.Wins, hfault] at hwins
    cases hwins.1
  | none =>
    obtain ⟨hlost, heq⟩ | ⟨row, hrow, hstatus, heq⟩ :=
      (m.updated item).updateWithStatus_cases m.status st.rows
    · refine .inl ⟨fun row hrow hwins => hlost row hrow hwins.2, ?_⟩
      simp [heq]
    · refine .inr ⟨row, hrow, ⟨hfault, hstatus⟩, ?_⟩
      simp [heq, written]

theorem MjState.written_same : (st.written v item m).rows = st.rows.save (m.updated item) ∧
      (st.written v item m).mem = st.mem.save (m.updated item) ∧
      (st.written v item m).strays = st.strays := by
  unfold written increaseUserQuota
  dsimp only
  split
  · split <;> exact ⟨rfl, rfl, rfl⟩
  · exact ⟨rfl, rfl, rfl⟩

end

variable {m : Midjourney}

theorem MjState.refundsOf_written_of_ne {id : Int} (h : id ≠ m.id) (v : MjVisit)
    (item : MidjourneyDto) (st : MjState) :
    (st.written v item m).refundsOf id = st.refundsOf id := by
  unfold written increaseUserQuota
  dsimp only
  split
  · split
    · rfl
    · exact List.filter_cons_of_neg (decide_eq_true_iff.not.mpr h.symm)
  · rfl

theorem MjState.refundsOf_written (hm : 0 < m.quota) (v : MjVisit) (item : MidjourneyDto)
    (st : MjState) : (st.written v item m).refundsOf m.id =
      if item.buildFailed = true ∧ v.increaseFault = none then m.refund :: st.refundsOf m.id
      else st.refundsOf m.id := by
  have hreturn : shouldReturnQuota item m = item.buildFailed := by
    have hne : m.quota ≠ 0 := by omega
    simp [shouldReturnQuota, hne]
  unfold written increaseUserQuota
  rw [hreturn]
  dsimp only
  split
  · rename_i hfailed
    by_cases hfault : v.increaseFault = none
    · have hgo : ¬ ((m.updated item).quota < 0 ∨ v.increaseFault ≠ none) := by
        rintro (hneg | hno)
        · exact absurd hneg (Int.not_lt.mpr (Int.le_of_lt hm))
        · exact hno hfault
      rw [if_neg hgo, if_pos ⟨hfailed, hfault⟩]
      exact List.filter_cons_of_pos (by simp [Midjourney.refund])
    · rw [if_pos (.inr hfault), if_neg fun h => hfault h.2]
      rfl
  · rename_i hfailed
    rw [if_neg fun h => hfailed h.1]
    rfl

theorem saveMjItem_of_ne {id : Int} (h : id ≠ m.id) (v : MjVisit) (item : MidjourneyDto)
    (st : MjState) : (saveMjItem v item m st).rows.find? id = st.rows.find? id ∧
      (saveMjItem v item m st).refundsOf id = st.refundsOf id := by
  obtain ⟨-, heq⟩ | ⟨row, -, -, heq⟩ := saveMjItem_cases v item m st
  · rw [heq]
    exact ⟨rfl, rfl⟩
  · rw [heq, (written_same v item m st).1]
    exact ⟨find?_save_of_ne h, refundsOf_written_of_ne h v item st⟩

theorem saveMjItem_strays_mem (v : MjVisit) (item : MidjourneyDto) (m : Midjourney) (st : MjState) :
    (saveMjItem v item m st).strays = st.strays ∧
      (saveMjItem v item m st).mem = st.mem.save (m.updated item) := by
  obtain ⟨-, heq⟩ | ⟨row, -, -, heq⟩ := saveMjItem_cases v item m st
  · rw [heq]
    exact ⟨rfl, rfl⟩
  · obtain ⟨-, hmem, hstrays⟩ := written_same v item m st
    rw [heq]
    exact ⟨hstrays, hmem⟩

theorem MjVisit.returnsOnce_iff (hm : 0 < m.quota) (v : MjVisit) (item : MidjourneyDto)
    (row : Midjourney) : v.ReturnsOnce item m row ↔
      if item.buildFailed = true ∧ v.increaseFault = none then
        (m.updated item).EndedInFailure ∧ ¬ row.EndedInFailure
      else ((m.updated item).EndedInFailure ↔ row.EndedInFailure) := by
  have hne : m.quota ≠ 0 := by omega
  rw [MjVisit.ReturnsOnce, Midjourney.updated_endedInFailure]
  by_cases hfailed : item.buildFailed = true
  · by_cases hfault : v.increaseFault = none <;> simp [shouldReturnQuota, hne, hfailed, hfault]
  · simp [shouldReturnQuota, hfailed]

/-- **The row that an item reaches** is refunded rightly iff the item writes what it may. -/
theorem mjRefundedOnce_saveMjItem_iff (h : MjRefundedOnce t st) (hpend : t.Pending)
    (howner : m.refund = t.refund) (hrow : st.rows.find? t.id = some row) (v : MjVisit)
    (item : MidjourneyDto) :
    MjRefundedOnce t (saveMjItem v item m st) ↔ (v.Wins m row → v.ReturnsOnce item m row) := by
  have hid : m.id = t.id := congrArg MjRefund.taskId howner
  have hquota : m.quota = t.quota := congrArg MjRefund.quota howner
  have hpos : 0 < m.quota := hquota ▸ hpend.2
  obtain ⟨hlost, heq⟩ | ⟨row', hrow', hwins, heq⟩ := saveMjItem_cases v item m st
  · rw [heq]
    have hno : ¬ v.Wins m row := hlost row (hid ▸ hrow)
    exact iff_of_true h fun hwins => absurd hwins hno
  · have hsame : row' = row := by
      rw [hid, hrow] at hrow'
      exact (Option.some.inj hrow').symm
    subst hsame
    have hafter : (st.written v item m).rows.find? t.id = some (m.updated item) := by
      rw [(written_same v item m st).1]
      exact find?_save (a := m.updated item) hid hrow
    have hrefunds := refundsOf_written hpos v item st
    rw [hid, howner] at hrefunds
    rw [heq, imp_iff_right hwins, MjVisit.returnsOnce_iff hpos,
      mjRefundedOnce_written_iff (decide (item.buildFailed = true ∧ v.increaseFault = none)) h hrow
        hafter (by simpa using hrefunds)]
    simp

def OwnersKept (initial : MjTable) (st : MjState) : Prop :=
  ∀ m, m ∈ st.mem ∨ m ∈ st.rows → ∀ t ∈ initial, m.id = t.id → m.refund = t.refund

section

variable (howners : OwnersKept initial st) (h : MjFair initial st)

include howners h

/-- **An item that changes a task** keeps the refunds right iff it is sound. -/
theorem mjFair_saveMjItem_iff (hm : m ∈ st.mem) (v : MjVisit) (item : MidjourneyDto) :
    MjFair initial (saveMjItem v item m st) ↔
      ∀ t ∈ initial, t.Pending → m.id = t.id → ∀ row ∈ st.rows.find? t.id, v.Wins m row →
        v.ReturnsOnce item m row := by
  constructor
  · intro hfair t ht hpend hid row hrow
    exact (mjRefundedOnce_saveMjItem_iff (h.refunded t ht hpend) hpend
      (howners m (.inl hm) t ht hid) hrow v item).mp (hfair.refunded t ht hpend)
  · intro hsound
    refine ⟨fun t ht hpend => ?_, (saveMjItem_strays_mem v item m st).1.trans h.asked⟩
    by_cases hid : m.id = t.id
    · obtain ⟨row, hrow⟩ := (h.refunded t ht hpend).exists_row
      exact (mjRefundedOnce_saveMjItem_iff (h.refunded t ht hpend) hpend
        (howners m (.inl hm) t ht hid) hrow v item).mpr (hsound t ht hpend hid row hrow)
    · obtain ⟨hrow, hrefunds⟩ := saveMjItem_of_ne (fun heq => hid heq.symm) v item st
      rw [MjRefundedOnce, hrow, hrefunds]
      exact h.refunded t ht hpend

theorem mjFair_updateMjItem_iff (channelId : Int) (v : MjVisit) :
    MjFair initial (updateMjItem channelId st v) ↔ v.item.mjId ∈ mjTaskIds st.mem channelId ∧
        ∀ m ∈ mjTaskM st.mem v.item.mjId, v.Sound initial m st := by
  unfold updateMjItem
  by_cases hasked : v.item.mjId ∈ mjTaskIds st.mem channelId
  · simp only [if_pos hasked]
    rw [and_iff_right hasked]
    cases hm : mjTaskM st.mem v.item.mjId with
    | none => exact iff_of_true ⟨h.refunded, h.asked⟩ fun m hm => by cases hm
    | some m =>
      have hmem : m ∈ st.mem := (mjTaskM_eq_some hm).1
      simp only [Option.mem_def, Option.some.injEq, forall_eq', MjVisit.Sound]
      cases hneed : checkMjTaskNeedUpdate m (v.item.checkTime v.now m) with
      | false => exact iff_of_true h fun hn => by cases hn
      | true =>
        rw [if_pos rfl, imp_iff_right rfl]
        exact mjFair_saveMjItem_iff howners h hmem v _
  · -- a stray lookup is on the record, whatever comes of it
    refine iff_of_false (fun hfair => ?_) fun hsound => hasked hsound.1
    have hstrays := hfair.asked
    simp only [if_neg hasked] at hstrays
    split at hstrays
    · cases hstrays
    · split at hstrays
      · rw [(saveMjItem_strays_mem ..).1] at hstrays
        cases hstrays
      · cases hstrays

theorem mjFair_perform_iff (s : MjStep) : MjFair initial (s.perform st) ↔ s.Sound initial st := by
  cases hp : st.panicked with
  | true =>
    rw [perform_of_panicked hp]
    exact iff_of_true h fun hno => by rw [hp] at hno; cases hno
  | false =>
    rw [perform_of_not_panicked hp]
    refine Iff.trans ?_ (imp_iff_right hp).symm
    cases s with
    | load e => exact iff_of_true ⟨h.refunded, h.asked⟩ trivial
    | crash => exact iff_of_true ⟨h.refunded, h.asked⟩ trivial
    | failNull fault =>
      cases fault with
      | some err => exact iff_of_true h fun hno => by cases hno
      | none => exact (mjFair_bulk_iff h _ _).trans (imp_iff_right rfl).symm
    | failChannel channelId taskIds fault =>
      cases fault with
      | some err => exact iff_of_true h fun hno => by cases hno
      | none => exact (mjFair_bulk_iff h _ _).trans (imp_iff_right rfl).symm
    | item channelId v => exact mjFair_updateMjItem_iff howners h channelId v

end

/-! ### Owners -/

variable {rows : MjTable}

theorem mem_mjBulkUpdateWhere {p : Midjourney → Bool} {reason : Option String}
    (h : m ∈ mjBulkUpdateWhere p reason rows) :
    ∃ row ∈ rows, m.id = row.id ∧ m.refund = row.refund := by
  obtain ⟨row, hrow, rfl⟩ := mem_updateWhere.mp h
  refine ⟨row, hrow, ?_⟩
  split <;> exact ⟨rfl, rfl⟩

theorem OwnersKept.bulk (h : OwnersKept initial st) (p : Midjourney → Bool)
    (reason : Option String) :
    OwnersKept initial { st with rows := mjBulkUpdateWhere p reason st.rows } := by
  rintro m (hm | hm) t ht hid
  · exact h m (.inl hm) t ht hid
  · obtain ⟨row, hrow, hrowid, hrefund⟩ := mem_mjBulkUpdateWhere hm
    rw [hrefund]
    exact h row (.inr hrow) t ht (hrowid ▸ hid)

theorem OwnersKept.saveMjItem (h : OwnersKept initial st) (hm : m ∈ st.mem) (v : MjVisit)
    (item : MidjourneyDto) : OwnersKept initial (saveMjItem v item m st) := by
  have hsave : ∀ {table : MjTable}, (∀ x ∈ table, ∀ t ∈ initial, x.id = t.id →
      x.refund = t.refund) → ∀ x ∈ table.save (m.updated item), ∀ t ∈ initial, x.id = t.id →
      x.refund = t.refund := by
    intro table htable x hx t ht hid
    obtain ⟨y, hy, hyx⟩ := mem_save.mp hx
    split at hyx
    · rw [← hyx] at hid ⊢
      exact h m (.inl hm) t ht hid
    · exact htable x (hyx ▸ hy) t ht hid
  have hmem := hsave fun x hx => h x (.inl hx)
  have hrows := hsave fun x hx => h x (.inr hx)
  rintro x (hx | hx)
  · rw [(saveMjItem_strays_mem v item m st).2] at hx
    exact hmem x hx
  · obtain ⟨-, heq⟩ | ⟨row, -, -, heq⟩ := saveMjItem_cases v item m st
    · rw [heq] at hx
      exact h x (.inr hx)
    · rw [heq, (written_same v item m st).1] at hx
      exact hrows x hx

theorem OwnersKept.perform (h : OwnersKept initial st) (s : MjStep) :
    OwnersKept initial (s.perform st) := by
  cases hp : st.panicked with
  | true =>
    rw [perform_of_panicked hp]
    exact h
  | false =>
    rw [perform_of_not_panicked hp]
    cases s with
    | load e =>
      rintro m (hm | hm)
      · exact h m (.inr (mem_getAllUnFinishTasks hm).1)
      · exact h m (.inr hm)
    | crash => exact h
    | failNull fault =>
      cases fault with
      | some err => exact h
      | none => exact h.bulk _ _
    | failChannel channelId taskIds fault =>
      cases fault with
      | some err => exact h
      | none => exact h.bulk _ _
    | item channelId v =>
      have hlooked : OwnersKept initial (if v.item.mjId ∈ mjTaskIds st.mem channelId then st
          else { st with strays := (channelId, v.item.mjId) :: st.strays }) := by
        split <;> exact h
      have hheld : (if v.item.mjId ∈ mjTaskIds st.mem channelId then st
          else { st with strays := (channelId, v.item.mjId) :: st.strays }).mem = st.mem := by
        split <;> rfl
      simp only [act, updateMjItem]
      split
      · exact hlooked
      · rename_i m hm
        split
        · exact hlooked.saveMjItem (by rw [hheld]; exact (mjTaskM_eq_some hm).1) v _
        · exact hlooked

/-! ### Whole histories -/

theorem mjFair_start (rows : MjTable) : MjFair rows (.start rows) := by
  refine ⟨fun t ht hpend => ⟨t, find?_key ht, ?_⟩, rfl⟩
  rw [if_neg fun hended => hpend.1 hended.1]
  rfl

theorem ownersKept_start (rows : MjTable) : OwnersKept rows (.start rows) := by
  rintro m (hm | hm) t ht hid
  · cases hm
  · rw [eq_of_key_eq hm ht hid]

/-- **The refunds of Midjourney tasks are right**, over any number of rounds, iff every piece of
work is sound in the state in which it is done. -/
theorem mjFair_iff_sound (rows : MjTable) (rounds : List MjRound) :
    Always (MjFair rows) perform (.start rows) (pollingSteps (.start rows) rounds) ↔
      AllSteps (fun st s => s.Sound rows st) perform (.start rows)
        (pollingSteps (.start rows) rounds) :=
  always_iff_allSteps (I := OwnersKept rows) (A := fun _ _ => True)
    (fun _ s howners hfair _ => mjFair_perform_iff howners hfair s)
    (fun _ s howners _ _ _ => howners.perform s) (ownersKept_start rows) (mjFair_start rows)
    (allSteps_of_forall (fun _ _ => trivial) _ _)

def mjSample (mjId : String) : Midjourney :=
  { id := 7, code := 1, userId := 3, mjId, promptEn := "", state := "", submitTime := 0,
    startTime := 0, finishTime := 0, imageUrl := "", videoUrl := "", videoUrls := "",
    status := "IN_PROGRESS", progress := "50%", failReason := "", channelId := 1, quota := 100,
    buttons := "", properties := "" }

def mjSampleRound (fetch : MjFetch) : MjRound :=
  ⟨none, .given _, none, .given _, fun _ => fetch⟩

def mjSampleVisit (mjId status failReason : String) : MjVisit :=
  { item :=
      { mjId, promptEn := "", state := "", submitTime := 0, startTime := 0, finishTime := 0,
        imageUrl := "", videoUrl := "", videoUrls := none, status, progress := "60%", failReason,
        buttons := none, properties := none }
    now := 1000, updateFault := none, increaseFault := none }

def mjSampleRun (mjId : String) (fetch : MjFetch) : MjState :=
  updateMidjourneyTasks (.start (.singleton (mjSample mjId))) (mjSampleRound fetch)

/-- **Five ways to be unfair** in one round: no upstream ID, no channel, a reason without `FAILURE`,
a repeated item, an ID that nobody asked for. -/
theorem mjRounds_unfair : ¬ MjFair (.singleton (mjSample "")) (mjSampleRun "" .failed) ∧
    ¬ MjFair (.singleton (mjSample "a")) (mjSampleRun "a" (.channelError none)) ∧
    ¬ MjFair (.singleton (mjSample "a"))
      (mjSampleRun "a" (.items [mjSampleVisit "a" "IN_PROGRESS" "slow"])) ∧
    ¬ MjFair (.singleton (mjSample "a")) (mjSampleRun "a"
        (.items [mjSampleVisit "a" "FAILURE" "bad", mjSampleVisit "a" "FAILURE" "bad"])) ∧
    ¬ MjFair (.singleton (mjSample "a"))
      (mjSampleRun "a" (.items [mjSampleVisit "b" "SUCCESS" ""])) := by
  decide +kernel

-- The repeated item pays twice, the unknown ID is a nil pointer, and one failure is paid once.
example : (mjSampleRun "a" (.items [mjSampleVisit "a" "FAILURE" "bad",
      mjSampleVisit "a" "FAILURE" "bad"])).refunds = [⟨7, 3, 100⟩, ⟨7, 3, 100⟩] ∧
    (mjSampleRun "a" (.items [mjSampleVisit "b" "SUCCESS" ""])).panicked = true ∧
    MjFair (.singleton (mjSample "a"))
      (mjSampleRun "a" (.items [mjSampleVisit "a" "FAILURE" "bad"])) := by
  decide +kernel

end NomoApi
