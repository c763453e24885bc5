import Mathlib.Data.Rat.Defs
import NomoApi.Lib.Interleave
import NomoApi.Lib.Locks

/-! # The quota column under concurrent writers

The operations on the quota column of one user (`model/user.go`), statement by statement, any number
at once under READ COMMITTED. `IncreaseUserQuota`, `DecreaseUserQuota` and the credit of `Redeem`
write a **difference**; `inviteUser`, `TransferAffQuotaToQuota` and `User.Update` write a **value**,
which undoes whatever happened to the column since it was read. -/

namespace NomoApi

universe u v

/-- The columns of a user that are at stake; `P` stands for all others. -/
structure UserRow (P : Type v) where
  quota : Int
  affCount : Int
  affQuota : Int
  affHistoryQuota : Int
  profile : P
  deriving DecidableEq

structure UserSettings (P : Type v) where
  quotaForInviter : Int
  quotaPerUnit : ℚ
  unitText : String
  mergeProfile : P → P → P

/-- `Updates(struct)`: a column that is not zero is replaced. -/
def updateColumn (old new : Int) : Int := if new = 0 then old else new

namespace UserRow

variable {P : Type v}

def invited (cfg : UserSettings P) (row : UserRow P) : UserRow P :=
  { row with
    affCount := row.affCount + 1
    affQuota := row.affQuota + cfg.quotaForInviter
    affHistoryQuota := row.affHistoryQuota + cfg.quotaForInviter }

def transferred (quota : Int) (row : UserRow P) : UserRow P :=
  { row with affQuota := row.affQuota - quota, quota := row.quota + quota }

def updates (cfg : UserSettings P) (row new : UserRow P) : UserRow P where
  quota := updateColumn row.quota new.quota
  affCount := updateColumn row.affCount new.affCount
  affQuota := updateColumn row.affQuota new.affQuota
  affHistoryQuota := updateColumn row.affHistoryQuota new.affHistoryQuota
  profile := cfg.mergeProfile row.profile new.profile

end UserRow

inductive QuotaOp (P : Type v) where
  | increase (quota : Int)
  | decrease (quota : Int)
  | redeem (quota : Int)
  /-- `inviteUser`, the user being the inviter. -/
  | invite
  | transfer (quota : Int)
  /-- `User.Update(false)` on a user that the caller has loaded and edited. -/
  | update (edit : P → P)
  /-- `User.Update(false)` with only these columns filled in. -/
  | updateFields (profile : P)

inductive QuotaPhase (P : Type v) where
  | ready
  | loaded (row : UserRow P)
  | reread (newUser : UserRow P)
  | saved (row : UserRow P)
  | credited
  | done
  | failed (text : String)
  deriving DecidableEq

/-- **The row of the user and its lock**; `ι` names the operations. -/
structure LockedUserRow (ι : Type u) (P : Type v) where
  row : UserRow P
  lock : Locks ι Unit
  /-- The sum of what the operations that took effect add to the quota. -/
  applied : Int

/-- **The operations** on one row. -/
abbrev QuotaRace (ι : Type u) (P : Type v) := Processes (LockedUserRow ι P) ι (QuotaPhase P)

namespace QuotaRace

variable {ι : Type u} [DecidableEq ι] {P : Type v}

def read (s : LockedUserRow ι P) (fault : Option String) (after : UserRow P → QuotaPhase P) :
    LockedUserRow ι P × QuotaPhase P :=
  match fault with
  | some text => (s, .failed text)
  | none => (s, after s.row)

variable (s : LockedUserRow ι P) (phase : QuotaPhase P)

/-- **A write outside of a transaction**, which waits for the lock; `delta` is what the operation
adds. -/
def put (i : ι) (fault : Option String)
    (write : UserRow P → UserRow P) (delta : Int) : LockedUserRow ι P × QuotaPhase P :=
  if s.lock.Available i () then
    match fault with
    | some text => (s, .failed text)
    | none => ({ s with row := write s.row, applied := s.applied + delta }, .done)
  else (s, phase)

/-- A write in a transaction: it takes the lock, and nobody sees it yet. -/
def hold (i : ι) (fault : Option String)
    (after : QuotaPhase P) : LockedUserRow ι P × QuotaPhase P :=
  if s.lock.Available i () then
    match fault with
    | some text => (s, .failed text)
    | none => ({ s with lock := s.lock.take i () }, after)
  else (s, phase)

/-- **The commit** of such a write; a failed commit rolls it back. -/
def commit (i : ι) (fault : Option String) (write : UserRow P → UserRow P)
    (delta : Int) : LockedUserRow ι P × QuotaPhase P :=
  match fault with
  | some text => ({ s with lock := s.lock.release i }, .failed text)
  | none =>
    ({ row := write s.row, lock := s.lock.release i, applied := s.applied + delta }, .done)

def addQuota (delta : Int) (row : UserRow P) : UserRow P := { row with quota := row.quota + delta }

/-- The first statement of `TransferAffQuotaToQuota`, with its checks. -/
def startTransfer (cfg : UserSettings P) (s : LockedUserRow ι P) (fault : Option String)
    (quota : Int) : LockedUserRow ι P × QuotaPhase P :=
  if (quota : ℚ) < cfg.quotaPerUnit then (s, .failed s!"转移额度最小为{cfg.unitText}！")
  else
    read s fault fun row => if row.affQuota < quota then .failed "邀请额度不足！" else .loaded row

def next (cfg : UserSettings P) (op : ι → QuotaOp P) (e : ι × Option String)
    (s : LockedUserRow ι P) (phase : QuotaPhase P) : LockedUserRow ι P × QuotaPhase P :=
  match op e.1, phase with
  | .increase quota, .ready =>
    if quota < 0 then (s, .failed "quota 不能为负数！")
    else put s phase e.1 e.2 (addQuota quota) quota
  | .decrease quota, .ready =>
    if quota < 0 then (s, .failed "quota 不能为负数！")
    else put s phase e.1 e.2 (addQuota (-quota)) (-quota)
  | .redeem _, .ready => hold s phase e.1 e.2 .credited
  | .redeem quota, .credited => commit s e.1 e.2 (addQuota quota) quota
  | .invite, .ready => read s e.2 .loaded
  | .invite, .loaded row => put s phase e.1 e.2 (fun _ => row.invited cfg) 0
  | .transfer quota, .ready => startTransfer cfg s e.2 quota
  | .transfer _, .loaded row => hold s phase e.1 e.2 (.saved row)
  | .transfer quota, .saved row => commit s e.1 e.2 (fun _ => row.transferred quota) quota
  | .update _, .ready => read s e.2 .loaded
  -- `DB.First(&user, user.Id)`: its failure is not looked at
  | .update edit, .loaded row => (s, .reread { row with profile := edit row.profile })
  | .update _, .reread newUser => put s phase e.1 e.2 (·.updates cfg newUser) 0
  | .updateFields profile, .ready => (s, .reread ⟨0, 0, 0, 0, profile⟩)
  | .updateFields _, .reread newUser => put s phase e.1 e.2 (·.updates cfg newUser) 0
  | _, _ => (s, phase)

/-- **One statement of one operation.** A write that has to wait changes nothing. -/
def step (cfg : UserSettings P) (op : ι → QuotaOp P) :
    QuotaRace ι P → ι × Option String → QuotaRace ι P :=
  interleave Prod.fst (next cfg op)

def Effective (e : ι × Option String) : Prop :=
  s.lock.Available e.1 () ∧ e.2 = none

/-- **What is written back is current**: a quota that the statement writes back is the one the
column still holds. -/
def Current (op : ι → QuotaOp P) (s : QuotaRace ι P) (e : ι × Option String) : Prop :=
  match op e.1, s.phase e.1 with
  | .invite, .loaded row => Effective s.shared e → row.quota = s.shared.row.quota
  | .transfer _, .saved row => e.2 = none → row.quota = s.shared.row.quota
  | .update _, .reread newUser =>
    Effective s.shared e → newUser.quota = 0 ∨ newUser.quota = s.shared.row.quota
  | .updateFields _, .reread newUser =>
    Effective s.shared e → newUser.quota = 0 ∨ newUser.quota = s.shared.row.quota
  | _, _ => True

/-- **The quota is the sum** of the initial one and of what the operations have added. -/
def QuotaIsSum (initial : Int) (s : LockedUserRow ι P) : Prop := s.row.quota = initial + s.applied

/-! ## What a statement does to the quota -/

section Steps

variable {cfg : UserSettings P} {op : ι → QuotaOp P} {initial : Int} {s : LockedUserRow ι P} {i : ι}
  {phase : QuotaPhase P} {fault : Option String} (hs : QuotaIsSum initial s)

include hs

omit [DecidableEq ι] in
theorem quotaIsSum_read {after : UserRow P → QuotaPhase P} :
    QuotaIsSum initial (read s fault after).1 := by
  cases fault <;> exact hs

theorem quotaIsSum_hold {after : QuotaPhase P} :
    QuotaIsSum initial (hold s phase i fault after).1 := by
  unfold hold
  split
  · cases fault <;> exact hs
  · exact hs

section

variable {write : UserRow P → UserRow P} {delta : Int}

theorem quotaIsSum_put : QuotaIsSum initial (put s phase i fault write delta).1 ↔
      (Effective s (i, fault) → (write s.row).quota = s.row.quota + delta) := by
  unfold put Effective
  by_cases hlock : s.lock.Available i ()
  · cases fault with
    | some text => simpa [hlock] using hs
    | none =>
      simp only [QuotaIsSum] at hs ⊢
      simp only [hlock, if_true, and_self, forall_const]
      omega
  · simpa [hlock] using hs

theorem quotaIsSum_commit : QuotaIsSum initial (commit s i fault write delta).1 ↔
      (fault = none → (write s.row).quota = s.row.quota + delta) := by
  unfold commit
  cases fault with
  | some text => exact iff_of_true hs fun h => by cases h
  | none =>
    simp only [QuotaIsSum, forall_const] at hs ⊢
    omega

end

omit [DecidableEq ι] hs in
theorem quota_updates {row newUser : UserRow P} : (row.updates cfg newUser).quota = row.quota + 0 ↔
      newUser.quota = 0 ∨ newUser.quota = row.quota := by
  simp only [UserRow.updates, updateColumn]
  by_cases hzero : newUser.quota = 0
  · simp [hzero]
  · simp [hzero]

end Steps

theorem quotaIsSum_step {cfg : UserSettings P} {op : ι → QuotaOp P} {initial : Int}
    {p : QuotaRace ι P} (e : ι × Option String) (hs : QuotaIsSum initial p.shared) :
    QuotaIsSum initial (p.step cfg op e).shared ↔ p.Current op e := by
  obtain ⟨i, fault⟩ := e
  rw [step, shared_interleave]
  unfold next Current
  -- every operation has its own phases; in the others it has ended, and nothing happens
  cases hop : op i with
  | increase quota =>
    cases hphase : p.phase i <;> simp only [iff_true]
    case ready =>
      split
      · exact hs
      · exact (quotaIsSum_put hs).mpr fun _ => rfl
    all_goals exact hs
  | decrease quota =>
    cases hphase : p.phase i <;> simp only [iff_true]
    case ready =>
      split
      · exact hs
      · exact (quotaIsSum_put hs).mpr fun _ => rfl
    all_goals exact hs
  | redeem quota =>
    cases hphase : p.phase i <;> simp only [iff_true]
    case ready => exact quotaIsSum_hold hs
    case credited => exact (quotaIsSum_commit hs).mpr fun _ => rfl
    all_goals exact hs
  | invite =>
    cases hphase : p.phase i <;> simp only [iff_true]
    case ready => exact quotaIsSum_read hs
    case loaded row =>
      rw [quotaIsSum_put hs, add_zero]
      rfl
    all_goals exact hs
  | transfer quota =>
    cases hphase : p.phase i <;> simp only [iff_true]
    case ready =>
      unfold startTransfer
      split
      · exact hs
      · exact quotaIsSum_read hs
    case loaded row => exact quotaIsSum_hold hs
    case saved row =>
      rw [quotaIsSum_commit hs]
      simp [UserRow.transferred]
    all_goals exact hs
  | update edit =>
    cases hphase : p.phase i <;> simp only [iff_true]
    case ready => exact quotaIsSum_read hs
    case reread newUser => rw [quotaIsSum_put hs, quota_updates]
    all_goals exact hs
  | updateFields profile =>
    cases hphase : p.phase i <;> simp only [iff_true]
    case reread newUser => rw [quotaIsSum_put hs, quota_updates]
    all_goals exact hs

end QuotaRace

open QuotaRace in
/-- **The quota column under concurrent writers** is the initial quota plus what the operations have
added, iff every quota that was written back was the current one. -/
theorem quota_eq_sum_iff {ι : Type u} [DecidableEq ι] {P : Type v} (cfg : UserSettings P)
    (op : ι → QuotaOp P) {s : QuotaRace ι P} (hnone : s.shared.applied = 0)
    (es : List (ι × Option String)) :
    Always (fun p => QuotaIsSum s.shared.row.quota p.shared) (step cfg op) s es ↔
      AllSteps (Current op) (step cfg op) s es := by
  have hinit : QuotaIsSum s.shared.row.quota s.shared := by rw [QuotaIsSum, hnone, add_zero]
  exact always_iff_allSteps (I := fun _ => True) (A := fun _ _ => True)
    (fun s e _ hs _ => quotaIsSum_step e hs) (fun _ _ _ _ _ _ => trivial) trivial hinit
    (allSteps_of_forall (fun _ _ => trivial) _ _)

def userSettings : UserSettings String where
  quotaForInviter := 0
  quotaPerUnit := 500000
  unitText := "＄1.000000 额度"
  mergeProfile := fun old new => if new = "" then old else new

def inviterRace : QuotaRace Bool String where
  shared := ⟨⟨1000000, 3, 1000000, 1000000, "name"⟩, .allFree, 0⟩
  phase := fun _ => .ready

def chargeDuring (other : QuotaOp String) (i : Bool) : QuotaOp String :=
  if i then other else .decrease 400000

/-- **An invitation after the charge**: both take effect. -/
theorem quota_eq_sum_serial : inviterRace.shared.applied = 0 ∧
      QuotaRace.QuotaIsSum 1000000 (run (QuotaRace.step userSettings (chargeDuring .invite))
        inviterRace [(false, none), (true, none), (true, none)]).shared := by
  have hcurrent : AllSteps (QuotaRace.Current (chargeDuring .invite))
      (QuotaRace.step userSettings (chargeDuring .invite)) inviterRace
      [(false, none), (true, none), (true, none)] :=
    ⟨trivial, trivial, fun _ => rfl, trivial⟩
  exact ⟨rfl, (quota_eq_sum_iff userSettings (chargeDuring .invite) rfl _).mpr hcurrent _
    (List.prefix_refl _)⟩

def raceEnd (other : QuotaOp String) (es : List (Bool × Option String)) : Int × Int :=
  let s := run (QuotaRace.step userSettings (chargeDuring other)) inviterRace es
  (s.shared.row.quota, s.shared.applied)

/-- **A charge that is lost**, to an invitation, to a transfer and to an update that have read the
row before it. -/
theorem charge_lost :
    raceEnd .invite [(true, none), (false, none), (true, none)] = (1000000, -400000) ∧
      raceEnd (.transfer 500000) [(true, none), (false, none), (true, none), (true, none)] =
        (1500000, 100000) ∧
      raceEnd (.update id) [(true, none), (false, none), (true, none), (true, none)] =
        (1000000, -400000) := by
  refine ⟨?_, ?_, ?_⟩ <;> decide +kernel

end NomoApi
