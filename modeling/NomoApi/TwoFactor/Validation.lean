import NomoApi.Lib.Interleave
import NomoApi.Lib.Table
import NomoApi.Lib.Text

/-! # Second factors checked side by side

A login is confirmed by a TOTP code or by a backup code, which can be used once (`model/twofa.go`).
Both validations read the record, check the code and write all columns back; a backup code is looked
up and marked as used in two statements. Nothing keeps two validations apart. -/

namespace NomoApi

universe u

def maxFailAttempts : Int := 5

theorem maxFailAttempts_pos : 0 < maxFailAttempts := by decide

def lockoutDuration : Int := 300

structure TwoFA where
  id : Int
  userId : Int
  secret : String
  isEnabled : Bool
  failedAttempts : Int := 0
  lockedUntil : Option Int := none
  lastUsedAt : Option Int := none

structure TwoFABackupCode where
  id : Int
  userId : Int
  codeHash : String
  isUsed : Bool := false
  usedAt : Option Int := none

/-! ### Checks -/

structure TwoFAChecks where
  /-- `totp.Validate` of a code and a secret, at a time. -/
  totpValidate : String → String → Int → Bool
  validatePasswordAndHash : String → String → Bool
  toUpper : String → String
  formatTime : Int → String

namespace TwoFAChecks

variable (env : TwoFAChecks)

def validateTOTPCode (secret code : String) (now : Int) : Bool :=
  let cleanCode := replaceAll code " " ""
  if cleanCode.utf8ByteSize ≠ 6 then false else env.totpValidate cleanCode secret now

def cleanCode (code : String) : String := env.toUpper (replaceAll code "-" "")

/-- `common.ValidateBackupCode`: the format of a backup code. -/
def validateBackupCode (code : String) : Bool :=
  (env.cleanCode code).utf8ByteSize = 8 &&
    (env.cleanCode code).toList.all fun c => ('A' ≤ c && c ≤ 'Z') || ('0' ≤ c && c ≤ '9')

def normalizeBackupCode (code : String) : String :=
  let cleanCode := env.cleanCode code
  if cleanCode.utf8ByteSize = 8 then
    String.ofList (cleanCode.toList.take 4) ++ "-" ++ String.ofList (cleanCode.toList.drop 4)
  else code

end TwoFAChecks

namespace TwoFA

def isLocked (t : TwoFA) (now : Int) : Bool :=
  match t.lockedUntil with
  | none => false
  | some lockedUntil => now < lockedUntil

def incrementFailedAttempts (t : TwoFA) (now : Int) : TwoFA :=
  { t with
    failedAttempts := t.failedAttempts + 1
    lockedUntil :=
      if t.failedAttempts + 1 ≥ maxFailAttempts then some (now + lockoutDuration)
      else t.lockedUntil }

def recordUse (t : TwoFA) (now : Int) : TwoFA :=
  { t with failedAttempts := 0, lockedUntil := none, lastUsedAt := some now }

end TwoFA

/-! ### Validations -/

/-- **The tables of one user**, with the accepted backup codes and the number of wrong codes that
were checked before the account was locked. -/
structure TwoFADb where
  record : TwoFA
  backupCodes : Table TwoFABackupCode TwoFABackupCode.id
  accepted : List Int := []
  wrongCodes : Int := 0

namespace TwoFADb

def update (s : TwoFADb) (t : TwoFA) : TwoFADb :=
  if t.id = 0 then s
  else { s with record := t, wrongCodes := if t.failedAttempts = 0 then 0 else s.wrongCodes }

def countWrong (s : TwoFADb) : TwoFADb :=
  { s with wrongCodes := if s.record.lockedUntil = none then s.wrongCodes + 1 else s.wrongCodes }

def accept (s : TwoFADb) (bc : TwoFABackupCode) (now : Int) : TwoFADb :=
  { s with
    backupCodes := s.backupCodes.save { bc with isUsed := true, usedAt := some now }
    accepted := bc.id :: s.accepted }

end TwoFADb

/-- **A validation** of a code. -/
inductive TwoFACall
  | totp (code : String)
  | backup (code : String)

open TwoFADb

/-- **Where a validation stands.** -/
inductive TwoFAPhase
  | start
  | loaded (t : TwoFA)
  | searching (t : TwoFA) (code : String)
  | matched (t : TwoFA) (bc : TwoFABackupCode)
  | failing (t : TwoFA)
  | succeeding (t : TwoFA)
  | done (result : Except String Bool)

def TwoFAPhase.busy : TwoFAPhase → Bool
  | .start | .done _ => false
  | _ => true

def TwoFAPhase.isStart : TwoFAPhase → Bool
  | .start => true
  | _ => false

/-- **The next step of a validation.** -/
def TwoFACall.next (env : TwoFAChecks) (call : TwoFACall) (now : Int) (s : TwoFADb) :
    TwoFAPhase → TwoFADb × TwoFAPhase
  | .start => (s, .loaded s.record)
  | .loaded t =>
    if t.isLocked now then
      (s, .done (.error ("账户已被锁定，请在" ++ env.formatTime (t.lockedUntil.getD 0) ++ "后重试")))
    else
      match call with
      | .totp code =>
        if env.validateTOTPCode t.secret code now then (s, .succeeding t)
        else (s.countWrong, .failing t)
      | .backup code =>
        -- A code that cannot be one is not counted.
        if env.validateBackupCode code then (s, .searching t code)
        else (s, .done (.error "验证码或备用码不正确"))
  | .searching t code =>
    let unused := s.backupCodes.rows.filter fun bc => bc.userId = t.userId ∧ bc.isUsed = false
    match unused.find? fun bc =>
      env.validatePasswordAndHash (env.normalizeBackupCode code) bc.codeHash with
    | none => (s.countWrong, .failing t)
    | some bc => (s, .matched t bc)
  | .matched t bc => (s.accept bc now, .succeeding t)
  | .failing t => (s.update (t.incrementFailedAttempts now), .done (.ok false))
  | .succeeding t => (s.update (t.recordUse now), .done (.ok true))
  | .done result => (s, .done result)

/-- **The account is protected**: no backup code was accepted twice, and not more wrong codes were
checked than are allowed. -/
def TwoFADb.Protected (s : TwoFADb) : Prop :=
  s.accepted.Nodup ∧ s.wrongCodes ≤ maxFailAttempts

/-! ### What one step keeps -/

namespace TwoFADb

/-- **The tables agree with what happened**: accepted codes are marked, and failures are counted
until the account is locked. -/
structure Counted (s : TwoFADb) : Prop where
  id_ne_zero : s.record.id ≠ 0
  nonneg : 0 ≤ s.record.failedAttempts
  nodup : s.accepted.Nodup
  used : ∀ bc ∈ s.backupCodes, bc.id ∈ s.accepted → bc.isUsed = true
  le : s.wrongCodes ≤ maxFailAttempts

/-- **Between the validations** the failures that are counted are the wrong codes. -/
structure Rests (s : TwoFADb) : Prop extends Counted s where
  wrong : s.record.lockedUntil = none →
    s.wrongCodes = s.record.failedAttempts ∧ s.record.failedAttempts < maxFailAttempts

/-- **During the only validation** the record is the one that it has read. -/
def Fits (s : TwoFADb) : TwoFAPhase → Prop
  | .start | .done _ => s.Rests
  | .loaded t | .searching t _ | .succeeding t => s.Rests ∧ t = s.record
  | .matched t bc => s.Rests ∧ t = s.record ∧ bc ∈ s.backupCodes ∧ bc.isUsed = false
  | .failing t => s.Counted ∧ t = s.record ∧ (s.record.lockedUntil = none →
      s.wrongCodes = s.record.failedAttempts + 1 ∧ s.record.failedAttempts < maxFailAttempts)

variable {s : TwoFADb}

theorem Rests.countWrong (h : s.Rests) : s.countWrong.Fits (.failing s.record) := by
  unfold TwoFADb.countWrong
  by_cases hlock : s.record.lockedUntil = none
  · obtain ⟨hwrong, hlt⟩ := h.wrong hlock
    rw [if_pos hlock]
    refine ⟨⟨h.id_ne_zero, h.nonneg, h.nodup, h.used, ?_⟩, rfl, fun _ => ⟨?_, hlt⟩⟩
    · show s.wrongCodes + 1 ≤ maxFailAttempts
      omega
    · show s.wrongCodes + 1 = s.record.failedAttempts + 1
      omega
  · rw [if_neg hlock]
    exact ⟨h.toCounted, rfl, fun hnone => absurd hnone hlock⟩

theorem Fits.increment {t : TwoFA} (h : s.Fits (.failing t)) (now : Int) :
    (s.update (t.incrementFailedAttempts now)).Rests := by
  obtain ⟨hcounted, rfl, hwrong⟩ := h
  have hnonneg := hcounted.nonneg
  have hne : ¬ (s.record.incrementFailedAttempts now).failedAttempts = 0 := by
    show ¬ s.record.failedAttempts + 1 = 0
    omega
  unfold update
  rw [if_neg (show ¬ (s.record.incrementFailedAttempts now).id = 0 from hcounted.id_ne_zero),
    if_neg hne]
  refine ⟨⟨hcounted.id_ne_zero, ?_, hcounted.nodup, hcounted.used, hcounted.le⟩, ?_⟩
  · show 0 ≤ s.record.failedAttempts + 1
    omega
  · show (if s.record.failedAttempts + 1 ≥ maxFailAttempts then some (now + lockoutDuration)
      else s.record.lockedUntil) = none → s.wrongCodes = s.record.failedAttempts + 1 ∧
        s.record.failedAttempts + 1 < maxFailAttempts
    intro hnone
    split at hnone
    · cases hnone
    · rename_i hfull
      exact ⟨(hwrong hnone).1, not_le.mp hfull⟩

theorem Rests.recordUse (h : s.Rests) (now : Int) : (s.update (s.record.recordUse now)).Rests := by
  unfold update
  rw [if_neg (show ¬ (s.record.recordUse now).id = 0 from h.id_ne_zero),
    if_pos (show (s.record.recordUse now).failedAttempts = 0 from rfl)]
  exact ⟨⟨h.id_ne_zero, le_refl 0, h.nodup, h.used, maxFailAttempts_pos.le⟩,
    fun _ => ⟨rfl, maxFailAttempts_pos⟩⟩

theorem Rests.accept (h : s.Rests) {bc : TwoFABackupCode} (hmem : bc ∈ s.backupCodes)
    (hunused : bc.isUsed = false) (now : Int) : (s.accept bc now).Rests := by
  refine ⟨⟨h.id_ne_zero, h.nonneg, List.nodup_cons.mpr ⟨fun hid => ?_, h.nodup⟩, ?_, h.le⟩, h.wrong⟩
  · have hused := h.used bc hmem hid
    rw [hunused] at hused
    cases hused
  · intro x hx hid
    obtain ⟨c, hc, hcx⟩ := Table.mem_save.mp hx
    split at hcx
    · rw [← hcx]
    · rename_i hcode
      subst hcx
      exact h.used c hc ((List.mem_cons.mp hid).resolve_left hcode)

theorem settles_next (env : TwoFAChecks) (call : TwoFACall) (now : Int) {phase : TwoFAPhase}
    (h : s.Fits phase) : Settles TwoFAPhase.busy Rests Fits (call.next env now s phase) := by
  unfold TwoFACall.next
  cases phase with
  | start => exact .inr ⟨rfl, h, rfl⟩
  | loaded t =>
    obtain ⟨hrests, rfl⟩ := h
    dsimp only
    split
    · exact .inl ⟨rfl, hrests⟩
    · cases call with
      | totp code =>
        dsimp only
        split
        · exact .inr ⟨rfl, hrests, rfl⟩
        · exact .inr ⟨rfl, hrests.countWrong⟩
      | backup code =>
        dsimp only
        split
        · exact .inr ⟨rfl, hrests, rfl⟩
        · exact .inl ⟨rfl, hrests⟩
  | searching t code =>
    obtain ⟨hrests, rfl⟩ := h
    dsimp only
    split
    · exact .inr ⟨rfl, hrests.countWrong⟩
    · rename_i bc hfound
      obtain ⟨hmem, hunused⟩ := List.mem_filter.mp (List.mem_of_find?_eq_some hfound)
      exact .inr ⟨rfl, hrests, rfl, hmem, (of_decide_eq_true hunused).2⟩
  | matched t bc =>
    obtain ⟨hrests, rfl, hmem, hunused⟩ := h
    exact .inr ⟨rfl, hrests.accept hmem hunused now, rfl⟩
  | failing t => exact .inl ⟨rfl, Fits.increment h now⟩
  | succeeding t =>
    obtain ⟨hrests, rfl⟩ := h
    exact .inl ⟨rfl, hrests.recordUse now⟩
  | done result => exact .inl ⟨rfl, h⟩

theorem Fits.counted {phase : TwoFAPhase} (h : s.Fits phase) : s.Counted := by
  cases phase with
  | failing t => exact h.1
  | start => exact h.toCounted
  | done result => exact h.toCounted
  | loaded t => exact h.1.toCounted
  | searching t code => exact h.1.toCounted
  | succeeding t => exact h.1.toCounted
  | matched t bc => exact h.1.toCounted

end TwoFADb

/-! ### Whole runs -/

section

variable {ι : Type u} [DecidableEq ι] (env : TwoFAChecks) (calls : ι → TwoFACall)

def twoFAStep : Processes TwoFADb ι TwoFAPhase → ι × Int → Processes TwoFADb ι TwoFAPhase :=
  interleave Prod.fst fun e => (calls e.1).next env e.2

def twoFAStart (s : TwoFADb) : Processes TwoFADb ι TwoFAPhase := ⟨s, fun _ => .start⟩

/-- **The condition**: a validation reads the record only while no other one is under way. -/
def StartsAlone (p : Processes TwoFADb ι TwoFAPhase) (e : ι × Int) : Prop :=
  (p.phase e.1).isStart = true → ∀ j, (p.phase j).busy = false

instance [Fintype ι] (p : Processes TwoFADb ι TwoFAPhase) (e : ι × Int) :
    Decidable (StartsAlone p e) :=
  inferInstanceAs (Decidable (_ → ∀ j, (p.phase j).busy = false))

variable {env calls}

/-- **The account is protected in every run of validations that do not overlap**, from a record
without failures. -/
theorem twoFA_protected {record : TwoFA} (hid : record.id ≠ 0) (hfailed : record.failedAttempts = 0)
    (backupCodes : Table TwoFABackupCode TwoFABackupCode.id) {events : List (ι × Int)}
    (halone : AllSteps StartsAlone (twoFAStep env calls) (twoFAStart { record, backupCodes })
      events) : Always (fun p => p.shared.Protected) (twoFAStep env calls)
      (twoFAStart { record, backupCodes }) events := by
  have hrests : Rests { record, backupCodes } := by
    refine ⟨⟨hid, hfailed.ge, List.nodup_nil, ?_, maxFailAttempts_pos.le⟩, fun _ => ?_⟩
    · intro bc _ hbc
      cases hbc
    · exact ⟨hfailed.symm, hfailed.trans_lt maxFailAttempts_pos⟩
  have hserial : Always (Serial TwoFAPhase.busy Rests TwoFADb.Fits)
      (twoFAStep env calls) (twoFAStart { record, backupCodes }) events := by
    refine always_of_allSteps (C := StartsAlone) ?_ (.inl ⟨fun _ => rfl, hrests⟩) halone
    intro p e h hstart
    refine serial_interleave (fun hidle hrests => settles_next env _ _ ?_)
      (fun _ hfits => settles_next env _ _ hfits) h ?_
    · cases hphase : p.phase e.1 with
      | start => exact hrests
      | done result => exact hrests
      | _ =>
        rw [hphase] at hidle
        cases hidle
    · intro hidle
      cases hphase : p.phase e.1 with
      | start => exact .inl (hstart (by rw [hphase]; rfl))
      | done result => exact .inr rfl
      | _ =>
        rw [hphase] at hidle
        cases hidle
  refine hserial.mono fun p hp => ?_
  rcases hp with ⟨-, hrests⟩ | ⟨i, -, -, hfits⟩
  · exact ⟨hrests.nodup, hrests.le⟩
  · exact ⟨hfits.counted.nodup, hfits.counted.le⟩

end

/-! ### Validations that overlap -/

def plainChecks : TwoFAChecks where
  totpValidate := fun code _ _ => code = "123456"
  validatePasswordAndHash := fun code hash => code = hash
  toUpper := fun s => s
  formatTime := fun _ => ""

def freshTwoFA : TwoFADb where
  record := { id := 1, userId := 7, secret := "secret", isEnabled := true }
  backupCodes := .singleton { id := 3, userId := 7, codeHash := "ABCD-1234" }

def backupRun (events : List Bool) : Processes TwoFADb Bool TwoFAPhase :=
  run (twoFAStep plainChecks fun _ => .backup "ABCD-1234") (twoFAStart freshTwoFA)
    (events.map fun i => (i, 0))

def loginsInTurn : List (Bool × Int) :=
  [true, true, true, true, true, false, false, false, false].map fun i => (i, 0)

/-- **Two logins with the same backup code, one after the other.** -/
theorem twoFA_protected_in_turn : freshTwoFA.record.id ≠ 0 ∧ Always (fun p => p.shared.Protected)
        (twoFAStep plainChecks fun _ : Bool => .backup "ABCD-1234") (twoFAStart freshTwoFA)
        loginsInTurn := by
  refine ⟨by decide, twoFA_protected (by decide) rfl _ ?_⟩
  decide +kernel

/-- **Two logins look the backup code up before one of them marks it**: it is accepted twice. **Six
wrong codes are checked before any failure is written**. -/
theorem twoFA_not_protected :
    (backupRun [true, false, true, false, true, false, true, false]).shared.accepted = [3, 3] ∧
      let s := (run (twoFAStep plainChecks fun _ : Fin 6 => .totp "000000")
        (twoFAStart freshTwoFA) (((List.finRange 6).flatMap fun i => [(i, 0), (i, 0)]) ++
          (List.finRange 6).map fun i => (i, 0))).shared
      s.wrongCodes = 6 ∧ s.record.failedAttempts = 1 ∧ s.record.lockedUntil = none := by
  decide +kernel

end NomoApi
