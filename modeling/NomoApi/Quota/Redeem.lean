import Mathlib.Data.Fintype.Basic
import NomoApi.Lib.Interleave
import NomoApi.Lib.Locks
import NomoApi.TopUp.Completion

/-! # Redeeming one code concurrently

`Redeem` of `model/redemption.go`, statement by statement, any number of calls for one code at once
under READ COMMITTED. An `UPDATE` locks its row until the transaction ends; the `SELECT` takes no
lock, since this version of gorm does not know `gorm:query_option`. Two transactions may read the
code before either has marked it as used, and each then credits its user. -/

namespace NomoApi

universe u

inductive RedemptionStatus where
  | enabled
  | disabled
  | used
  deriving DecidableEq

/-- A redemption code (`Redemption`); the key carries a unique index. -/
structure Redemption where
  id : Int
  userId : Int
  key : String
  status : RedemptionStatus
  name : String
  quota : Int
  createdTime : Int
  redeemedTime : Int
  usedUserId : Int
  /-- Zero for a code that does not expire. -/
  expiredTime : Int
  deriving DecidableEq

abbrev CodeRow (key : String) : Type := { r : Redemption // r.key = key }

def CodeRow.redeemed {key : String} (r : CodeRow key) (now userId : Int) : CodeRow key :=
  ⟨{ r.1 with redeemedTime := now, status := .used, usedUserId := userId }, r.2⟩

inductive RedeemPhase (key : String) where
  | start
  | reading (r : CodeRow key)
  | credited (r : CodeRow key)
  | saved (r : CodeRow key) (now : Int)
  | committed
  /-- The call returned this error before its transaction. -/
  | refused (text : String)
  | rolledBack (cause : String)
  deriving DecidableEq

open RedeemPhase

def RedeemPhase.inFlight {key : String} : RedeemPhase key → Bool
  | .reading _ => true
  | .credited _ => true
  | .saved _ _ => true
  | _ => false

inductive LockedRow where
  | user (id : Int)
  | code
  deriving DecidableEq

/-- **The tables and the locks**; `ι` names the calls. -/
structure RedeemTables (ι : Type u) where
  redemptions : Table Redemption Redemption.key
  users : Table User User.id
  locks : Locks ι LockedRow
  /-- The credits that were committed, with their users, oldest first. -/
  credits : List (Int × Int)

structure StatementEnv where
  now : Int
  fault : Option String
  deriving DecidableEq

/-- **The calls for one code**, and what they share. -/
abbrev RedeemState (ι : Type u) (key : String) := Processes (RedeemTables ι) ι (RedeemPhase key)

namespace RedeemState

variable {ι : Type u} [DecidableEq ι] {key : String}

variable (s : RedeemTables ι) (i : ι)

def rollback (cause : String) : RedeemTables ι × RedeemPhase key :=
  ({ s with locks := s.locks.release i }, .rolledBack cause)

/-- **The `SELECT`**, with the checks before and after it. -/
def select (userId : Int) (env : StatementEnv) : RedeemTables ι × RedeemPhase key :=
  if key = "" then (s, .refused "未提供兑换码")
  else if userId = 0 then (s, .refused "无效的 user id")
  else
    match env.fault, h : s.redemptions.find? key with
    | none, some r =>
      if r.status ≠ .enabled then rollback s i "该兑换码已被使用"
      else if r.expiredTime ≠ 0 ∧ r.expiredTime < env.now then rollback s i "该兑换码已过期"
      else (s, .reading ⟨r, (Table.find?_eq_some.mp h).2⟩)
    | _, _ => rollback s i "无效的兑换码"

/-- **An `UPDATE` of a row**, which waits for its lock: of the user, and the `Save` of the code. -/
def update (env : StatementEnv) (row : LockedRow)
    (phase after : RedeemPhase key) : RedeemTables ι × RedeemPhase key :=
  if s.locks.Available i row then
    match env.fault with
    | some text => rollback s i text
    | none => ({ s with locks := s.locks.take i row }, after)
  else (s, phase)

/-- **The commit**: what the transaction wrote is there for the others. -/
def commit (userId : Int) (env : StatementEnv) (r : CodeRow key)
    (now : Int) : RedeemTables ι × RedeemPhase key :=
  match env.fault with
  | some text => rollback s i text
  | none =>
    ({ redemptions := s.redemptions.save (r.redeemed now userId).1
       users := s.users.updateWhere (fun u => u.id = userId)
         (UserUpdate.add r.1.quota).apply (UserUpdate.add r.1.quota).apply_id
       locks := s.locks.release i
       credits := s.credits ++ [(userId, r.1.quota)] }, .committed)

def next (userId : ι → Int) (e : ι × StatementEnv) (s : RedeemTables ι) (phase : RedeemPhase key) :
    RedeemTables ι × RedeemPhase key :=
  match phase with
  | .start => select s e.1 (userId e.1) e.2
  | .reading r => update s e.1 e.2 (.user (userId e.1)) phase (.credited r)
  | .credited r => update s e.1 e.2 .code phase (.saved r e.2.now)
  | .saved r now => commit s e.1 (userId e.1) e.2 r now
  | _ => (s, phase)

/-- **One statement of one call.** One that has to wait changes nothing. -/
def step (userId : ι → Int) : RedeemState ι key → ι × StatementEnv → RedeemState ι key :=
  interleave Prod.fst (next userId)

/-- **The readings do not overlap**: a call that is about to read the code finds no other call
between its reading and its end. -/
def Separate (s : RedeemState ι key) (e : ι × StatementEnv) : Prop :=
  s.phase e.1 = .start → ∀ j, (s.phase j).inFlight = false

instance [Fintype ι] (s : RedeemState ι key) (e : ι × StatementEnv) : Decidable (s.Separate e) :=
  inferInstanceAs (Decidable (_ → ∀ _, _))

/-! ## At most one credit -/

/-- Between the calls: at most one credit was made, after which the code is not redeemable. -/
def Spent (key : String) (s : RedeemTables ι) : Prop :=
  s.credits.length ≤ 1 ∧
    (s.credits ≠ [] → ∀ r, s.redemptions.find? key = some r → r.status ≠ .enabled)

def Unspent (_ : RedeemPhase key) : Prop := s.credits = []

variable {userId : ι → Int} {s : RedeemTables ι} {i : ι} {env : StatementEnv}

omit [DecidableEq ι] in
theorem spent_of_unspent (h : s.credits = []) : Spent key s :=
  ⟨by simp [h], fun hne => absurd h hne⟩

theorem settles_select (h : Spent key s) (u : Int) :
    Settles inFlight (Spent key) Unspent
      (select s i u env : RedeemTables ι × RedeemPhase key) := by
  unfold select
  split
  · exact .inl ⟨rfl, h⟩
  split
  · exact .inl ⟨rfl, h⟩
  split
  · rename_i r _ hrow
    split
    · exact .inl ⟨rfl, h⟩
    split
    · exact .inl ⟨rfl, h⟩
    -- the code is still enabled, so nothing was credited
    rename_i hstatus _
    refine .inr ⟨rfl, ?_⟩
    by_contra hne
    exact hstatus fun henabled => h.2 hne r hrow henabled
  · exact .inl ⟨rfl, h⟩

theorem settles_update {row : LockedRow} {phase after : RedeemPhase key}
    (hphase : phase.inFlight = true) (hafter : after.inFlight = true) (h : s.credits = []) :
    Settles inFlight (Spent key) Unspent (update s i env row phase after) := by
  unfold update
  split
  · split
    · exact .inl ⟨rfl, spent_of_unspent h⟩
    · exact .inr ⟨hafter, h⟩
  · exact .inr ⟨hphase, h⟩

theorem status_of_find?_save {t : Table Redemption Redemption.key} {r : CodeRow key}
    {now u : Int} {r' : Redemption} (h : (t.save (r.redeemed now u).1).find? key = some r') :
    r'.status ≠ .enabled := by
  obtain ⟨hmem, hkey⟩ := Table.find?_eq_some.mp h
  obtain ⟨c, -, hc⟩ := Table.mem_save.mp hmem
  have hsaved : (r.redeemed now u).1.key = key := (r.redeemed now u).2
  by_cases hck : c.key = key
  · rw [if_pos (hck.trans hsaved.symm)] at hc
    rw [← hc]
    intro hstatus
    cases hstatus
  · rw [if_neg (by rwa [hsaved])] at hc
    exact absurd (hc ▸ hkey) hck

theorem settles_next {e : ι × StatementEnv} {phase : RedeemPhase key}
    (hflight : phase.inFlight = true) (h : Unspent s phase) :
    Settles inFlight (Spent key) Unspent (next userId e s phase) := by
  cases phase with
  | start => cases hflight
  | reading r => exact settles_update rfl rfl h
  | credited r => exact settles_update rfl rfl h
  | saved r now =>
    unfold next commit
    dsimp only
    split
    · exact .inl ⟨rfl, spent_of_unspent h⟩
    · refine .inl ⟨rfl, ?_, fun _ _ => status_of_find?_save⟩
      rw [show s.credits = [] from h]
      rfl
  | committed => cases hflight
  | refused text => cases hflight
  | rolledBack cause => cases hflight

theorem serial_step {p : RedeemState ι key} {e : ι × StatementEnv}
    (h : Serial inFlight (Spent key) Unspent p) (hsep : p.Separate e) :
    Serial inFlight (Spent key) Unspent (p.step userId e) := by
  refine serial_interleave (fun hidle hrest => ?_) settles_next h fun hidle => ?_
  · cases hphase : p.phase e.1 with
    | start => exact settles_select hrest _
    | committed => exact .inl ⟨rfl, hrest⟩
    | refused text => exact .inl ⟨rfl, hrest⟩
    | rolledBack cause => exact .inl ⟨rfl, hrest⟩
    | _ => simp [hphase, inFlight] at hidle
  · cases hphase : p.phase e.1 with
    | start => exact .inl (hsep hphase)
    | committed => exact .inr rfl
    | refused text => exact .inr rfl
    | rolledBack cause => exact .inr rfl
    | _ => simp [hphase, inFlight] at hidle

end RedeemState

open RedeemState in
/-- **A code is redeemed at most once** by any number of concurrent calls whose readings do not
overlap. -/
theorem redeemed_at_most_once {ι : Type u} [DecidableEq ι] {key : String} (userId : ι → Int)
    {s : RedeemState ι key} (hstart : ∀ i, s.phase i = .start) (hnone : s.shared.credits = [])
    {es : List (ι × StatementEnv)} (hsep : AllSteps Separate (step userId) s es) :
    Always (fun s => s.shared.credits.length ≤ 1) (step userId) s es := by
  have hinit : Serial inFlight (Spent key) Unspent s :=
    .inl ⟨fun i => by rw [hstart i]; rfl, spent_of_unspent hnone⟩
  refine (always_of_allSteps (fun _ _ hs hC => serial_step hs hC) hinit hsep).mono fun _ h => ?_
  rcases h with ⟨-, h⟩ | ⟨i, -, -, h⟩
  · exact h.1
  · exact (show Spent key _ from spent_of_unspent h).1

def giftCode : Redemption := ⟨1, 1, "gift", .enabled, "gift", 500, 0, 0, 0, 0⟩

def twoCalls : RedeemState Bool "gift" where
  shared :=
    { redemptions := .singleton giftCode
      users := ⟨[⟨7, "default", "", 0, ""⟩, ⟨8, "default", "", 0, ""⟩], by decide⟩
      locks := .allFree
      credits := [] }
  phase := fun _ => .start

def twoUsers (i : Bool) : Int := if i then 8 else 7

def next (i : Bool) : Bool × StatementEnv := (i, ⟨100, none⟩)

/-- **One call after the other**: the second one finds the code used. -/
theorem redeemed_at_most_once_serial : ((run (RedeemState.step twoUsers) twoCalls
        [next false, next false, next false, next false, next true]).shared.credits.length ≤ 1) ∧
      (run (RedeemState.step twoUsers) twoCalls
        [next false, next false, next false, next false, next true]).phase true =
          .rolledBack "该兑换码已被使用" := by
  have hsep : AllSteps RedeemState.Separate (RedeemState.step twoUsers) twoCalls
      [next false, next false, next false, next false, next true] := by decide +kernel
  exact ⟨redeemed_at_most_once twoUsers (fun _ => rfl) rfl hsep _ (List.prefix_refl _),
    by decide +kernel⟩

/-- **Both calls read the code before either commits.** -/
theorem code_redeemed_twice : (run (RedeemState.step twoUsers) twoCalls
        [next false, next true, next false, next false, next false, next true, next true,
          next true]).shared.credits = [(7, 500), (8, 500)] := by
  decide +kernel

end NomoApi
