import Mathlib.Data.Fintype.BigOperators
import Mathlib.Tactic.Ring
import NomoApi.Lib.Accumulator
import NomoApi.Lib.Run

/-! # Batched updates

`addNewRecord` collects differences in one map for each type of update, and `batchUpdate` takes the
maps one after the other and writes their entries (`model/utils.go`). Any number of runs may be
under way, entries are written in any order, and each write may fail: its difference is then gone.
-/

namespace NomoApi

open Function Accumulator Finset

universe u

inductive BatchType where
  | userQuota
  | tokenQuota
  | usedQuota
  | channelUsedQuota
  | requestCount
  deriving DecidableEq

def BatchType.all : List BatchType :=
  [.userQuota, .tokenQuota, .usedQuota, .channelUsedQuota, .requestCount]

/-! ## The database -/

inductive QuotaColumn where
  | userQuota
  | tokenRemainQuota
  | tokenUsedQuota
  | userUsedQuota
  | channelUsedQuota
  | userRequestCount
  deriving DecidableEq

structure QuotaColumns where
  get : QuotaColumn → Int → Option Int

namespace QuotaColumns

variable (db : QuotaColumns)

def value (c : QuotaColumn) (id : Int) : Int := (db.get c id).getD 0

/-- `UPDATE … SET c = c + v WHERE id = id`. -/
def add (c : QuotaColumn) (id v : Int) : QuotaColumns where
  get c' id' := if c' = c ∧ id' = id then (db.get c' id').map (· + v) else db.get c' id'

theorem value_add (c c' : QuotaColumn) (id id' v : Int) : (db.add c id v).value c' id' =
      db.value c' id' + if c' = c ∧ id' = id ∧ (db.get c id).isSome then v else 0 := by
  unfold value add
  by_cases h : c' = c ∧ id' = id
  · obtain ⟨rfl, rfl⟩ := h
    cases hrow : db.get c' id' <;> simp [hrow]
  · have h' : ¬ (c' = c ∧ id' = id ∧ (db.get c id).isSome) := fun hand => h ⟨hand.1, hand.2.1⟩
    simp [h, h']

def increaseUserQuota (id quota : Int) : QuotaColumns :=
  db.add .userQuota id quota

def increaseTokenQuota (id quota : Int) : QuotaColumns :=
  (db.add .tokenRemainQuota id quota).add .tokenUsedQuota id (-quota)

def updateUserUsedQuota (id quota : Int) : QuotaColumns :=
  db.add .userUsedQuota id quota

def updateUserRequestCount (id count : Int) : QuotaColumns :=
  db.add .userRequestCount id count

def updateChannelUsedQuota (id quota : Int) : QuotaColumns :=
  db.add .channelUsedQuota id quota

def batchWrite (id value : Int) : BatchType → QuotaColumns
  | .userQuota => db.increaseUserQuota id value
  | .tokenQuota => db.increaseTokenQuota id value
  | .usedQuota => db.updateUserUsedQuota id value
  | .requestCount => db.updateUserRequestCount id value
  | .channelUsedQuota => db.updateChannelUsedQuota id value

def tryWrite (id value : Int) (fault : Option String) (t : BatchType) : QuotaColumns :=
  match fault with
  | none => db.batchWrite id value t
  | some _ => db

end QuotaColumns

def BatchType.column : BatchType → QuotaColumn
  | .userQuota => .userQuota
  | .tokenQuota => .tokenRemainQuota
  | .usedQuota => .userUsedQuota
  | .channelUsedQuota => .channelUsedQuota
  | .requestCount => .userRequestCount

theorem value_batchWrite (db : QuotaColumns) (t t' : BatchType) (id id' v : Int) :
    (db.batchWrite id v t).value t'.column id' = db.value t'.column id' +
        if t' = t ∧ id' = id ∧ (db.get t.column id).isSome then v else 0 := by
  cases t <;> cases t' <;>
    simp [QuotaColumns.batchWrite, QuotaColumns.increaseUserQuota, QuotaColumns.increaseTokenQuota,
      QuotaColumns.updateUserUsedQuota, QuotaColumns.updateUserRequestCount,
      QuotaColumns.updateChannelUsedQuota, QuotaColumns.value_add, BatchType.column]

/-! ## Runs of the updater -/

inductive BatchPhase where
  | checking (rest : List BatchType)
  | taking (rest : List BatchType)
  | writing (t : BatchType) (held : Accumulator Int) (rest : List BatchType)
  | finished

open BatchPhase

def BatchPhase.held (t : BatchType) (id : Int) : BatchPhase → Int
  | .writing t' m _ => if t' = t then m.value id else 0
  | _ => 0

/-- **The maps, the runs and the database**; `ι` names the runs of `batchUpdate`. -/
structure BatchState (ι : Type u) where
  stores : BatchType → Accumulator Int
  phase : ι → BatchPhase
  db : QuotaColumns
  recorded : BatchType → Int → Int

inductive BatchEvent (ι : Type u) where
  | add (t : BatchType) (id value : Int)
  | advance (w : ι)
  | write (w : ι) (id : Int) (fault : Option String)

namespace BatchState

variable {ι : Type u} [DecidableEq ι] (s : BatchState ι)

def goto (w : ι) (p : BatchPhase) : BatchState ι :=
  { s with phase := Function.update s.phase w p }

def addNewRecord (t : BatchType) (id value : Int) : BatchState ι :=
  { s with
    stores := Function.update s.stores t ((s.stores t).record id value)
    recorded := fun t' id' => s.recorded t' id' + if t' = t ∧ id' = id then value else 0 }

def advance (w : ι) : BatchState ι :=
  match s.phase w with
  | .checking [] => s.goto w .finished
  | .checking (t :: rest) =>
    -- the first map that is not empty ends the loop
    if (s.stores t).rows = [] then s.goto w (.checking rest) else s.goto w (.taking BatchType.all)
  | .taking [] => s.goto w .finished
  | .taking (t :: rest) =>
    { s with stores := Function.update s.stores t .empty }.goto w (.writing t (s.stores t) rest)
  | .writing _ m rest => if m.rows = [] then s.goto w (.taking rest) else s
  | .finished => s

/-- **The write of an entry**, which is dropped also on a failure. -/
def write (w : ι) (id : Int) (fault : Option String) : BatchState ι :=
  match s.phase w with
  | .writing t m rest =>
    match m.find? id with
    | none => s
    | some p =>
      { s with db := s.db.tryWrite id p.2 fault t }.goto w (.writing t (m.take id) rest)
  | _ => s

def step : BatchEvent ι → BatchState ι
  | .add t id value => s.addNewRecord t id value
  | .advance w => s.advance w
  | .write w id fault => s.write w id fault

/-- **A write that loses nothing**: it does not fail and its row is there, or it writes a zero. -/
def Writes : BatchEvent ι → Prop
  | .write w id fault =>
    match s.phase w with
    | .writing t m _ =>
      m.value id = 0 ∨ (fault = none ∧ (s.db.get t.column id).isSome)
    | _ => True
  | _ => True

variable [Fintype ι]

def present (t : BatchType) (id : Int) : Int :=
  s.db.value t.column id + (s.stores t).value id + ∑ w, (s.phase w).held t id

/-- **Nothing is lost or written twice**: what has arrived, is pending or held is what was recorded.
-/
def Conserved (db₀ : QuotaColumns) (s : BatchState ι) : Prop :=
  ∀ t id, s.present t id - db₀.value t.column id = s.recorded t id

/-! ## What a step does to the balance -/

section Steps

variable {s} {w : ι} {db₀ : QuotaColumns} {m : Accumulator Int}

theorem sum_held_goto (p : BatchPhase) (t : BatchType) (id : Int) :
    ∑ w', ((s.goto w p).phase w').held t id =
      ∑ w', (s.phase w').held t id - (s.phase w).held t id + p.held t id := by
  have hrest : ∑ w' ∈ univ.erase w, ((s.goto w p).phase w').held t id =
      ∑ w' ∈ univ.erase w, (s.phase w').held t id := by
    refine sum_congr rfl fun w' hw' => ?_
    have hphase : (s.goto w p).phase w' = s.phase w' :=
      update_of_ne (ne_of_mem_erase hw') ..
    rw [hphase]
  have hw : (s.goto w p).phase w = p := update_self ..
  rw [← add_sum_erase _ _ (mem_univ w),
    ← add_sum_erase _ (fun w' => (s.phase w').held t id) (mem_univ w), hrest, hw]
  ring

theorem present_goto {p : BatchPhase} (t : BatchType) (id : Int)
    (hp : p.held t id = (s.phase w).held t id) : (s.goto w p).present t id = s.present t id := by
  have hsum := sum_held_goto (s := s) (w := w) p t id
  rw [hp, sub_add_cancel] at hsum
  rw [present, hsum]
  rfl

omit [DecidableEq ι] in
theorem present_addNewRecord (t t' : BatchType) (id id' value : Int) :
    (s.addNewRecord t id value).present t' id' =
      s.present t' id' + if t' = t ∧ id' = id then value else 0 := by
  by_cases ht : t' = t
  · subst ht
    simp only [present, addNewRecord, update_self, value_record, true_and]
    ring
  · simp [present, addNewRecord, ht]

theorem present_advance (t : BatchType) (id : Int) :
    (s.advance w).present t id = s.present t id := by
  unfold advance
  cases hphase : s.phase w with
  | checking rest =>
    cases rest with
    | nil => exact present_goto t id (by rw [hphase]; rfl)
    | cons t' rest =>
      simp only
      split <;> exact present_goto t id (by rw [hphase]; rfl)
  | taking rest =>
    cases rest with
    | nil => exact present_goto t id (by rw [hphase]; rfl)
    | cons t' rest =>
      -- the map leaves the store, and the run has it
      have hsum := sum_held_goto (s := { s with stores := update s.stores t' .empty })
        (w := w) (.writing t' (s.stores t') rest) t id
      rw [present, hsum]
      by_cases ht : t = t'
      · subst ht
        simp only [goto, hphase, held, update_self, value_empty, if_true, present]
        ring
      · simp [goto, hphase, held, update_of_ne ht, Ne.symm ht, present]
  | writing t' m rest =>
    simp only
    split
    · rename_i hempty
      refine present_goto t id ?_
      rw [hphase]
      simp [held, value, Table.find?, hempty]
    · rfl
  | finished => rfl

theorem present_write {t : BatchType} {rest : List BatchType}
    (hphase : s.phase w = .writing t m rest) (id : Int) (fault : Option String) (t' : BatchType)
    (id' : Int) : (s.write w id fault).present t' id' =
      s.present t' id' - (if t' = t ∧ id' = id then m.value id else 0) +
        if t' = t ∧ id' = id ∧ fault = none ∧ (s.db.get t.column id).isSome then m.value id
        else 0 := by
  cases hfind : m.find? id with
  | none =>
    -- no such entry, so nothing happens, and its value is zero
    have hzero : m.value id = 0 := by rw [value, hfind]; rfl
    have hsame : s.write w id fault = s := by simp only [write, hphase, hfind]
    simp [hzero, hsame]
  | some p =>
    have hvalue : m.value id = p.2 := by rw [value, hfind]; rfl
    have hheld : (writing t (m.take id) rest).held t' id' =
        (s.phase w).held t' id' - if t' = t ∧ id' = id then m.value id else 0 := by
      rw [hphase]
      simp only [held, value_take]
      by_cases ht : t = t'
      · by_cases hid : id' = id <;> simp [ht, hid]
      · simp [ht, Ne.symm ht]
    have hdb : (s.db.tryWrite id p.2 fault t).value t'.column id' = s.db.value t'.column id' +
          if t' = t ∧ id' = id ∧ fault = none ∧ (s.db.get t.column id).isSome then m.value id
          else 0 := by
      cases fault with
      | none => simp [QuotaColumns.tryWrite, value_batchWrite, hvalue]
      | some text => simp [QuotaColumns.tryWrite]
    have hwrite : s.write w id fault = { s with db := s.db.tryWrite id p.2 fault t }.goto w
          (.writing t (m.take id) rest) := by
      simp [write, hphase, hfind]
    rw [hwrite, present, sum_held_goto, hheld]
    simp only [goto, hdb, present]
    ring

omit [Fintype ι] in
theorem recorded_advance : (s.advance w).recorded = s.recorded := by
  unfold advance goto
  split <;> first | rfl | (split <;> rfl)

omit [Fintype ι] in
theorem recorded_write (id : Int) (fault : Option String) :
    (s.write w id fault).recorded = s.recorded := by
  unfold write goto
  split
  · split <;> rfl
  · rfl

/-- **A write keeps the balance** iff its entry is zero or arrives. -/
theorem conserved_write {t : BatchType} {rest : List BatchType}
    (hs : s.Conserved db₀) (hphase : s.phase w = .writing t m rest) (id : Int)
    (fault : Option String) : (s.write w id fault).Conserved db₀ ↔
      m.value id = 0 ∨ fault = none ∧ (s.db.get t.column id).isSome := by
  simp only [Conserved, recorded_write, present_write hphase]
  constructor
  · intro h
    have h1 := h t id
    have h2 := hs t id
    by_cases hwrites : fault = none ∧ (s.db.get t.column id).isSome
    · exact .inr hwrites
    · simp [hwrites] at h1
      exact .inl (by omega)
  · rintro (hzero | hwrites) t' id'
    · have := hs t' id'
      simp [hzero]
      omega
    · have := hs t' id'
      simp [hwrites.1, hwrites.2]
      omega

/-- **A step keeps the balance** exactly when it is no write that loses something. -/
theorem conserved_step (hs : s.Conserved db₀) (e : BatchEvent ι) :
    (s.step e).Conserved db₀ ↔ s.Writes e := by
  cases e with
  | add t id value =>
    refine iff_of_true (fun t' id' => ?_) trivial
    have := hs t' id'
    rw [step, present_addNewRecord, addNewRecord]
    simp only
    omega
  | advance w =>
    refine iff_of_true (fun t' id' => ?_) trivial
    rw [step, present_advance, recorded_advance]
    exact hs t' id'
  | write w id fault =>
    simp only [step, Writes]
    cases hphase : s.phase w with
    | writing t m rest => exact conserved_write hs hphase id fault
    | checking rest =>
      refine iff_of_true ?_ trivial
      simpa [write, hphase] using hs
    | taking rest =>
      refine iff_of_true ?_ trivial
      simpa [write, hphase] using hs
    | finished =>
      refine iff_of_true ?_ trivial
      simpa [write, hphase] using hs

end Steps

end BatchState

open BatchState in
/-- **Batched updates** are conserved in every interleaving, iff no write of an entry that is not
zero fails or finds its row missing. -/
theorem batch_conserved_iff {ι : Type u} [DecidableEq ι] [Fintype ι] {s : BatchState ι}
    (hstores : ∀ t, s.stores t = .empty) (hphase : ∀ w, s.phase w = .checking BatchType.all)
    (hrecorded : ∀ t id, s.recorded t id = 0) (es : List (BatchEvent ι)) :
    Always (Conserved s.db) step s es ↔ AllSteps Writes step s es := by
  have hinit : s.Conserved s.db := by
    intro t id
    simp [present, hstores, hphase, hrecorded, held]
  exact always_iff_allSteps (P := Conserved s.db) (I := fun _ => True) (A := fun _ _ => True)
    (fun _ e _ hs _ => conserved_step hs e) (fun _ _ _ _ _ _ => trivial) trivial hinit
    (allSteps_of_forall (fun _ _ => trivial) _ _)

def batchStart : BatchState Unit where
  stores := fun _ => .empty
  phase := fun _ => .checking BatchType.all
  db := ⟨fun c id => if c = .userQuota ∧ id = 7 then some 1000 else none⟩
  recorded := fun _ _ => 0

def batchCharge (fault : Option String) : List (BatchEvent Unit) :=
  [.add .userQuota 7 (-30), .advance (), .advance (), .write () 7 fault]

/-- **A charge that is written** is accounted for. -/
theorem batch_conserved_charge : (∀ t, batchStart.stores t = .empty) ∧
      (run BatchState.step batchStart (batchCharge none)).Conserved batchStart.db := by
  have hwrites : AllSteps BatchState.Writes BatchState.step batchStart (batchCharge none) :=
    ⟨trivial, trivial, trivial, .inr ⟨rfl, rfl⟩, trivial⟩
  exact ⟨fun _ => rfl,
    (batch_conserved_iff (fun _ => rfl) (fun _ => rfl) (fun _ _ => rfl) _).mpr hwrites _
      (List.prefix_refl _)⟩

/-- **A charge whose write fails** is gone. -/
theorem batch_charge_lost :
    (run BatchState.step batchStart (batchCharge (some "database is locked"))).recorded
        .userQuota 7 = -30 ∧
      (run BatchState.step batchStart (batchCharge (some "database is locked"))).present
        .userQuota 7 = 1000 := by
  decide

end NomoApi
