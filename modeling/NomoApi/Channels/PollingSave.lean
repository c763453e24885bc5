import NomoApi.Channels.MultiKey
import NomoApi.Lib.Interleave

/-! # Key selections and status changes side by side

With the memory cache off, a key selection works on a row of its own, and in the polling mode writes
the multi-key part back. The polling lock is taken after the row was loaded, so a key that
`UpdateChannelStatus` disables in between is enabled again. -/

namespace NomoApi

open ChannelStatus

universe u

inductive KeyCall
  | select (hashHint : Int) (draw : Nat)
  | autoDisable (usingKey reason : String) (now : Int)

def KeyCall.selects : KeyCall → Bool
  | .select _ _ => true
  | .autoDisable _ _ _ => false

inductive KeyPhase
  | start
  | loaded (channel : Channel)
  | locked (channel : Channel)
  | changed (channel : Channel) (abilities : Bool)
  | saved (abilities : Bool)
  | done

def KeyPhase.channel? : KeyPhase → Option Channel
  | .loaded channel | .locked channel | .changed channel _ => some channel
  | .start | .saved _ | .done => none

def KeyPhase.isChanged : KeyPhase → Bool
  | .changed _ _ => true
  | _ => false

structure KeyShared (ι : Type u) where
  db : ChannelDb
  pollingLock : Option ι

def ChannelDb.saveChannelInfo (db : ChannelDb) (ch : Channel) : ChannelDb :=
  if ch.id = 0 then db
  else
    { db with
      channels := db.channels.updateWhere (fun row => row.id = ch.id)
        (fun row => { row with channelInfo := ch.channelInfo }) fun _ => rfl }

namespace KeyCall

variable {ι : Type u} (jsonArray : String → Option (List String)) (channelId : Int)

def nextSelect (i : ι) (hashHint : Int) (draw : Nat) (s : KeyShared ι) :
    KeyPhase → KeyShared ι × KeyPhase
  | .start =>
    match s.db.channels.find? channelId with
    | none => (s, .done)
    | some channel => (s, .loaded channel)
  | .loaded channel =>
    if !channel.channelInfo.isMultiKey ∨ channel.getKeys jsonArray = [] then (s, .done)
    else if s.pollingLock = none then ({ s with pollingLock := some i }, .locked channel)
    else (s, .loaded channel)
  | .locked channel =>
    -- The place in the turn is read again, the statuses are not.
    let pollingIndex := match s.db.channels.find? channel.id with
      | none => .error "record not found"
      | some row => .ok row.channelInfo.multiKeyPollingIndex
    match channel.getNextEnabledKeyWithHint jsonArray hashHint ⟨draw, pollingIndex⟩ with
    | (.error _, _) => ({ s with pollingLock := none }, .done)
    | (.ok _, channel') =>
      if channel.channelInfo.multiKeyMode = .polling then (s, .changed channel' false)
      else ({ s with pollingLock := none }, .done)
  | .changed channel _ => ({ s with db := s.db.saveChannelInfo channel }, .saved false)
  | .saved _ => ({ s with pollingLock := none }, .done)
  | .done => (s, .done)

/-- The next step of `UpdateChannelStatus`; the lock is released before the save. -/
def nextAutoDisable (i : ι) (usingKey reason : String) (now : Int) (s : KeyShared ι) :
    KeyPhase → KeyShared ι × KeyPhase
  | .start =>
    match s.db.channels.find? channelId with
    | none => (s, .done)
    | some channel =>
      if channel.status = autoDisabled then (s, .done) else (s, .loaded channel)
  | .loaded channel =>
    if channel.channelInfo.isMultiKey then
      if s.pollingLock = none then ({ s with pollingLock := some i }, .locked channel)
      else (s, .loaded channel)
    else
      (s, .changed (ChannelDb.withStatus jsonArray channel usingKey autoDisabled
        reason now) true)
  | .locked channel =>
    let channel' := ChannelDb.withStatus jsonArray channel usingKey autoDisabled
      reason now
    ({ s with pollingLock := none }, .changed channel' (channel.status ≠ channel'.status))
  | .changed channel abilities =>
    match ChannelDb.saveWithoutKey s.db.channels channel with
    | none => (s, .saved abilities)
    | some channels => ({ s with db := { s.db with channels } }, .saved abilities)
  | .saved abilities =>
    if abilities then
      ({ s with
        db := { s.db with abilities := updateAbilityStatus channelId false s.db.abilities } },
        .done)
    else (s, .done)
  | .done => (s, .done)

def next (i : ι) (call : KeyCall) (s : KeyShared ι) (phase : KeyPhase) : KeyShared ι × KeyPhase :=
  match call with
  | .select hashHint draw => nextSelect jsonArray channelId i hashHint draw s phase
  | .autoDisable usingKey reason now =>
    nextAutoDisable jsonArray channelId i usingKey reason now s phase

end KeyCall

section

variable {ι : Type u} [DecidableEq ι] (jsonArray : String → Option (List String)) (channelId : Int)
  (calls : ι → KeyCall)

/-- **The calls side by side**: an event is the next step of one of them. -/
def keyCallStep : Processes (KeyShared ι) ι KeyPhase → ι → Processes (KeyShared ι) ι KeyPhase :=
  interleave id fun i => (calls i).next jsonArray channelId i

def keyCallsStart (db : ChannelDb) : Processes (KeyShared ι) ι KeyPhase :=
  ⟨⟨db, none⟩, fun _ => .start⟩

def ChannelDb.keyStatus (db : ChannelDb) (idx : Int) : Option Int :=
  (db.channels.find? channelId).map fun row => row.channelInfo.keyStatus idx

/-- **A step of a selection enables no key.** -/
def SelectionKeeps (p : Processes (KeyShared ι) ι KeyPhase) (i : ι) : Prop :=
  (calls i).selects = true → ∀ idx,
    p.shared.db.keyStatus channelId idx = some autoDisabled →
      (keyCallStep jsonArray channelId calls p i).shared.db.keyStatus channelId idx =
        some autoDisabled

/-- **The condition**: `UpdateChannelStatus` saves a channel only while no selection has an
unwritten row in memory. -/
def SavedApart (p : Processes (KeyShared ι) ι KeyPhase) (i : ι) : Prop :=
  (calls i).selects = false → (p.phase i).isChanged = true →
    ∀ j, (calls j).selects = true → (p.phase j).channel? = none

instance [Fintype ι] (p : Processes (KeyShared ι) ι KeyPhase) (i : ι) :
    Decidable (SavedApart calls p i) :=
  inferInstanceAs (Decidable (_ → _ → ∀ j, (calls j).selects = true → (p.phase j).channel? = none))

end

open KeyCall

/-! ### What one step does -/

section

variable {ι : Type u} {jsonArray : String → Option (List String)} {channelId : Int}
  {db : ChannelDb} {ch ch' : Channel} {call : KeyCall} {i : ι} {s : KeyShared ι} {phase : KeyPhase}

theorem Channel.pick_frame (ch : Channel) (hashHint : Int) (pick : KeyPick) :
    ∃ next, (ch.getNextEnabledKeyWithHint jsonArray hashHint pick).2 =
      { ch with channelInfo := { ch.channelInfo with multiKeyPollingIndex := next } } := by
  by_cases hmulti : ch.channelInfo.isMultiKey = true
  · rcases pick_cases jsonArray hmulti hashHint pick with ⟨⟨e, he⟩, -⟩ | ⟨⟨idx, -, next, heq⟩, -⟩
    · exact ⟨_, congrArg Prod.snd he⟩
    · exact ⟨next, congrArg Prod.snd heq⟩
  · rw [getNextEnabledKeyWithHint, if_pos (by simp [hmulti])]
    exact ⟨_, rfl⟩

/-- **The statuses that a selection has in memory are those of the row.** -/
structure Channel.Fresh (channelId : Int) (db : ChannelDb) (ch : Channel) : Prop where
  id : ch.id = channelId
  entry : ∃ row, db.channels.find? channelId = some row ∧
    ∀ idx, ch.channelInfo.entry idx = row.channelInfo.entry idx

theorem Channel.fresh_of_find? (h : db.channels.find? channelId = some ch) :
    ch.Fresh channelId db :=
  ⟨(Table.find?_eq_some.mp h).2, ch, h, fun _ => rfl⟩

theorem Channel.Fresh.saveChannelInfo (h : ch.Fresh channelId db) (h' : ch'.Fresh channelId db) :
    ch.Fresh channelId (db.saveChannelInfo ch') := by
  unfold ChannelDb.saveChannelInfo
  by_cases hid : ch'.id = 0
  · rw [if_pos hid]
    exact h
  rw [if_neg hid]
  obtain ⟨row, hrow, hentry⟩ := h.entry
  obtain ⟨row', hrow', hentry'⟩ := h'.entry
  obtain rfl : row = row' := Option.some.inj (hrow.symm.trans hrow')
  have hids : row.id = ch'.id := (Table.find?_eq_some.mp hrow).2.trans h'.id.symm
  have hfind := db.channels.find?_updateWhere (fun row => decide (row.id = ch'.id))
    (fun row => { row with channelInfo := ch'.channelInfo }) (fun _ => rfl)
  refine ⟨h.id, { row with channelInfo := ch'.channelInfo }, (hfind channelId).trans ?_,
    fun idx => (hentry idx).trans (hentry' idx).symm⟩
  rw [hrow, Option.map_some, if_pos (decide_eq_true hids)]

theorem KeyCall.fresh_next (h : call.selects = true)
    (hmemory : ∀ ch, phase.channel? = some ch → ch.Fresh channelId s.db) :
    let r := call.next jsonArray channelId i s phase
    (∀ ch : Channel, ch.Fresh channelId s.db → ch.Fresh channelId r.1.db) ∧
      ∀ ch, r.2.channel? = some ch → ch.Fresh channelId r.1.db := by
  -- a step that leaves the database, and ends or keeps what is in memory
  have hdone : (∀ ch : Channel, ch.Fresh channelId s.db → ch.Fresh channelId s.db) ∧
      ∀ ch, KeyPhase.done.channel? = some ch → ch.Fresh channelId s.db :=
    ⟨fun _ h => h, fun ch hch => by cases hch⟩
  cases call with
  | autoDisable usingKey reason now => cases h
  | select hashHint draw =>
  unfold next nextSelect
  cases phase with
  | start =>
    dsimp only
    cases hrow : s.db.channels.find? channelId with
    | none => exact hdone
    | some row =>
      refine ⟨hdone.1, fun ch hch => ?_⟩
      cases hch
      exact Channel.fresh_of_find? hrow
  | loaded channel =>
    dsimp only
    split
    · exact hdone
    · split
      · exact ⟨hdone.1, hmemory⟩
      · exact ⟨hdone.1, hmemory⟩
  | locked channel =>
    obtain ⟨turn, hframe⟩ := @Channel.pick_frame jsonArray channel hashHint ⟨draw,
      match s.db.channels.find? channel.id with
      | none => .error "record not found"
      | some row => .ok row.channelInfo.multiKeyPollingIndex⟩
    dsimp only
    split
    · exact hdone
    · rename_i channel' hpick
      rw [hpick] at hframe
      split
      · refine ⟨hdone.1, fun ch hch => ?_⟩
        obtain rfl : channel' = ch := Option.some.inj hch
        obtain rfl := hframe
        exact ⟨(hmemory channel rfl).id, (hmemory channel rfl).entry⟩
      · exact hdone
  | changed channel abilities =>
    exact ⟨fun _ h => h.saveChannelInfo (hmemory channel rfl), fun ch hch => by cases hch⟩
  | saved abilities => exact hdone
  | done => exact hdone

theorem KeyCall.channels_next (h : call.selects = false) :
    (call.next jsonArray channelId i s phase).1.db.channels = s.db.channels ∨
      phase.isChanged = true := by
  cases call with
  | select hashHint draw => cases h
  | autoDisable usingKey reason now =>
  unfold next nextAutoDisable
  cases phase with
  | changed channel abilities => exact .inr rfl
  | start =>
    refine .inl ?_
    dsimp only
    split
    · rfl
    · split <;> rfl
  | loaded channel =>
    refine .inl ?_
    dsimp only
    split
    · split <;> rfl
    · rfl
  | locked channel => exact .inl rfl
  | saved abilities =>
    refine .inl ?_
    dsimp only
    split <;> rfl
  | done => exact .inl rfl

end

/-! ### Whole runs -/

section

variable {ι : Type u} [DecidableEq ι] {jsonArray : String → Option (List String)}
  {channelId : Int} {calls : ι → KeyCall} {p : Processes (KeyShared ι) ι KeyPhase} {i : ι}

/-- **No selection holds a stale row.** -/
def AllFresh (channelId : Int) (calls : ι → KeyCall) (p : Processes (KeyShared ι) ι KeyPhase) :
    Prop :=
  ∀ j, (calls j).selects = true → ∀ ch, (p.phase j).channel? = some ch →
    ch.Fresh channelId p.shared.db

theorem allFresh_step (h : AllFresh channelId calls p) (hapart : SavedApart calls p i) :
    AllFresh channelId calls (keyCallStep jsonArray channelId calls p i) := by
  refine forall_interleave (J := fun j (s : KeyShared ι) (phase : KeyPhase) =>
    (calls j).selects = true → ∀ ch, phase.channel? = some ch → ch.Fresh channelId s.db) ?_ ?_
  · exact fun hselects => (fresh_next hselects (h i hselects)).2
  · intro j hj hselects ch hch
    cases hi : (calls i).selects with
    | true => exact (fresh_next hi (h i hi)).1 ch (h j hselects ch hch)
    | false =>
      obtain ⟨hid, row, hrow, hentry⟩ := h j hselects ch hch
      rcases channels_next hi with hsame | hchanged
      · exact ⟨hid, row, (congrArg (Table.find? · channelId) hsame).trans hrow, hentry⟩
      · -- no selection has a row in memory when a changed channel is saved
        have hnone := hapart hi hchanged j hselects
        exact absurd (hnone.symm.trans hch) (by simp)

theorem selectionKeeps_of_allFresh (h : AllFresh channelId calls p) :
    SelectionKeeps jsonArray channelId calls p i := by
  intro hselects idx hdisabled
  unfold keyCallStep
  rw [shared_interleave]
  obtain ⟨row, hrow, hstatus⟩ := Option.map_eq_some_iff.mp hdisabled
  obtain ⟨row', hrow', hentry⟩ :=
    ((fresh_next hselects (h i hselects)).1 row (Channel.fresh_of_find? hrow)).entry
  refine (congrArg (Option.map _) hrow').trans ?_
  rw [Option.map_some, ChannelInfo.keyStatus, ← hentry, ← ChannelInfo.keyStatus, hstatus]

/-- **No selection enables a key that was disabled automatically**, in every interleaving that meets
the condition. -/
theorem selections_keep_disabled (db : ChannelDb) {events : List ι}
    (hapart : AllSteps (SavedApart calls) (keyCallStep jsonArray channelId calls)
      (keyCallsStart db) events) :
    AllSteps (SelectionKeeps jsonArray channelId calls) (keyCallStep jsonArray channelId calls)
      (keyCallsStart db) events := by
  refine AllSteps.of_invariant (I := AllFresh channelId calls) (fun p i h hC => allFresh_step h hC)
    (fun p i h _ => selectionKeeps_of_allFresh h) ?_ hapart
  intro j _ ch hch
  cases hch

end

/-! ### One selection and one change -/

def pollingPair : Channel where
  id := 1
  key := "a\nb"
  status := enabled
  channelInfo := { isMultiKey := true, multiKeySize := 2, multiKeyMode := .polling }

def selectionAndFailure : Bool → KeyCall
  | false => .select 0 0
  | true => .autoDisable "a" "" 0

def pollingRun (events : List Bool) : Processes (KeyShared Bool) Bool KeyPhase :=
  run (keyCallStep (fun _ => none) 1 selectionAndFailure)
    (keyCallsStart ⟨.singleton pollingPair, .empty⟩) events

/-- **The key is disabled before the selection loads the row.** -/
theorem selections_keep_disabled_after :
    (pollingRun [true, true, true, true]).shared.db.keyStatus 1 0 = some autoDisabled ∧
      AllSteps (SelectionKeeps (fun _ => none) 1 selectionAndFailure)
        (keyCallStep (fun _ => none) 1 selectionAndFailure)
        (keyCallsStart ⟨.singleton pollingPair, .empty⟩)
        [true, true, true, true, false, false, false, false, false] := by
  refine ⟨by decide +kernel, selections_keep_disabled _ ?_⟩
  decide +kernel

/-- **The key is disabled after the selection has loaded the row**, and enabled again. -/
theorem selection_enables_disabled :
    (pollingRun [false, true, true, true, true, false, false]).shared.db.keyStatus 1 0 =
        some autoDisabled ∧
      (pollingRun [false, true, true, true, true, false, false, false]).shared.db.keyStatus 1 0 =
        some enabled := by
  decide +kernel

end NomoApi
