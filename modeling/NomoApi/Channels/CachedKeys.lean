import NomoApi.Channels.CacheStatus
import NomoApi.Channels.MultiKey

/-! # The key statuses in the cache and in the database

`UpdateChannelStatus` changes the status of a key twice: in the cached channel, always, and in the
row, only if the channel's own status is not the one asked for. A key that is not in the list counts
as the first one. -/

namespace NomoApi

open Option ChannelInfo Channel ChannelStatus List

/-! ### Status lists with the same entries -/

theorem ChannelInfo.disabledKeys_congr {info info' : ChannelInfo}
    (h : ∀ idx, info.entry idx = info'.entry idx) : info.disabledKeys = info'.disabledKeys := by
  have hmem : ∀ idx, idx ∈ (info.multiKeyStatusList.getD .empty).rows.map Prod.fst ↔
      idx ∈ (info'.multiKeyStatusList.getD .empty).rows.map Prod.fst := by
    intro idx
    rw [← entry_isSome_iff, ← entry_isSome_iff, h idx]
  have hperm := (perm_ext_iff_of_nodup (info.multiKeyStatusList.getD .empty).nodup
    (info'.multiKeyStatusList.getD .empty).nodup).mpr hmem
  unfold disabledKeys
  rw [← length_map Prod.fst, hperm.length_eq, length_map]

structure StatusCall where
  usingKey : String
  status : Int
  reason : String := ""
  cachedAt : Int := 0
  now : Int := 0

def StatusCall.change (jsonArray : String → Option (List String)) (call : StatusCall) (now : Int)
    (ch : Channel) : Channel :=
  ch.handlerMultiKeyUpdate jsonArray call.usingKey call.status call.reason now

namespace Channel

/-- **The same statuses**, of the channel and of its keys. -/
structure SameStatuses (ch ch' : Channel) : Prop where
  status : ch.status = ch'.status
  entry : ∀ idx, ch.channelInfo.entry idx = ch'.channelInfo.entry idx

structure SameKeys (ch ch' : Channel) : Prop where
  id : ch.id = ch'.id
  key : ch.key = ch'.key
  isMultiKey : ch.channelInfo.isMultiKey = ch'.channelInfo.isMultiKey
  multiKeySize : ch.channelInfo.multiKeySize = ch'.channelInfo.multiKeySize

/-- **A multi-key channel loaded from a row**: the statuses. -/
structure LoadedFrom (ch row : Channel) : Prop extends SameKeys ch row where
  multi : row.channelInfo.isMultiKey = true
  same : ch.SameStatuses row

variable {jsonArray : String → Option (List String)} {ch ch' ch'' row : Channel}

theorem SameStatuses.refl (ch : Channel) : ch.SameStatuses ch := ⟨rfl, fun _ => rfl⟩

theorem SameStatuses.symm (h : ch.SameStatuses ch') : ch'.SameStatuses ch :=
  ⟨h.status.symm, fun idx => (h.entry idx).symm⟩

theorem SameStatuses.trans (h : ch.SameStatuses ch') (h' : ch'.SameStatuses ch'') :
    ch.SameStatuses ch'' :=
  ⟨h.status.trans h'.status, fun idx => (h.entry idx).trans (h'.entry idx)⟩

theorem SameKeys.refl (ch : Channel) : ch.SameKeys ch := ⟨rfl, rfl, rfl, rfl⟩

theorem SameKeys.symm (h : ch.SameKeys ch') : ch'.SameKeys ch :=
  ⟨h.id.symm, h.key.symm, h.isMultiKey.symm, h.multiKeySize.symm⟩

theorem SameKeys.trans (h : ch.SameKeys ch') (h' : ch'.SameKeys ch'') : ch.SameKeys ch'' :=
  ⟨h.id.trans h'.id, h.key.trans h'.key, h.isMultiKey.trans h'.isMultiKey,
    h.multiKeySize.trans h'.multiKeySize⟩

theorem SameKeys.getKeys (h : ch.SameKeys row) : ch.getKeys jsonArray = row.getKeys jsonArray := by
  unfold Channel.getKeys
  rw [h.key]

variable (jsonArray)

/-- **At most the named key has another status**; nothing changes for a key not in the list. -/
structure ChangesOnly (usingKey : String) (ch ch' : Channel) : Prop where
  others : ∀ idx : Int, (¬ ∃ i : Nat, idx = i ∧ (ch.getKeys jsonArray)[i]? = some usingKey) →
    ch'.channelInfo.entry idx = ch.channelInfo.entry idx
  unknown : usingKey ∉ ch.getKeys jsonArray → ch'.SameStatuses ch

/-- **There is nothing to change**: the key has the status, and the channel is disabled if all its
keys are listed. -/
def Settled (ch : Channel) (call : StatusCall) : Prop :=
  if ch.getKeys jsonArray = [] then ch.status = call.status
  else
    ch.channelInfo.entry (ch.keyIndex jsonArray call.usingKey) =
        (if call.status = enabled then none else some call.status) ∧
      (ch.channelInfo.disabledKeys ≥ ch.channelInfo.multiKeySize →
        ch.status = autoDisabled)
deriving Decidable

variable {jsonArray}

/-! ### The change of one key -/

variable (call : StatusCall) (now : Int)

theorem entry_change (ch : Channel) (idx : Int) :
    (call.change jsonArray now ch).channelInfo.entry idx =
      if ch.getKeys jsonArray ≠ [] ∧ idx = ch.keyIndex jsonArray call.usingKey then
        if call.status = enabled then none else some call.status
      else ch.channelInfo.entry idx := by
  unfold StatusCall.change handlerMultiKeyUpdate
  by_cases hkeys : ch.getKeys jsonArray = []
  · rw [if_pos hkeys, if_neg fun h => h.1 hkeys]
  · have hinfo : ∀ info : ChannelInfo, (if info.disabledKeys ≥ info.multiKeySize then
        { ch with channelInfo := info, status := autoDisabled }
        else { ch with channelInfo := info } : Channel).channelInfo = info := by
      intro info
      split <;> rfl
    rw [if_neg hkeys]
    simp only [hinfo, entry_setKeyStatus, ne_eq, hkeys, not_false_eq_true, true_and]

theorem sameKeys_change (ch : Channel) : (call.change jsonArray now ch).SameKeys ch := by
  unfold StatusCall.change handlerMultiKeyUpdate
  split
  · exact ⟨rfl, rfl, rfl, rfl⟩
  · unfold setKeyStatus
    dsimp only
    split <;> split <;> exact ⟨rfl, rfl, rfl, rfl⟩

theorem LoadedFrom.change (h : ch.LoadedFrom row) (now' : Int) :
    (call.change jsonArray now ch).SameStatuses (call.change jsonArray now' row) := by
  have hkeys : ch.getKeys jsonArray = row.getKeys jsonArray := h.getKeys
  have hindex : ch.keyIndex jsonArray call.usingKey = row.keyIndex jsonArray call.usingKey := by
    rw [keyIndex, keyIndex, hkeys]
  constructor
  · have hcount := disabledKeys_congr fun idx => show
        (ch.channelInfo.setKeyStatus (row.keyIndex jsonArray call.usingKey) call.status call.reason
          now).entry idx = (row.channelInfo.setKeyStatus (row.keyIndex jsonArray call.usingKey)
            call.status call.reason now').entry idx by
      rw [entry_setKeyStatus, entry_setKeyStatus, h.same.entry]
    rw [StatusCall.change, StatusCall.change, status_handlerMultiKeyUpdate,
      status_handlerMultiKeyUpdate, hkeys, hindex, hcount, h.multiKeySize, h.same.status]
  · intro idx
    rw [entry_change, entry_change, hkeys, hindex, h.same.entry]

theorem same_change_iff (ch : Channel) :
    (call.change jsonArray now ch).SameStatuses ch ↔ ch.Settled jsonArray call := by
  have hstatus := ch.status_handlerMultiKeyUpdate jsonArray call.usingKey call.status call.reason
    now
  have hentry := @entry_change jsonArray call now ch
  unfold StatusCall.change at hentry ⊢
  unfold Settled
  by_cases hkeys : ch.getKeys jsonArray = []
  · rw [if_pos hkeys] at hstatus ⊢
    refine ⟨fun h => h.status.symm.trans hstatus, fun h => ⟨hstatus.trans h.symm, fun idx => ?_⟩⟩
    rw [hentry, if_neg fun h => h.1 hkeys]
  · rw [if_neg hkeys] at hstatus ⊢
    -- with the same entries the list is as long as before
    have hcount : (∀ idx, (ch.handlerMultiKeyUpdate jsonArray call.usingKey call.status call.reason
        now).channelInfo.entry idx = ch.channelInfo.entry idx) →
        (ch.channelInfo.setKeyStatus (ch.keyIndex jsonArray call.usingKey) call.status call.reason
          now).disabledKeys = ch.channelInfo.disabledKeys := by
      intro hsame
      refine disabledKeys_congr fun idx => ?_
      rw [entry_setKeyStatus, ← hsame, hentry]
      simp only [ne_eq, hkeys, not_false_eq_true, true_and]
      split <;> rfl
    constructor
    · intro h
      constructor
      · rw [← h.entry, hentry, if_pos ⟨hkeys, rfl⟩]
      · intro hfull
        rw [← h.status, hstatus, hcount h.entry, if_pos hfull]
    · rintro ⟨hasked, hfull⟩
      have hsame : ∀ idx, (ch.handlerMultiKeyUpdate jsonArray call.usingKey call.status call.reason
          now).channelInfo.entry idx = ch.channelInfo.entry idx := by
        intro idx
        rw [hentry]
        split
        · rename_i hidx
          rw [hidx.2, hasked]
        · rfl
      refine ⟨?_, hsame⟩
      rw [hstatus, hcount hsame]
      split
      · rename_i hge
        exact (hfull hge).symm
      · rfl

theorem changesOnly_change (hmem : call.usingKey ∈ ch.getKeys jsonArray) :
    ch.ChangesOnly jsonArray call.usingKey (call.change jsonArray now ch) := by
  refine ⟨fun idx hidx => ?_, fun hunknown => absurd hmem hunknown⟩
  rw [entry_change, if_neg]
  rintro ⟨-, rfl⟩
  refine hidx ⟨_, rfl, ?_⟩
  cases hfound : (ch.getKeys jsonArray).idxOf? call.usingKey with
  | none => exact absurd hmem (idxOf?_eq_none_iff.mp hfound)
  | some i =>
    obtain ⟨hi, hkey, -⟩ := idxOf?_eq_some_iff.mp hfound
    rw [getD_some, getElem?_eq_getElem hi, hkey]

theorem SameStatuses.changesOnly (h : ch'.SameStatuses ch) (usingKey : String) :
    ch.ChangesOnly jsonArray usingKey ch' :=
  ⟨fun idx _ => h.entry idx, fun _ => h⟩

end Channel

/-! ### The call with the cache on -/

structure ChannelStores where
  cache : ChannelCache
  db : ChannelDb

namespace ChannelStores

variable (jsonArray : String → Option (List String)) (channelId : Int)

def updateCache (c : ChannelCache) (call : StatusCall) : ChannelCache :=
  match c.channelsIDM.find? channelId with
  | none => c
  | some ch =>
    if ch.channelInfo.isMultiKey then
      { c with
        channelsIDM := c.channelsIDM.updateWhere (fun ch => ch.id = channelId)
          (call.change jsonArray call.cachedAt)
          (fun ch => (Channel.sameKeys_change call call.cachedAt ch).id) }
    else if ch.status = call.status then c
    else c.cacheUpdateChannelStatus channelId call.status

def cached (c : ChannelCache) : CachedChannel :=
  match c.channelsIDM.find? channelId with
  | none => .absent
  | some ch => .present ch

def updateChannelStatus (s : ChannelStores) (call : StatusCall) : ChannelStores where
  cache := updateCache jsonArray channelId s.cache call
  db := (s.db.updateChannelStatus jsonArray (cached channelId s.cache) channelId call.usingKey
    call.status call.reason call.now).2

structure Holds (s : ChannelStores) (ch row : Channel) : Prop where
  cached : s.cache.channelsIDM.find? channelId = some ch
  stored : s.db.channels.find? channelId = some row

/-- **A call keeps the statuses** of cached channel and row the same, and changes only the named
key. -/
def KeepsStatuses (s : ChannelStores) (call : StatusCall) : Prop :=
  ∃ ch row ch' row', s.Holds channelId ch row ∧
    (s.updateChannelStatus jsonArray channelId call).Holds channelId ch' row' ∧
    ch'.SameStatuses row' ∧ ch.ChangesOnly jsonArray call.usingKey ch' ∧
    row.ChangesOnly jsonArray call.usingKey row'

/-- **The condition**: nothing is to be changed if the channel has the status asked for, or the key
is not in the list. -/
def KeyInLine (s : ChannelStores) (call : StatusCall) : Prop :=
  ∃ row, s.db.channels.find? channelId = some row ∧
    (row.status = call.status ∨ call.usingKey ∉ row.getKeys jsonArray →
      row.Settled jsonArray call)
deriving Decidable

variable {jsonArray channelId} {s : ChannelStores} {ch row : Channel} {call : StatusCall}

theorem KeepsStatuses.entry_eq (h : s.KeepsStatuses jsonArray channelId call) (idx : Int) :
    let s' := s.updateChannelStatus jsonArray channelId call
    (s'.cache.channelsIDM.find? channelId).map (fun ch => ch.channelInfo.entry idx) =
      (s'.db.channels.find? channelId).map fun row => row.channelInfo.entry idx := by
  obtain ⟨-, -, ch', row', -, hnext, hsame, -, -⟩ := h
  dsimp only
  rw [hnext.cached, hnext.stored, map_some, map_some, hsame.entry]

theorem KeepsStatuses.stored_eq (h : s.KeepsStatuses jsonArray channelId call)
    (hrow : s.db.channels.find? channelId = some row)
    (hunknown : call.usingKey ∉ row.getKeys jsonArray) (idx : Int) :
    ((s.updateChannelStatus jsonArray channelId call).db.channels.find? channelId).map
        (fun row => row.channelInfo.entry idx) = some (row.channelInfo.entry idx) := by
  obtain ⟨ch, row₀, ch', row', hs, hnext, -, -, honly⟩ := h
  obtain rfl : row = row₀ := some.inj (hrow.symm.trans hs.stored)
  rw [hnext.stored, map_some, (honly.unknown hunknown).entry]

theorem holds_updateChannelStatus (hs : s.Holds row.id ch row) (hid : row.id ≠ 0)
    (h : ch.LoadedFrom row) (call : StatusCall) :
    (s.updateChannelStatus jsonArray row.id call).Holds row.id
      (call.change jsonArray call.cachedAt ch)
      (if row.status = call.status then row else call.change jsonArray call.now row) := by
  have hmulti : ch.channelInfo.isMultiKey = true := h.isMultiKey.trans h.multi
  constructor
  · have hfind := s.cache.channelsIDM.find?_updateWhere (fun ch => decide (ch.id = row.id))
      (call.change jsonArray call.cachedAt)
      (fun ch => (Channel.sameKeys_change call call.cachedAt ch).id)
    unfold updateChannelStatus updateCache
    simp only [hs.cached, if_pos hmulti]
    refine (hfind row.id).trans ?_
    rw [hs.cached, map_some, h.id, if_pos (decide_eq_true rfl)]
  · have hstops : (cached row.id s.cache).stops call.status = false := by
      rw [cached, hs.cached, CachedChannel.stops, hmulti]
      rfl
    have hfind := s.db.find?_updateChannelStatus jsonArray hs.stored hid (cached row.id s.cache)
      call.usingKey call.status call.reason call.now
    refine hfind.trans (congrArg some ?_)
    rw [hstops]
    simp only [Bool.false_eq_true, false_or, ChannelDb.withStatus, if_pos h.multi]
    rfl

theorem Holds.unique {ch' row' : Channel} (h : s.Holds channelId ch row)
    (h' : s.Holds channelId ch' row') : ch = ch' ∧ row = row' :=
  ⟨some.inj (h.cached.symm.trans h'.cached), some.inj (h.stored.symm.trans h'.stored)⟩

section

variable (hs : s.Holds row.id ch row) (hid : row.id ≠ 0) (h : ch.LoadedFrom row)

include hs hid h

theorem keepsStatuses_iff (call : StatusCall) :
    s.KeepsStatuses jsonArray row.id call ↔ s.KeyInLine jsonArray row.id call := by
  have hnext : (s.updateChannelStatus jsonArray row.id call).Holds row.id _ _ :=
    holds_updateChannelStatus hs hid h call
  have hboth := @LoadedFrom.change jsonArray ch row call call.cachedAt h call.now
  have hsettled := @same_change_iff jsonArray call call.now row
  constructor
  · rintro ⟨ch₀, row₀, ch', row', hs₀, hnext₀, hsame, honly, -⟩
    obtain ⟨rfl, rfl⟩ := hs.unique hs₀
    obtain ⟨rfl, rfl⟩ := hnext.unique hnext₀
    refine ⟨row, hs.stored, fun hcase => hsettled.mp (hboth.symm.trans ?_)⟩
    rcases hcase with hstatus | hunknown
    · -- the row stays, so the cached channel has stayed as well
      rwa [if_pos hstatus] at hsame
    · rw [← h.getKeys] at hunknown
      exact (honly.unknown hunknown).trans h.same
  · rintro ⟨row₀, hrow₀, hline⟩
    obtain rfl : row = row₀ := some.inj (hs.stored.symm.trans hrow₀)
    refine ⟨ch, row, _, _, hs, hnext, ?_⟩
    by_cases hcase : row.status = call.status ∨ call.usingKey ∉ row.getKeys jsonArray
    · -- nothing changes, whether or not the row is written
      have hrow := hsettled.mpr (hline hcase)
      have hch := hboth.trans (hrow.trans h.same.symm)
      have hstored : (if row.status = call.status then row
          else call.change jsonArray call.now row).SameStatuses row := by
        split
        · exact .refl row
        · exact hrow
      exact ⟨hch.trans (h.same.trans hstored.symm), hch.changesOnly _, hstored.changesOnly _⟩
    · -- the same change of a key that is in the list
      rw [not_or, not_not] at hcase
      rw [if_neg hcase.1]
      refine ⟨hboth, changesOnly_change _ _ ?_, changesOnly_change _ _ hcase.2⟩
      rw [h.getKeys]
      exact hcase.2

theorem loadedFrom_of_keepsStatuses (hkeeps : s.KeepsStatuses jsonArray row.id call) :
    ∃ ch' row', row'.id = row.id ∧
      (s.updateChannelStatus jsonArray row.id call).Holds row.id ch' row' ∧
      ch'.LoadedFrom row' := by
  obtain ⟨-, -, ch', row', -, hnext, hsame, -, -⟩ := hkeeps
  obtain ⟨rfl, hrow'⟩ := (holds_updateChannelStatus hs hid h call).unique hnext
  have hkeys : row'.SameKeys row := by
    rw [← hrow']
    split
    · exact .refl row
    · exact sameKeys_change call call.now row
  refine ⟨_, row', hkeys.id, hnext, ?_, hkeys.isMultiKey.trans h.multi, hsame⟩
  exact (sameKeys_change call call.cachedAt ch).trans (h.toSameKeys.trans hkeys.symm)

end

end ChannelStores

/-- **The statuses are kept along a whole run** from a cached channel loaded from its row, iff every
call meets its condition. -/
theorem statuses_kept_iff {jsonArray : String → Option (List String)} {s : ChannelStores}
    {ch row : Channel} (hid : row.id ≠ 0) (hs : s.Holds row.id ch row) (h : ch.LoadedFrom row)
    (calls : List StatusCall) : AllSteps (ChannelStores.KeepsStatuses jsonArray row.id)
        (ChannelStores.updateChannelStatus jsonArray row.id) s calls ↔
      AllSteps (ChannelStores.KeyInLine jsonArray row.id)
        (ChannelStores.updateChannelStatus jsonArray row.id) s calls := by
  refine allSteps_congr (I := fun s => ∃ ch' row', row'.id = row.id ∧ s.Holds row.id ch' row' ∧
    ch'.LoadedFrom row') ?_ ?_ ⟨ch, row, rfl, hs, h⟩ calls
  · rintro s call ⟨ch', row', hrow', hs', h'⟩ hline
    rw [← hrow'] at hid hs' hline ⊢
    exact ChannelStores.loadedFrom_of_keepsStatuses hs' hid h'
      ((ChannelStores.keepsStatuses_iff hs' hid h' call).mpr hline)
  · rintro s call ⟨ch', row', hrow', hs', h'⟩
    rw [← hrow'] at hid hs' ⊢
    exact ChannelStores.keepsStatuses_iff hs' hid h' call

open ChannelStores

/-! ### A channel with two keys -/

def cachedPair : Channel where
  id := 1
  key := "a\nb"
  status := enabled
  channelInfo := { isMultiKey := true, multiKeySize := 2 }

def ChannelStores.pair : ChannelStores where
  cache := ⟨.empty, .singleton cachedPair⟩
  db := ⟨.singleton cachedPair, .empty⟩

def StatusCall.fails (usingKey : String) : StatusCall where
  usingKey := usingKey
  status := autoDisabled

def StatusCall.passes (usingKey : String) : StatusCall where
  usingKey := usingKey
  status := enabled

/-- **Both keys fail, one after the other.** -/
theorem statuses_kept_pair : pair.Holds 1 cachedPair cachedPair ∧
      AllSteps (KeepsStatuses (fun _ => none) 1) (updateChannelStatus (fun _ => none) 1) pair
        [.fails "a", .fails "b"] := by
  have hs : pair.Holds 1 cachedPair cachedPair := ⟨rfl, rfl⟩
  refine ⟨hs, (@statuses_kept_iff _ _ _ cachedPair (by decide) hs ?_ _).mpr ?_⟩
  · exact ⟨.refl _, rfl, .refl _⟩
  · decide +kernel

/-- **A key that failed passes a test** and is enabled in the cache only. **For a key that is not in
the list** the first key is disabled. -/
theorem statuses_not_kept : ¬ AllSteps (KeepsStatuses (fun _ => none) 1)
        (updateChannelStatus (fun _ => none) 1) pair
        [.fails "a", .passes "a"] ∧ ¬ AllSteps (KeepsStatuses (fun _ => none) 1)
        (updateChannelStatus (fun _ => none) 1) pair [.fails "c"] := by
  constructor
  · rintro ⟨-, hpasses, -⟩
    exact absurd (hpasses.entry_eq 0) (by decide +kernel)
  · rintro ⟨hfails, -⟩
    have hkept := @KeepsStatuses.stored_eq _ _ _ cachedPair _ hfails rfl (by decide +kernel) 0
    exact absurd hkept (by decide +kernel)

end NomoApi
