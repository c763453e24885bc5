import Mathlib.Data.List.Rotate
import NomoApi.Channels.Operations

/-! # The keys of a multi-key channel

The status of each key is kept in `ChannelInfo`, by its index; `GetNextEnabledKeyWithHint`
(`model/channel.go`) picks one of the enabled keys, by chance, by the id of the token, or in turn.
-/

namespace NomoApi

open List Option ChannelStatus

namespace ChannelInfo

variable (info : ChannelInfo) (idx : Int)

def entry : Option Int :=
  ((info.multiKeyStatusList.getD .empty).find? idx).map Prod.snd

/-- **The status of a key** (`getStatus`); the default is enabled. -/
def keyStatus : Int := (info.entry idx).getD enabled

def keyTime : Option Int :=
  ((info.multiKeyDisabledTime.getD .empty).find? idx).map Prod.snd

def keyReason : Option String :=
  ((info.multiKeyDisabledReason.getD .empty).find? idx).map Prod.snd

theorem entry_setKeyStatus (keyIndex status : Int) (reason : String)
    (now idx : Int) : (info.setKeyStatus keyIndex status reason now).entry idx =
      if idx = keyIndex then
        if status = enabled then none else some status else info.entry idx := by
  unfold entry setKeyStatus
  by_cases hstatus : status = enabled
  · simp only [if_pos hstatus, getD_some, Table.find?_erase]
    by_cases hidx : idx = keyIndex
    · rw [if_pos hidx, if_pos hidx, map_none]
    · rw [if_neg hidx, if_neg hidx]
  · simp only [if_neg hstatus, getD_some, Table.find?_put]
    by_cases hidx : idx = keyIndex
    · rw [if_pos hidx, if_pos hidx, map_some]
    · rw [if_neg hidx, if_neg hidx]

theorem entry_isSome_iff {info : ChannelInfo} {idx : Int} : (∃ v, info.entry idx = some v) ↔
      idx ∈ (info.multiKeyStatusList.getD .empty).rows.map Prod.fst := by
  unfold entry
  constructor
  · rintro ⟨v, hv⟩
    obtain ⟨e, he, rfl⟩ := map_eq_some_iff.mp hv
    obtain ⟨hmem, hidx⟩ := Table.find?_eq_some.mp he
    exact mem_map.mpr ⟨e, hmem, hidx⟩
  · intro h
    obtain ⟨e, hmem, hidx⟩ := mem_map.mp h
    exact ⟨e.2, map_eq_some_iff.mpr ⟨e, Table.find?_eq_some.mpr ⟨hmem, hidx⟩, rfl⟩⟩

end ChannelInfo

/-- Why no key can be picked (`NewAPIError`). -/
structure KeyError where
  message : String
  errorCode : String
  skipRetry : Bool
  deriving DecidableEq

structure KeyPick where
  draw : Nat
  /-- The polling index of `CacheGetChannelInfo`, or its error. -/
  pollingIndex : Except String Int

namespace Channel

section Pick

variable (jsonArray : String → Option (List String)) (ch : Channel)

def enabledIdx : List Nat :=
  (List.range (ch.getKeys jsonArray).length).filter fun i =>
    ch.channelInfo.keyStatus i = enabled

def pollStart (size : Nat) (pollingIndex : Int) : Nat :=
  if pollingIndex < 0 ∨ pollingIndex ≥ size then 0 else pollingIndex.toNat

def nextPolled (pollingIndex : Int) : Option Nat :=
  let size := (ch.getKeys jsonArray).length
  ((List.range size).map fun i => (pollStart size pollingIndex + i) % size).find? fun idx =>
    ch.channelInfo.keyStatus idx = enabled

def keyAt (idx : Nat) : String := (ch.getKeys jsonArray).getD idx ""

def getNextEnabledKeyWithHint (hashHint : Int) (pick : KeyPick) :
    Except KeyError (String × Nat) × Channel :=
  if !ch.channelInfo.isMultiKey then (.ok (ch.key, 0), ch)
  else if ch.getKeys jsonArray = [] then
    (.error ⟨"no keys available", "channel:no_available_key", false⟩, ch)
  else
    match ch.enabledIdx jsonArray with
    | [] => (.error ⟨"no enabled keys", "channel:no_available_key", false⟩, ch)
    | first :: rest =>
      let nth := fun n => (first :: rest).getD (n % (first :: rest).length) first
      let picked := fun idx => (.ok (ch.keyAt jsonArray idx, idx), ch)
      match ch.channelInfo.multiKeyMode with
      | .random => picked (nth pick.draw)
      -- without a token the key is a random one
      | .hash => if hashHint ≤ 0 then picked (nth pick.draw) else picked (nth hashHint.toNat)
      | .polling =>
        match pick.pollingIndex with
        | .error message => (.error ⟨message, "get_channel_failed", true⟩, ch)
        | .ok pollingIndex =>
          match ch.nextPolled jsonArray pollingIndex with
          | none => picked first
          | some idx =>
            let next := (idx + 1) % (ch.getKeys jsonArray).length
            (.ok (ch.keyAt jsonArray idx, idx),
              { ch with
                channelInfo := { ch.channelInfo with multiKeyPollingIndex := next } })
      | .unset => picked first

def EnabledKey (key : String) : Prop :=
  ∃ idx : Nat, (ch.getKeys jsonArray)[idx]? = some key ∧
    ch.channelInfo.keyStatus idx = enabled

def TurnKnown (pick : KeyPick) : Prop :=
  ch.channelInfo.multiKeyMode = .polling → ∃ pollingIndex, pick.pollingIndex = .ok pollingIndex

end Pick

variable {jsonArray : String → Option (List String)} {ch : Channel} {idx : Nat}

theorem mem_enabledIdx : idx ∈ ch.enabledIdx jsonArray ↔ idx < (ch.getKeys jsonArray).length ∧
      ch.channelInfo.keyStatus idx = enabled := by
  rw [enabledIdx, mem_filter, mem_range, decide_eq_true_eq]

theorem getElem?_keyAt (h : idx < (ch.getKeys jsonArray).length) :
    (ch.getKeys jsonArray)[idx]? = some (ch.keyAt jsonArray idx) := by
  rw [keyAt, getD_eq_getElem?_getD, getElem?_eq_getElem h, getD_some]

theorem enabledKey_keyAt (h : idx ∈ ch.enabledIdx jsonArray) :
    ch.EnabledKey jsonArray (ch.keyAt jsonArray idx) := by
  obtain ⟨hlt, henabled⟩ := mem_enabledIdx.mp h
  exact ⟨idx, getElem?_keyAt hlt, henabled⟩

theorem exists_enabledKey_iff : (∃ key, ch.EnabledKey jsonArray key) ↔
    ch.enabledIdx jsonArray ≠ [] := by
  constructor
  · rintro ⟨key, idx, hkey, henabled⟩
    exact ne_nil_of_mem (mem_enabledIdx.mpr ⟨(List.getElem?_eq_some_iff.mp hkey).1, henabled⟩)
  · intro h
    obtain ⟨idx, hidx⟩ := List.exists_mem_of_ne_nil _ h
    exact ⟨_, enabledKey_keyAt hidx⟩

theorem mem_enabledIdx_of_nextPolled {pollingIndex : Int}
    (h : ch.nextPolled jsonArray pollingIndex = some idx) : idx ∈ ch.enabledIdx jsonArray := by
  have hmem := mem_of_find?_eq_some h
  have henabled := find?_some h
  obtain ⟨i, hi, rfl⟩ := mem_map.mp hmem
  have hsize : 0 < (ch.getKeys jsonArray).length := Nat.zero_lt_of_lt (mem_range.mp hi)
  exact mem_enabledIdx.mpr ⟨Nat.mod_lt _ hsize, of_decide_eq_true henabled⟩

theorem getD_mod_mem {first : Nat} {rest : List Nat} (n : Nat) :
    (first :: rest).getD (n % (first :: rest).length) first ∈ first :: rest := by
  have hlt : n % (first :: rest).length < (first :: rest).length :=
    Nat.mod_lt _ (Nat.zero_lt_of_ne_zero (by simp))
  rw [getD_eq_getElem?_getD, getElem?_eq_getElem hlt, getD_some]
  exact getElem_mem hlt

theorem pick_cases (jsonArray : String → Option (List String))
    (hmulti : ch.channelInfo.isMultiKey = true) (hashHint : Int) (pick : KeyPick) :
    ((∃ e, ch.getNextEnabledKeyWithHint jsonArray hashHint pick = (.error e, ch)) ∧
        (ch.enabledIdx jsonArray = [] ∨ ¬ ch.TurnKnown pick)) ∨
      (∃ idx ∈ ch.enabledIdx jsonArray, ∃ next,
        ch.getNextEnabledKeyWithHint jsonArray hashHint pick = (.ok (ch.keyAt jsonArray idx, idx),
            { ch with channelInfo := { ch.channelInfo with multiKeyPollingIndex := next } })) ∧
        ch.TurnKnown pick := by
  unfold getNextEnabledKeyWithHint
  rw [hmulti, if_neg (by simp)]
  by_cases hkeys : ch.getKeys jsonArray = []
  · rw [if_pos hkeys]
    refine .inl ⟨⟨_, rfl⟩, .inl ?_⟩
    rw [enabledIdx, hkeys]
    rfl
  rw [if_neg hkeys]
  cases henabled : ch.enabledIdx jsonArray with
  | nil => exact .inl ⟨⟨_, rfl⟩, .inl rfl⟩
  | cons first rest =>
    have hfirst : first ∈ first :: rest := mem_cons_self ..
    unfold TurnKnown
    cases hmode : ch.channelInfo.multiKeyMode with
    | random =>
      exact .inr ⟨⟨_, getD_mod_mem pick.draw, _, rfl⟩, fun h => absurd h (by decide)⟩
    | unset => exact .inr ⟨⟨first, hfirst, _, rfl⟩, fun h => absurd h (by decide)⟩
    | hash =>
      refine .inr ⟨?_, fun h => absurd h (by decide)⟩
      by_cases hhint : hashHint ≤ 0
      · simp only [if_pos hhint]
        exact ⟨_, getD_mod_mem pick.draw, _, rfl⟩
      · simp only [if_neg hhint]
        exact ⟨_, getD_mod_mem hashHint.toNat, _, rfl⟩
    | polling =>
      cases hindex : pick.pollingIndex with
      | error message =>
        refine .inl ⟨⟨_, rfl⟩, .inr fun hknown => ?_⟩
        obtain ⟨_, hok⟩ := hknown rfl
        cases hok
      | ok pollingIndex =>
        refine .inr ⟨?_, fun _ => ⟨_, rfl⟩⟩
        cases hnext : ch.nextPolled jsonArray pollingIndex with
        | none =>
          simp only [hnext]
          exact ⟨first, hfirst, _, rfl⟩
        | some idx =>
          simp only [hnext]
          exact ⟨idx, henabled ▸ mem_enabledIdx_of_nextPolled hnext, _, rfl⟩

theorem enabledKey_of_pick (hmulti : ch.channelInfo.isMultiKey = true) {hashHint : Int}
    {pick : KeyPick} {key : String}
    (h : (ch.getNextEnabledKeyWithHint jsonArray hashHint pick).1 = .ok (key, idx)) :
    ch.EnabledKey jsonArray key := by
  rcases pick_cases jsonArray hmulti hashHint pick with
    ⟨⟨e, he⟩, -⟩ | ⟨⟨idx', hidx, next, heq⟩, -⟩
  · rw [he] at h
    cases h
  · rw [heq] at h
    cases h
    exact enabledKey_keyAt hidx

theorem pick_isOk_iff (hmulti : ch.channelInfo.isMultiKey = true) (hashHint : Int)
    (pick : KeyPick) :
    (∃ key idx, (ch.getNextEnabledKeyWithHint jsonArray hashHint pick).1 = .ok (key, idx)) ↔
      (∃ key, ch.EnabledKey jsonArray key) ∧ ch.TurnKnown pick := by
  rw [exists_enabledKey_iff]
  rcases pick_cases jsonArray hmulti hashHint pick with
    ⟨⟨e, he⟩, hwhy⟩ | ⟨⟨idx, hidx, next, heq⟩, hknown⟩
  · rw [he]
    refine iff_of_false ?_ fun h => hwhy.elim h.1 fun hno => hno h.2
    rintro ⟨_, _, h⟩
    cases h
  · rw [heq]
    exact iff_of_true ⟨_, _, rfl⟩ ⟨ne_nil_of_mem hidx, hknown⟩

/-! ### Polling -/

/-- **Calls one after another** on a channel that the memory cache holds: the polling index is read
where the last call has left it. -/
def pollKeys (jsonArray : String → Option (List String)) (ch : Channel) :
    List (Int × Nat) → List (Except KeyError (String × Nat))
  | [] => []
  | (hashHint, draw) :: calls =>
    let (key, ch) := ch.getNextEnabledKeyWithHint jsonArray hashHint
      ⟨draw, .ok ch.channelInfo.multiKeyPollingIndex⟩
    key :: ch.pollKeys jsonArray calls

/-- **The enabled positions in their cyclic order** from the polling index on. -/
def turns (jsonArray : String → Option (List String)) (ch : Channel) : List Nat :=
  let size := (ch.getKeys jsonArray).length
  ((List.range size).map fun i =>
      (pollStart size ch.channelInfo.multiKeyPollingIndex + i) % size).filter
    fun idx => ch.channelInfo.keyStatus idx = enabled

theorem pollStart_natCast {size n : Nat} (h : n < size) : pollStart size n = n := by
  rw [pollStart, if_neg (by omega), Int.toNat_natCast]

theorem map_add_mod_range (n s : Nat) :
    (List.range n).map (fun i => (s + i) % n) = (List.range n).rotate s := by
  refine List.ext_getElem (by simp) fun i _ _ => ?_
  simp [getElem_rotate, Nat.add_comm]

/-- After the first position of a rotated range that passes, the others come first. -/
theorem filter_rotate_succ {n s x : Nat} {rest : List Nat} {p : Nat → Bool}
    (h : ((List.range n).rotate s).filter p = x :: rest) :
    ((List.range n).rotate ((x + 1) % n)).filter p = rest ++ [x] := by
  obtain ⟨before, after, hsplit, hbefore, hx, rfl⟩ := filter_eq_cons_iff.mp h
  have hlen : before.length < n := by
    have hlength := congrArg List.length hsplit
    simp at hlength
    omega
  have hpos : (before.length + s) % n = x := by
    have hget := getElem?_rotate (l := List.range n) (n := s) (by simpa using hlen)
    rw [hsplit, getElem?_append_right le_rfl] at hget
    simpa [getElem?_range (Nat.mod_lt _ (Nat.zero_lt_of_lt hlen))] using hget.symm
  have hmod : ∀ k, (List.range n).rotate (k % n) = (List.range n).rotate k := fun k => by
    simpa using rotate_mod (List.range n) k
  have hrotate : (List.range n).rotate ((before.length + s) % n) = x :: after ++ before := by
    rw [hmod, Nat.add_comm, ← rotate_rotate, hsplit, rotate_append_length_eq]
  rw [hpos] at hrotate
  rw [hmod, ← rotate_rotate, hrotate]
  simp [hx, filter_eq_nil_iff.mpr hbefore]

theorem turns_perm : (ch.turns jsonArray).Perm (ch.enabledIdx jsonArray) := by
  simp only [turns, enabledIdx, map_add_mod_range]
  exact (rotate_perm _ _).filter _

section

variable (hmulti : ch.channelInfo.isMultiKey = true)
  (hmode : ch.channelInfo.multiKeyMode = .polling)

include hmulti hmode

/-- **One call takes the first turn** and leaves the others, with the first behind them. -/
theorem turns_step {rest : List Nat} (h : ch.turns jsonArray = idx :: rest) (hashHint : Int)
    (draw : Nat) : ∃ info, ch.getNextEnabledKeyWithHint jsonArray hashHint
          ⟨draw, .ok ch.channelInfo.multiKeyPollingIndex⟩ =
        (.ok (ch.keyAt jsonArray idx, idx), { ch with channelInfo := info }) ∧
      info.isMultiKey = true ∧ info.multiKeyMode = .polling ∧
      ({ ch with channelInfo := info } : Channel).turns jsonArray = rest ++ [idx] := by
  have hmem : idx ∈ ch.enabledIdx jsonArray := turns_perm.mem_iff.mp (h ▸ mem_cons_self)
  have hsize : 0 < (ch.getKeys jsonArray).length := Nat.zero_lt_of_lt (mem_enabledIdx.mp hmem).1
  have hnext : ch.nextPolled jsonArray ch.channelInfo.multiKeyPollingIndex = some idx := by
    rw [nextPolled, ← head?_filter]
    exact congrArg head? h
  obtain ⟨first, rest', hidx⟩ := exists_cons_of_ne_nil (ne_nil_of_mem hmem)
  refine ⟨{ ch.channelInfo with
    multiKeyPollingIndex := ((idx + 1) % (ch.getKeys jsonArray).length : Nat) }, ?_, hmulti, hmode,
    ?_⟩
  · rw [getNextEnabledKeyWithHint, hmulti, if_neg (by simp), if_neg (length_pos_iff.mp hsize)]
    simp [hidx, hmode, hnext]
  · have hstart := pollStart_natCast (Nat.mod_lt (idx + 1) hsize)
    simp only [turns, map_add_mod_range] at h ⊢
    have hrotate := filter_rotate_succ h
    rwa [← hstart] at hrotate

theorem pollKeys_eq {calls : List (Int × Nat)} (h : calls.length ≤ (ch.turns jsonArray).length) :
    ch.pollKeys jsonArray calls = ((ch.turns jsonArray).take calls.length).map fun idx =>
      .ok (ch.keyAt jsonArray idx, idx) := by
  induction calls generalizing ch with
  | nil => rfl
  | cons call calls ih =>
    obtain ⟨idx, rest, hturns⟩ := exists_cons_of_length_pos (Nat.zero_lt_of_lt h)
    obtain ⟨info, hcall, hmulti, hmode, hnext⟩ := turns_step hmulti hmode hturns call.1 call.2
    rw [hturns, length_cons, length_cons, Nat.succ_le_succ_iff] at h
    rw [pollKeys, hcall, hturns, length_cons, take_succ_cons, map_cons]
    dsimp only
    rw [ih hmulti hmode (by rw [hnext, length_append]; omega), hnext, take_append_of_le_length h]
    rfl

end

/-- **Polling is fair**: as many calls as there are enabled keys return each of them once, in the
cyclic order of their positions. -/
theorem polling_fair (jsonArray : String → Option (List String)) (ch : Channel)
    (hmulti : ch.channelInfo.isMultiKey = true)
    (hmode : ch.channelInfo.multiKeyMode = .polling) {calls : List (Int × Nat)}
    (h : calls.length = (ch.enabledIdx jsonArray).length) : ch.pollKeys jsonArray calls =
        (ch.turns jsonArray).map (fun idx => .ok (ch.keyAt jsonArray idx, idx)) ∧
      (ch.turns jsonArray).Perm (ch.enabledIdx jsonArray) := by
  rw [← turns_perm.length_eq] at h
  rw [pollKeys_eq hmulti hmode h.le, h, take_length]
  exact ⟨rfl, turns_perm⟩

/-- Three keys, the second disabled, and an index out of range. -/
def pollingChannel : Channel where
  key := "a\nb\nc"
  channelInfo :=
    { isMultiKey := true
      multiKeyMode := .polling
      multiKeyPollingIndex := 7
      multiKeyStatusList := some (Table.empty.put (1, autoDisabled)) }

theorem polling_fair_two : pollingChannel.pollKeys (fun _ => none) [(0, 0), (0, 0)] =
      [.ok ("a", 0), .ok ("c", 2)] := by
  rw [(polling_fair (fun _ => none) pollingChannel rfl rfl (by decide +kernel)).1]
  decide +kernel

end Channel

/-! ### The row after a change of status -/

theorem ChannelDb.withStatus_frame (jsonArray : String → Option (List String)) (ch : Channel)
    (usingKey : String) (status : Int) (reason : String) (now : Int) :
    (withStatus jsonArray ch usingKey status reason now).id = ch.id ∧
      (withStatus jsonArray ch usingKey status reason now).key = ch.key := by
  unfold withStatus
  split
  · obtain ⟨info, hupdate⟩ := ch.handlerMultiKeyUpdate_eq jsonArray usingKey status reason now
    rw [hupdate]
    exact ⟨rfl, rfl⟩
  · exact ⟨rfl, rfl⟩

theorem ChannelDb.find?_updateChannelStatus {db : ChannelDb} {row : Channel}
    (jsonArray : String → Option (List String)) (hrow : db.channels.find? row.id = some row)
    (hid : row.id ≠ 0) (cached : CachedChannel) (usingKey : String) (status : Int)
    (reason : String) (now : Int) :
    (db.updateChannelStatus jsonArray cached row.id usingKey status reason
        now).2.channels.find? row.id =
      some (if cached.stops status = true ∨ row.status = status then row
        else withStatus jsonArray row usingKey status reason now) := by
  unfold updateChannelStatus
  by_cases hstops : cached.stops status = true
  · rw [if_pos hstops, if_pos (.inl hstops), hrow]
  rw [if_neg hstops, hrow]
  by_cases hsame : row.status = status
  · simp [if_pos hsame, if_pos (Or.inr hsame), hrow]
  · obtain ⟨hid', hkey⟩ := withStatus_frame jsonArray row usingKey status reason now
    have hsave : saveWithoutKey db.channels (withStatus jsonArray row usingKey status reason now) =
          some (writeWithoutKey db.channels
            (withStatus jsonArray row usingKey status reason now)) := by
      rw [saveWithoutKey, if_neg (by rwa [hid'])]
    simp only [if_neg hsame, hsave, if_neg (not_or.mpr ⟨hstops, hsame⟩)]
    have hfind := db.channels.find?_updateWhere
      (fun r => decide (r.id = (withStatus jsonArray row usingKey status reason now).id))
      (fun r =>
        { withStatus jsonArray row usingKey status reason now with id := r.id, key := r.key })
      (fun _ => rfl) row.id
    refine hfind.trans ?_
    rw [hrow, map_some, hid', if_pos (decide_eq_true rfl)]
    dsimp only
    rw [← hid', ← hkey]

end NomoApi
