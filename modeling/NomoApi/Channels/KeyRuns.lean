import Mathlib.Data.List.Perm.Subperm
import NomoApi.Channels.ManageKeys
import NomoApi.Lib.Run

/-! # The status of a multi-key channel and of its keys

A multi-key channel is meant to be out of routing exactly while none of its keys is enabled. Keys
are disabled and enabled by `UpdateChannelStatus` and by an administrator (`ManageMultiKeys`). Only
the first way looks at the channel's status, and only to disable it. -/

namespace NomoApi

open ChannelStatus Channel List Option ChannelInfo ChannelDb Int Table

/-! ### The status list -/

namespace ChannelInfo

/-- **The status list lists exactly the keys that are not enabled**, of the first `size` ones. -/
def Listed (info : ChannelInfo) (size : Nat) : Prop :=
  ∀ idx v, info.entry idx = some v → 0 ≤ idx ∧ idx < size ∧ v ≠ enabled

variable {info : ChannelInfo} {size : Nat}

theorem Listed.keyStatus_ne_iff (h : info.Listed size) (idx : Int) :
    info.keyStatus idx ≠ enabled ↔ ∃ v, info.entry idx = some v := by
  unfold keyStatus
  cases hentry : info.entry idx with
  | none => simp
  | some v => simpa using (h idx v hentry).2.2

theorem Listed.full_iff (h : info.Listed size) :
    info.disabledKeys ≥ size ↔ ∀ i < size, info.keyStatus (i : Nat) ≠ enabled := by
  simp only [h.keyStatus_ne_iff, entry_isSome_iff]
  have hnodup : ((info.multiKeyStatusList.getD .empty).rows.map Prod.fst).Nodup :=
    (info.multiKeyStatusList.getD .empty).nodup
  have hrange : ((List.range size).map ofNat).Nodup :=
    nodup_range.map fun _ _ h => ofNat.inj h
  have hsub : (info.multiKeyStatusList.getD .empty).rows.map Prod.fst ⊆
      (List.range size).map ofNat := by
    intro idx hidx
    obtain ⟨v, hv⟩ := entry_isSome_iff.mpr hidx
    obtain ⟨hnonneg, hlt, -⟩ := h idx v hv
    exact mem_map.mpr ⟨idx.toNat, mem_range.mpr (by omega), toNat_of_nonneg hnonneg⟩
  have hlen : info.disabledKeys ≥ size ↔ ((List.range size).map ofNat).length ≤
      ((info.multiKeyStatusList.getD .empty).rows.map Prod.fst).length := by
    rw [length_map, length_map, length_range, disabledKeys]
    exact ofNat_le
  rw [hlen]
  constructor
  · intro hle i hi
    have hperm := (hnodup.subperm hsub).perm_of_length_le hle
    exact hperm.mem_iff.mpr (mem_map.mpr ⟨i, mem_range.mpr hi, rfl⟩)
  · intro hall
    refine (hrange.subperm fun idx hidx => ?_).length_le
    obtain ⟨i, hi, rfl⟩ := mem_map.mp hidx
    exact hall i (List.mem_range.mp hi)

theorem Listed.fit (h : info.Listed size) : (info.fit size).Listed size := by
  intro idx v hv
  by_cases hlt : idx < size
  · rw [entry_fit info hlt] at hv
    exact h idx v hv
  · -- an entry beyond the keys is dropped
    exfalso
    unfold entry ChannelInfo.fit at hv
    obtain ⟨e, he, -⟩ := map_eq_some_iff.mp hv
    cases hlist : info.multiKeyStatusList with
    | none =>
      rw [hlist] at he
      cases he
    | some list =>
      rw [hlist] at he
      obtain ⟨hfind, hkeep⟩ := find?_filter.mp he
      exact hlt ((find?_eq_some.mp hfind).2 ▸ of_decide_eq_true hkeep)

end ChannelInfo

/-! ### Channels in order -/

section

variable (jsonArray : String → Option (List String))

/-- **A multi-key channel in order**: its list is right, and it is enabled or was disabled
automatically. -/
structure Channel.KeysListed (ch : Channel) : Prop where
  id_ne_zero : ch.id ≠ 0
  multi : ch.channelInfo.isMultiKey = true
  keys : ch.getKeys jsonArray ≠ []
  size : ch.channelInfo.multiKeySize = (ch.getKeys jsonArray).length
  listed : ch.channelInfo.Listed (ch.getKeys jsonArray).length
  status : ch.status = enabled ∨ ch.status = autoDisabled

/-- **The channel is not enabled exactly when no key is.** -/
def Channel.StatusFollows (ch : Channel) : Prop :=
  ch.status ≠ enabled ↔ ∀ key, ¬ ch.EnabledKey jsonArray key

/-! ### The events -/

inductive KeyEvent
  | updateStatus (cached : CachedChannel) (usingKey : String) (enable : Bool) (reason : String)
      (now : Int)
  | disableKey (keyIndex : Option Int)
  | enableKey (keyIndex : Option Int)

def keyStatusOf (enable : Bool) : Int :=
  if enable then enabled else autoDisabled

/-- **The effect of an event** on the channel `channelId`. -/
def ChannelDb.keyStep (channelId : Int) (db : ChannelDb) : KeyEvent → ChannelDb
  | .updateStatus cached usingKey enable reason now =>
    (db.updateChannelStatus jsonArray cached channelId usingKey (keyStatusOf enable) reason now).2
  | .disableKey keyIndex =>
    match db.manageMultiKeys jsonArray channelId (.disableKey keyIndex) with
    | .ok (_, db') => db'
    | .error _ => db
  | .enableKey keyIndex =>
    match db.manageMultiKeys jsonArray channelId (.enableKey keyIndex) with
    | .ok (_, db') => db'
    | .error _ => db

def Channel.IndexOk (ch : Channel) (keyIndex : Option Int) : Prop :=
  ∃ i : Nat, keyIndex = some (i : Int) ∧ (i : Int) < ch.channelInfo.multiKeySize

theorem Channel.not_indexOk_none {ch : Channel} : ¬ ch.IndexOk none := by
  rintro ⟨i, hi, -⟩
  cases hi

theorem Channel.indexOk_some_iff {ch : Channel} {i : Int} :
    0 ≤ i ∧ i < ch.channelInfo.multiKeySize ↔ ch.IndexOk (some i) := by
  constructor
  · rintro ⟨hnonneg, hlt⟩
    obtain ⟨n, rfl⟩ := eq_ofNat_of_zero_le hnonneg
    exact ⟨n, rfl, hlt⟩
  · rintro ⟨n, hn, hlt⟩
    obtain rfl := some.inj hn
    exact ⟨natCast_nonneg n, hlt⟩

instance (ch : Channel) : (keyIndex : Option Int) → Decidable (ch.IndexOk keyIndex)
  | none => isFalse Channel.not_indexOk_none
  | some _ => decidable_of_iff _ Channel.indexOk_some_iff

/-- **The events after which the status still follows the keys**: the administrator does not disable
the last enabled key, and no key is enabled while the channel is not. -/
def Channel.Follows (ch : Channel) : KeyEvent → Prop
  | .updateStatus cached _ enable _ _ =>
    enable = true → cached.stops (keyStatusOf enable) = true ∨ ch.status = enabled
  | .disableKey keyIndex =>
    ch.status = enabled → ch.IndexOk keyIndex →
      ∃ i ∈ ch.enabledIdx jsonArray, keyIndex ≠ some (i : Int)
  | .enableKey keyIndex => ch.IndexOk keyIndex → ch.status = enabled

instance Channel.instDecidableFollows (ch : Channel) :
    (e : KeyEvent) → Decidable (ch.Follows jsonArray e)
  | .updateStatus _ _ _ _ _ => inferInstanceAs (Decidable (_ → _ ∨ _))
  | .disableKey _ => inferInstanceAs (Decidable (_ → _ → _))
  | .enableKey _ => inferInstanceAs (Decidable (_ → _))

end

section

variable {jsonArray : String → Option (List String)} {ch : Channel}

theorem no_enabledKey_iff : (∀ key, ¬ ch.EnabledKey jsonArray key) ↔
    ∀ i < (ch.getKeys jsonArray).length, ch.channelInfo.keyStatus (i : Nat) ≠ enabled := by
  constructor
  · intro h i hi henabled
    exact h _ (enabledKey_keyAt (mem_enabledIdx.mpr ⟨hi, henabled⟩))
  · rintro h key ⟨i, hkey, henabled⟩
    exact h i (List.getElem?_eq_some_iff.mp hkey).1 henabled

instance : Decidable (ch.StatusFollows jsonArray) :=
  @instDecidableIff _ _ inferInstance (decidable_of_iff _ no_enabledKey_iff.symm)

theorem keyIndex_lt (hkeys : ch.getKeys jsonArray ≠ []) (usingKey : String) :
    ∃ i : Nat, ch.keyIndex jsonArray usingKey = i ∧ i < (ch.getKeys jsonArray).length := by
  refine ⟨((ch.getKeys jsonArray).idxOf? usingKey).getD 0, rfl, ?_⟩
  cases hidx : (ch.getKeys jsonArray).idxOf? usingKey with
  | none => exact length_pos_of_ne_nil hkeys
  | some i =>
    rw [idxOf?_eq_some_iff] at hidx
    exact hidx.1

variable {info : ChannelInfo} {i : Nat}

/-- **The row with the status of one key set**, and nothing else changed. -/
structure Channel.KeySet (jsonArray : String → Option (List String)) (ch : Channel) (i : Nat)
    (status : Int) (info : ChannelInfo) : Prop where
  inOrder : ({ ch with channelInfo := info } : Channel).KeysListed jsonArray
  keyStatus : ∀ j < (ch.getKeys jsonArray).length,
    info.keyStatus (j : Nat) = if j = i then status else ch.channelInfo.keyStatus j

theorem keySet_of_entry (h : ch.KeysListed jsonArray) (hi : i < (ch.getKeys jsonArray).length)
    (info : ChannelInfo) (hmulti : info.isMultiKey = ch.channelInfo.isMultiKey)
    (hsize : info.multiKeySize = ch.channelInfo.multiKeySize) (entry : Option Int)
    (hne : ∀ v ∈ entry, v ≠ enabled)
    (hentry : ∀ idx, info.entry idx = if idx = i then entry else ch.channelInfo.entry idx) :
    ch.KeySet jsonArray i (entry.getD enabled) info := by
  have hlisted : info.Listed (ch.getKeys jsonArray).length := by
    intro idx v hv
    rw [hentry] at hv
    split at hv
    · exact ⟨by omega, by omega, hne v hv⟩
    · exact h.listed idx v hv
  refine ⟨⟨h.id_ne_zero, hmulti.trans h.multi, h.keys, hsize.trans h.size, hlisted, h.status⟩,
    fun j hj => ?_⟩
  rw [ChannelInfo.keyStatus, hentry]
  by_cases hji : j = i
  · rw [if_pos hji, if_pos (ofNat_inj.mpr hji)]
  · rw [if_neg hji, if_neg fun hcast => hji (ofNat_inj.mp hcast), ChannelInfo.keyStatus]

theorem withStatus_multi (h : ch.KeysListed jsonArray) (usingKey : String) (status : Int)
    (reason : String) (now : Int) :
    ∃ i info, i < (ch.getKeys jsonArray).length ∧ ch.KeySet jsonArray i status info ∧
      withStatus jsonArray ch usingKey status reason now = { ch with
          channelInfo := info
          status := if info.disabledKeys ≥ (ch.getKeys jsonArray).length then
              autoDisabled else ch.status } := by
  obtain ⟨i, hi, hlt⟩ := keyIndex_lt h.keys usingKey
  refine ⟨i, ch.channelInfo.setKeyStatus i status reason now, hlt, ?_, ?_⟩
  · have hmulti : (ch.channelInfo.setKeyStatus i status reason now).isMultiKey =
        ch.channelInfo.isMultiKey := by
      unfold setKeyStatus
      simp only
      split <;> rfl
    have hset := keySet_of_entry h hlt _ hmulti (multiKeySize_setKeyStatus ..)
      (if status = enabled then none else some status) ?_
      (entry_setKeyStatus _ _ _ _ _)
    · by_cases henabled : status = enabled
      · rwa [if_pos henabled, getD_none, ← henabled] at hset
      · rwa [if_neg henabled, getD_some] at hset
    · intro v hv henabled
      split at hv
      · cases hv
      · cases hv
        contradiction
  · rw [withStatus, if_pos h.multi, handlerMultiKeyUpdate, if_neg h.keys]
    simp only [hi, multiKeySize_setKeyStatus, h.size]
    split <;> rfl

theorem statusFollows_iff {status : Int} :
    ({ ch with channelInfo := info, status := status } : Channel).StatusFollows jsonArray ↔
      (status ≠ enabled ↔ ∀ i < (ch.getKeys jsonArray).length,
        info.keyStatus (i : Nat) ≠ enabled) := by
  unfold StatusFollows
  rw [no_enabledKey_iff]
  exact Iff.rfl

/-! ### Changes after errors and tests -/

theorem statusFollows_autoDisable (h : ch.KeysListed jsonArray)
    (henabled : ch.status = enabled) (usingKey reason : String) (now : Int) :
    (withStatus jsonArray ch usingKey autoDisabled reason now).StatusFollows jsonArray := by
  obtain ⟨i, info, -, hset, heq⟩ :=
    withStatus_multi h usingKey autoDisabled reason now
  rw [heq, statusFollows_iff]
  refine Iff.trans ?_ hset.inOrder.listed.full_iff
  split
  · rename_i hfull
    exact iff_of_true (by decide) hfull
  · rename_i hfull
    exact iff_of_false (not_not.mpr henabled) hfull

theorem not_statusFollows_enable (h : ch.KeysListed jsonArray)
    (hdisabled : ch.status ≠ enabled) (usingKey reason : String) (now : Int) :
    ¬ (withStatus jsonArray ch usingKey enabled reason now).StatusFollows jsonArray := by
  obtain ⟨i, info, hi, hset, heq⟩ := withStatus_multi h usingKey enabled reason now
  rw [heq, statusFollows_iff]
  intro hfollows
  refine hfollows.mp ?_ i hi ((hset.keyStatus i hi).trans (if_pos rfl))
  split
  · decide
  · exact hdisabled

theorem keysListed_withStatus (h : ch.KeysListed jsonArray) (usingKey : String) (status : Int)
    (reason : String) (now : Int) :
    (withStatus jsonArray ch usingKey status reason now).KeysListed jsonArray := by
  obtain ⟨i, info, -, ⟨hset, -⟩, heq⟩ := withStatus_multi h usingKey status reason now
  rw [heq]
  refine ⟨h.id_ne_zero, hset.multi, h.keys, hset.size, hset.listed, ?_⟩
  split
  · exact .inr rfl
  · exact h.status

/-! ### Changes by the administrator -/

def Channel.managed (jsonArray : String → Option (List String)) (ch : Channel)
    (action : KeyAction) : Channel :=
  match ch.act jsonArray action with
  | .ok (_, ch') => ch.stored jsonArray ch'.key ch'.channelInfo
  | .error _ => ch

theorem checkIndex_ok {missing : String} (h : (i : Int) < info.multiKeySize) :
    info.checkIndex missing (some (i : Int)) = .ok (i : Int) := by
  rw [ChannelInfo.checkIndex, if_neg]
  omega

theorem checkIndex_error (missing : String) {keyIndex : Option Int} (h : ¬ ch.IndexOk keyIndex) :
    ∃ text, ch.channelInfo.checkIndex missing keyIndex = .error text := by
  cases keyIndex with
  | none => exact ⟨_, rfl⟩
  | some i =>
    refine ⟨_, if_pos ?_⟩
    rw [← indexOk_some_iff] at h
    omega

theorem Channel.KeysListed.index_lt (h : ch.KeysListed jsonArray)
    (hi : (i : Int) < ch.channelInfo.multiKeySize) : i < (ch.getKeys jsonArray).length := by
  rw [h.size] at hi
  exact ofNat_lt.mp hi

theorem stored_self (h : ch.KeysListed jsonArray) (info : ChannelInfo) :
    ch.stored jsonArray ch.key info =
      { ch with channelInfo := info.fit (ch.getKeys jsonArray).length } := by
  have htext : ch.keptText ch.key = ch.key := ite_self _
  rw [stored, htext, keyCount_of_getKeys h.keys]

theorem Channel.KeySet.fit {status : Int} (h : ch.KeySet jsonArray i status info) :
    ch.KeySet jsonArray i status (info.fit (ch.getKeys jsonArray).length) := by
  obtain ⟨⟨hid, hmulti, hkeys, -, hlisted, hstatus⟩, hset⟩ := h
  refine ⟨⟨hid, hmulti, hkeys, rfl, hlisted.fit, hstatus⟩, fun j hj => ?_⟩
  rw [ChannelInfo.keyStatus, info.entry_fit (ofNat_lt.mpr hj), ← ChannelInfo.keyStatus, hset j hj]

section

variable (h : ch.KeysListed jsonArray) (hi : (i : Int) < ch.channelInfo.multiKeySize)

include h hi

theorem managed_disableKey :
    ∃ info, ch.managed jsonArray (.disableKey (some (i : Int))) = { ch with channelInfo := info } ∧
      ch.KeySet jsonArray i manuallyDisabled info := by
  refine ⟨_, ?_, (keySet_of_entry h (h.index_lt hi) { ch.channelInfo with
      multiKeyStatusList := some ((ch.channelInfo.multiKeyStatusList.getD .empty).put
        ((i : Int), manuallyDisabled))
      multiKeyDisabledTime := some (ch.channelInfo.multiKeyDisabledTime.getD .empty)
      multiKeyDisabledReason := some (ch.channelInfo.multiKeyDisabledReason.getD .empty) }
    rfl rfl (some manuallyDisabled) ?_ ?_).fit⟩
  · rw [managed, act, checkIndex_ok hi]
    exact stored_self h _
  · rintro v ⟨⟩
    decide
  · intro idx
    rw [ChannelInfo.entry, getD_some, find?_put]
    by_cases hidx : idx = i
    · rw [if_pos hidx, if_pos hidx, map_some]
    · rw [if_neg hidx, if_neg hidx, entry]

theorem managed_enableKey :
    ∃ info, ch.managed jsonArray (.enableKey (some (i : Int))) = { ch with channelInfo := info } ∧
      ch.KeySet jsonArray i enabled info := by
  refine ⟨_, ?_, (keySet_of_entry h (h.index_lt hi) { ch.channelInfo with
      multiKeyStatusList := ch.channelInfo.multiKeyStatusList.map (·.erase (i : Int))
      multiKeyDisabledTime := ch.channelInfo.multiKeyDisabledTime.map (·.erase (i : Int))
      multiKeyDisabledReason := ch.channelInfo.multiKeyDisabledReason.map (·.erase (i : Int)) }
    rfl rfl none nofun ?_).fit⟩
  · rw [managed, act, checkIndex_ok hi]
    exact stored_self h _
  · intro idx
    unfold entry
    cases ch.channelInfo.multiKeyStatusList with
    | none =>
      rw [map_none, getD_none]
      exact (ite_self none).symm
    | some list =>
      rw [map_some, getD_some, getD_some, find?_erase]
      split <;> rfl

end

theorem managed_refused {keyIndex : Option Int} (h : ¬ ch.IndexOk keyIndex) :
    ch.managed jsonArray (.disableKey keyIndex) = ch ∧
      ch.managed jsonArray (.enableKey keyIndex) = ch := by
  constructor
  · obtain ⟨text, htext⟩ := checkIndex_error "未指定要禁用的密钥索引" h
    rw [managed, act, htext]
    rfl
  · obtain ⟨text, htext⟩ := checkIndex_error "未指定要启用的密钥索引" h
    rw [managed, act, htext]
    rfl

theorem statusFollows_disableKey_iff (hfollows : ch.StatusFollows jsonArray)
    (hset : ch.KeySet jsonArray i manuallyDisabled info) :
    ({ ch with channelInfo := info } : Channel).StatusFollows jsonArray ↔
      (ch.status = enabled → ∃ j ∈ ch.enabledIdx jsonArray, j ≠ i) := by
  have hall : (∀ j < (ch.getKeys jsonArray).length, info.keyStatus (j : Nat) ≠ enabled) ↔
        ¬ ∃ j ∈ ch.enabledIdx jsonArray, j ≠ i := by
    constructor
    · rintro hno ⟨j, hj, hne⟩
      obtain ⟨hlt, henabled⟩ := mem_enabledIdx.mp hj
      refine hno j hlt ?_
      rw [hset.keyStatus j hlt, if_neg hne, henabled]
    · intro hno j hlt henabled
      rw [hset.keyStatus j hlt] at henabled
      split at henabled
      · exact absurd henabled (by decide)
      · rename_i hji
        exact hno ⟨j, mem_enabledIdx.mpr ⟨hlt, henabled⟩, hji⟩
  have hiff := @statusFollows_iff jsonArray ch info ch.status
  rw [hiff, hall]
  by_cases henabled : ch.status = enabled
  · simp [henabled]
  · refine iff_of_true (iff_of_true henabled ?_) fun h => absurd h henabled
    rintro ⟨j, hj, -⟩
    exact (hfollows.mp henabled) _ (enabledKey_keyAt hj)

theorem statusFollows_enableKey_iff (hi : i < (ch.getKeys jsonArray).length)
    (hset : ch.KeySet jsonArray i enabled info) :
    ({ ch with channelInfo := info } : Channel).StatusFollows jsonArray ↔
      ch.status = enabled := by
  have hkey : ¬ ∀ j < (ch.getKeys jsonArray).length, info.keyStatus (j : Nat) ≠ enabled := by
    intro hno
    refine hno i hi ?_
    rw [hset.keyStatus i hi, if_pos rfl]
  have hiff := @statusFollows_iff jsonArray ch info ch.status
  rw [hiff]
  simp [hkey]

/-! ### Whole runs -/

def Channel.afterEvent (jsonArray : String → Option (List String)) (ch : Channel) :
    KeyEvent → Channel
  | .updateStatus cached usingKey enable reason now =>
    if cached.stops (keyStatusOf enable) = true ∨ ch.status = keyStatusOf enable then ch
    else withStatus jsonArray ch usingKey (keyStatusOf enable) reason now
  | .disableKey keyIndex => ch.managed jsonArray (.disableKey keyIndex)
  | .enableKey keyIndex => ch.managed jsonArray (.enableKey keyIndex)

section

variable {db : ChannelDb} (hrow : db.channels.find? ch.id = some ch) (h : ch.KeysListed jsonArray)

include hrow h

theorem find?_managed (action : KeyAction) :
    (match db.manageMultiKeys jsonArray ch.id action with
      | .ok (_, db') => db'
      | .error _ => db).channels.find? ch.id = some (ch.managed jsonArray action) := by
  cases hact : ch.act jsonArray action with
  | error text =>
    have herror : db.manageMultiKeys jsonArray ch.id action = .error text := by
      unfold manageMultiKeys
      simp only [hrow, h.multi, hact]
      rfl
    rw [herror, managed, hact]
    exact hrow
  | ok r =>
    obtain ⟨message, ch'⟩ := r
    obtain ⟨key, info, rfl, hmulti⟩ := act_eq jsonArray hact
    obtain ⟨db', hup, hstored⟩ := db.update_stored jsonArray hrow h.id_ne_zero key
      (hmulti.trans h.multi)
    have hok := (manageMultiKeys_eq_ok_iff hrow h.multi).mpr ⟨_, hact, hup⟩
    rw [hok, managed, hact]
    exact hstored

theorem find?_keyStep (e : KeyEvent) :
    (db.keyStep jsonArray ch.id e).channels.find? ch.id = some (ch.afterEvent jsonArray e) := by
  cases e with
  | updateStatus cached usingKey enable reason now =>
    exact db.find?_updateChannelStatus jsonArray hrow h.id_ne_zero cached usingKey _ reason now
  | disableKey keyIndex => exact find?_managed hrow h _
  | enableKey keyIndex => exact find?_managed hrow h _

end

theorem afterEvent_spec (h : ch.KeysListed jsonArray) (hfollows : ch.StatusFollows jsonArray)
    (e : KeyEvent) :
    ((ch.afterEvent jsonArray e).StatusFollows jsonArray ↔ ch.Follows jsonArray e) ∧
      (ch.afterEvent jsonArray e).KeysListed jsonArray := by
  cases e with
  | updateStatus cached usingKey enable reason now =>
    by_cases hstays : cached.stops (keyStatusOf enable) = true ∨ ch.status = keyStatusOf enable
    · rw [afterEvent, if_pos hstays]
      refine ⟨iff_of_true hfollows ?_, h⟩
      rintro rfl
      exact hstays
    · rw [afterEvent, if_neg hstays]
      refine ⟨?_, keysListed_withStatus h usingKey _ reason now⟩
      cases enable with
      | true =>
        refine iff_of_false (not_statusFollows_enable h ?_ usingKey reason now) ?_
        · exact fun henabled => hstays (.inr henabled)
        · exact fun hok => hstays (hok rfl)
      | false =>
        have henabled : ch.status = enabled :=
          h.status.resolve_right fun hdisabled => hstays (.inr hdisabled)
        refine iff_of_true (statusFollows_autoDisable h henabled usingKey reason now) ?_
        intro hfalse
        cases hfalse
  | disableKey keyIndex =>
    rw [afterEvent]
    by_cases hok : ch.IndexOk keyIndex
    · obtain ⟨i, rfl, hi⟩ := id hok
      obtain ⟨info, heq, hset⟩ := managed_disableKey h hi
      rw [heq]
      refine ⟨(statusFollows_disableKey_iff hfollows hset).trans ?_, hset.inOrder⟩
      have hne : ∀ j : Nat, j ≠ i ↔ some (i : Int) ≠ some (j : Int) := by
        intro j
        rw [ne_eq, ne_eq, some.injEq, ofNat_inj, eq_comm]
      simp [Follows, hok, hne]
    · rw [(managed_refused hok).1]
      exact ⟨iff_of_true hfollows fun _ hok' => absurd hok' hok, h⟩
  | enableKey keyIndex =>
    rw [afterEvent]
    by_cases hok : ch.IndexOk keyIndex
    · obtain ⟨i, rfl, hi⟩ := id hok
      obtain ⟨info, heq, hset⟩ := managed_enableKey h hi
      rw [heq]
      refine ⟨(statusFollows_enableKey_iff (h.index_lt hi) hset).trans ?_, hset.inOrder⟩
      simp [Follows, hok]
    · rw [(managed_refused hok).2]
      exact ⟨iff_of_true hfollows fun hok' => absurd hok' hok, h⟩

def ChannelDb.StatusFollows (jsonArray : String → Option (List String)) (channelId : Int)
    (db : ChannelDb) : Prop :=
  ∃ ch, db.channels.find? channelId = some ch ∧ ch.StatusFollows jsonArray
deriving Decidable

def ChannelDb.Follows (jsonArray : String → Option (List String)) (channelId : Int)
    (db : ChannelDb) (e : KeyEvent) : Prop :=
  ∃ ch, db.channels.find? channelId = some ch ∧ ch.Follows jsonArray e
deriving Decidable

/-- **The stored status follows the keys along a whole run** that starts with all keys enabled, iff
every event meets its condition. -/
theorem channel_status_follows_iff {db : ChannelDb} {row : Channel}
    (hrow : db.channels.find? row.id = some row) (hlisted : row.KeysListed jsonArray)
    (hstatus : row.status = enabled) (hkeys : ∀ i < (row.getKeys jsonArray).length,
      row.channelInfo.keyStatus (i : Nat) = enabled) (es : List KeyEvent) :
    Always (StatusFollows jsonArray row.id) (keyStep jsonArray row.id) db es ↔
      AllSteps (Follows jsonArray row.id) (keyStep jsonArray row.id) db es := by
  have hstart : row.StatusFollows jsonArray := by
    refine iff_of_false (not_not.mpr hstatus) fun hno => ?_
    have hpos := length_pos_of_ne_nil hlisted.keys
    exact no_enabledKey_iff.mp hno 0 hpos (hkeys 0 hpos)
  -- the channel in order is the invariant of the run
  refine always_iff_allSteps (A := fun _ _ => True)
    (I := fun db => ∃ ch : Channel, ch.id = row.id ∧ db.channels.find? row.id = some ch ∧
      ch.KeysListed jsonArray)
    ?_ ?_ ⟨row, rfl, hrow, hlisted⟩ ⟨row, hrow, hstart⟩
    (allSteps_of_forall (fun _ _ => trivial) db es)
  · rintro db e ⟨ch, hid, hfind, hlisted⟩ ⟨ch', hfind', hfollows⟩ -
    obtain rfl : ch = ch' := some.inj (hfind.symm.trans hfind')
    rw [← hid] at hfind ⊢
    have hnext := find?_keyStep hfind hlisted e
    unfold ChannelDb.StatusFollows ChannelDb.Follows
    rw [hnext, hfind]
    simpa using (afterEvent_spec hlisted hfollows e).1
  · rintro db e ⟨ch, hid, hfind, hlisted⟩ ⟨ch', hfind', hfollows⟩ - -
    obtain rfl : ch = ch' := some.inj (hfind.symm.trans hfind')
    rw [← hid] at hfind ⊢
    have hnext := find?_keyStep hfind hlisted e
    exact ⟨_, (find?_eq_some.mp hnext).2, hnext, (afterEvent_spec hlisted hfollows e).2⟩

end

def pairOfKeys : Channel where
  id := 1
  key := "a\nb"
  status := enabled
  channelInfo := { isMultiKey := true, multiKeySize := 2 }

def KeyEvent.fails (usingKey : String) : KeyEvent := .updateStatus .off usingKey false "" 0

theorem pairOfKeys_listed : pairOfKeys.KeysListed fun _ => none := by
  refine ⟨by decide, rfl, by decide +kernel, by decide +kernel, fun idx v hv => ?_, .inl rfl⟩
  cases hv

/-- **The channel is disabled with its last key.** -/
theorem channel_status_follows_pair : pairOfKeys.status = enabled ∧
      Always (StatusFollows (fun _ => none) 1) (keyStep (fun _ => none) 1)
        ⟨.singleton pairOfKeys, .empty⟩
        [.disableKey (some 0), .enableKey (some 0), .fails "a", .fails "b"] := by
  refine ⟨rfl, (@channel_status_follows_iff _ _ pairOfKeys rfl pairOfKeys_listed rfl ?_ _).mpr ?_⟩
  · decide +kernel
  · decide +kernel

/-- **Disabling both keys by hand leaves the channel enabled. After both have failed, enabling one**
leaves it disabled. -/
theorem channel_status_not_follows :
    let keyRun := run (keyStep (fun _ => none) 1) ⟨.singleton pairOfKeys, .empty⟩
    ¬ (keyRun [.disableKey (some 0), .disableKey (some 1)]).StatusFollows (fun _ => none) 1 ∧
      ¬ (keyRun [.fails "a", .fails "b", .enableKey (some 0)]).StatusFollows (fun _ => none) 1 ∧
      ¬ (keyRun [.fails "a", .fails "b", .updateStatus .off "a" true "" 0]).StatusFollows
        (fun _ => none) 1 := by
  decide +kernel

end NomoApi
