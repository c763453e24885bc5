import NomoApi.Channels.MultiKey
import NomoApi.Lib.Lines
import NomoApi.Lib.Transaction

/-! # Managing the keys of a channel

An administrator enables, disables and deletes the keys of a multi-key channel (`ManageMultiKeys`,
`controller/channel.go`). Every action writes the channel back with `Update`, which leaves out zero
values. -/

namespace NomoApi

open Option ChannelStatus ChannelDb

/-! ### The keys as they are stored -/

/-- **A key as it is stored**: a key that was enabled again keeps its time and its reason. -/
structure KeyRecord where
  key : String
  status : Int
  disabledTime : Option Int
  reason : Option String
  deriving DecidableEq

def ChannelInfo.record (info : ChannelInfo) (p : String × Nat) : KeyRecord :=
  ⟨p.1, info.keyStatus p.2, info.keyTime p.2, info.keyReason p.2⟩

/-- **The keys of a channel**, with what is stored of each. -/
def Channel.keyRecords (jsonArray : String → Option (List String)) (ch : Channel) :
    List KeyRecord := (ch.getKeys jsonArray).zipIdx.map ch.channelInfo.record

/-! ### The actions -/

inductive KeyAction
  | disableKey (keyIndex : Option Int)
  | enableKey (keyIndex : Option Int)
  | enableAllKeys
  | disableAllKeys
  | deleteKey (keyIndex : Option Int)
  | deleteDisabledKeys

/-- The index of an action, refused if missing or not below `MultiKeySize`. -/
def ChannelInfo.checkIndex (info : ChannelInfo) (missing : String) :
    Option Int → Except String Int
  | none => .error missing
  | some i => if i < 0 ∨ i ≥ info.multiKeySize then .error "密钥索引超出范围" else .ok i

/-- The keys that are not deleted, with status, time and reason under their new indices. -/
structure KeptKeys where
  keys : List String := []
  statusList : IndexMap Int := .empty
  disabledTime : IndexMap Int := .empty
  disabledReason : IndexMap String := .empty

def copyEntry {α : Type} (m : IndexMap α) (newIndex : Nat) : Option α → IndexMap α
  | some v => m.put ((newIndex : Int), v)
  | none => m

/-- **A key is kept**: it gets the next index. -/
def KeptKeys.add (kept : KeptKeys) (info : ChannelInfo) (copies : Bool) (key : String) (i : Nat) :
    KeptKeys :=
  let newIndex := kept.keys.length
  { keys := kept.keys ++ [key]
    statusList :=
      if info.keyStatus i = enabled then kept.statusList
      else kept.statusList.put ((newIndex : Int), info.keyStatus i)
    disabledTime :=
      if copies then copyEntry kept.disabledTime newIndex (info.keyTime i) else kept.disabledTime
    disabledReason :=
      if copies then copyEntry kept.disabledReason newIndex (info.keyReason i)
      else kept.disabledReason }

/-- **The loop over the keys** with `keep`. -/
def ChannelInfo.keepKeys (info : ChannelInfo) (keep copies : Nat → Bool) (keys : List String) :
    KeptKeys :=
  keys.zipIdx.foldl
    (fun kept p => if keep p.2 then kept.add info (copies p.2) p.1 p.2 else kept) {}

namespace Channel

variable (jsonArray : String → Option (List String)) (ch : Channel)

/-- The keys that `delete_key` keeps. -/
def keptByIndex (keyIndex : Int) : KeptKeys :=
  ch.channelInfo.keepKeys (fun i => (i : Int) ≠ keyIndex) (fun _ => true) (ch.getKeys jsonArray)

/-- The keys that `delete_disabled_keys` keeps. -/
def keptByStatus : KeptKeys :=
  ch.channelInfo.keepKeys (fun i => ch.channelInfo.keyStatus i ≠ autoDisabled)
    (fun i => ch.channelInfo.keyStatus i ≠ enabled) (ch.getKeys jsonArray)

def withKept (kept : KeptKeys) : Channel :=
  { ch with
    key := join kept.keys '\n'
    channelInfo :=
      { ch.channelInfo with
        multiKeySize := kept.keys.length
        multiKeyStatusList := some kept.statusList
        multiKeyDisabledTime := some kept.disabledTime
        multiKeyDisabledReason := some kept.disabledReason } }

/-- The enabled ones among the first `MultiKeySize` keys. -/
def stillEnabled : List Nat :=
  (List.range ch.channelInfo.multiKeySize.toNat).filter fun i =>
    ch.channelInfo.keyStatus i = enabled

/-- **What an action makes of the channel**, with the text of the answer. -/
def act : KeyAction → Except String (String × Channel)
  | .disableKey keyIndex => do
      let i ← ch.channelInfo.checkIndex "未指定要禁用的密钥索引" keyIndex
      let list := ch.channelInfo.multiKeyStatusList.getD .empty
      return ("密钥已禁用",
        { ch with
          channelInfo :=
            { ch.channelInfo with
              multiKeyStatusList := some (list.put (i, manuallyDisabled))
              multiKeyDisabledTime := some (ch.channelInfo.multiKeyDisabledTime.getD .empty)
              multiKeyDisabledReason :=
                some (ch.channelInfo.multiKeyDisabledReason.getD .empty) } })
  | .enableKey keyIndex => do
      let i ← ch.channelInfo.checkIndex "未指定要启用的密钥索引" keyIndex
      return ("密钥已启用",
        { ch with
          channelInfo :=
            { ch.channelInfo with
              multiKeyStatusList := ch.channelInfo.multiKeyStatusList.map (·.erase i)
              multiKeyDisabledTime := ch.channelInfo.multiKeyDisabledTime.map (·.erase i)
              multiKeyDisabledReason := ch.channelInfo.multiKeyDisabledReason.map (·.erase i) } })
  | .enableAllKeys =>
    .ok ("已启用 " ++ toString ch.channelInfo.disabledKeys ++ " 个密钥",
      { ch with
        channelInfo :=
          { ch.channelInfo with
            multiKeyStatusList := some .empty
            multiKeyDisabledTime := some .empty
            multiKeyDisabledReason := some .empty } })
  | .disableAllKeys =>
    if ch.stillEnabled = [] then .error "没有可禁用的密钥"
    else
      let list := ch.channelInfo.multiKeyStatusList.getD .empty
      let disable := fun (list : IndexMap Int) (i : Nat) =>
        list.put ((i : Int), manuallyDisabled)
      .ok ("已禁用 " ++ toString ch.stillEnabled.length ++ " 个密钥",
        { ch with
          channelInfo :=
            { ch.channelInfo with
              multiKeyStatusList := some (ch.stillEnabled.foldl disable list)
              multiKeyDisabledTime := some (ch.channelInfo.multiKeyDisabledTime.getD .empty)
              multiKeyDisabledReason :=
                some (ch.channelInfo.multiKeyDisabledReason.getD .empty) } })
  | .deleteKey keyIndex => do
      let i ← ch.channelInfo.checkIndex "未指定要删除的密钥索引" keyIndex
      let kept := ch.keptByIndex jsonArray i
      if kept.keys = [] then .error "不能删除最后一个密钥"
      else return ("密钥已删除", ch.withKept kept)
  | .deleteDisabledKeys =>
    let kept := ch.keptByStatus jsonArray
    let deletedCount := (ch.getKeys jsonArray).length - kept.keys.length
    if deletedCount = 0 then .error "没有需要删除的自动禁用密钥"
    else .ok ("已删除 " ++ toString deletedCount ++ " 个自动禁用的密钥", ch.withKept kept)

end Channel

namespace ChannelDb

variable (jsonArray : String → Option (List String))

def manageMultiKeys (db : ChannelDb) (channelId : Int) (action : KeyAction) :
    Except String (String × ChannelDb) :=
  match db.channels.find? channelId with
  | none => .error "渠道不存在"
  | some ch =>
    if !ch.channelInfo.isMultiKey then .error "该渠道不是多密钥模式"
    else do
      let (message, ch') ← ch.act jsonArray action
      match db.update jsonArray ch' with
      | none => .error "WHERE conditions required"
      | some db' => return (message, db')

end ChannelDb

/-! ### The number of keys -/

namespace Channel

def arrayOf (jsonArray : String → Option (List String)) (text : String) : Option (List String) :=
  if hasPrefix (trimSpace text) "[" then jsonArray (trimSpace text) else none

variable {jsonArray : String → Option (List String)}

theorem splitKeys_eq (text : String) :
    splitKeys jsonArray text = (arrayOf jsonArray text).getD (split (trimOf '\n' text) '\n') := by
  rw [splitKeys, arrayOf]
  split
  · rfl
  · rw [getD_none]

theorem keyCount_eq {key : String} (hkey : key ≠ "") : keyCount jsonArray key =
      if arrayOf jsonArray key = some [] then (split (trimOf '\n' key) '\n').length
      else (splitKeys jsonArray key).length := by
  have harray : (if hasPrefix (trimSpace key) "[" then (jsonArray (trimSpace key)).getD []
      else []) = (arrayOf jsonArray key).getD [] := by
    rw [arrayOf]
    split <;> rfl
  unfold keyCount
  rw [if_neg hkey, splitKeys_eq]
  simp only [harray]
  cases arrayOf jsonArray key with
  | none => simp
  | some entries => simp only [getD_some, some.injEq]

theorem length_getKeys_le_keyCount (jsonArray : String → Option (List String)) (ch : Channel) :
    (ch.getKeys jsonArray).length ≤ keyCount jsonArray ch.key := by
  by_cases hkey : ch.key = ""
  · rw [getKeys, if_pos hkey]
    exact Nat.zero_le _
  · rw [getKeys, if_neg hkey, keyCount_eq hkey]
    by_cases hnil : arrayOf jsonArray ch.key = some []
    · rw [splitKeys_eq, hnil, getD_some, List.length_nil]
      exact Nat.zero_le _
    · rw [if_neg hnil]

theorem keyCount_of_getKeys {ch : Channel} (h : ch.getKeys jsonArray ≠ []) :
    keyCount jsonArray ch.key = (ch.getKeys jsonArray).length := by
  have hkey : ch.key ≠ "" := fun hkey => h (by rw [getKeys, if_pos hkey])
  rw [getKeys, if_neg hkey] at h ⊢
  rw [keyCount_eq hkey, if_neg]
  intro hnil
  rw [splitKeys_eq, hnil, getD_some] at h
  exact h rfl

end Channel

/-! ### The row that is written -/

def ChannelInfo.fit (info : ChannelInfo) (size : Nat) : ChannelInfo :=
  { info with
    multiKeySize := size
    multiKeyStatusList := info.multiKeyStatusList.map fun list =>
      list.filter fun entry => entry.1 < size }

theorem ChannelInfo.entry_fit (info : ChannelInfo) {size : Nat} {idx : Int} (h : idx < size) :
    (info.fit size).entry idx = info.entry idx := by
  unfold entry fit
  cases info.multiKeyStatusList with
  | none => rfl
  | some list =>
    simp only [map_some, Option.getD_some]
    congr 1
    cases hfind : list.find? idx with
    | some a =>
      rw [Table.find?_filter]
      obtain ⟨ha, hkey⟩ := Table.find?_eq_some.mp hfind
      exact ⟨hfind, decide_eq_true (by rw [hkey]; exact h)⟩
    | none =>
      cases hfit : (list.filter fun entry => decide (entry.1 < size)).find? idx with
      | none => rfl
      | some a =>
        rw [(Table.find?_filter.mp hfit).1] at hfind
        cases hfind

namespace Channel

variable (jsonArray : String → Option (List String))

def keptText (row : Channel) (key : String) : String := if key = "" then row.key else key

/-- **The row after a key text and a multi-key part are written.** -/
def stored (row : Channel) (key : String) (info : ChannelInfo) : Channel :=
  { row with
    key := row.keptText key
    channelInfo := info.fit (keyCount jsonArray (row.keptText key)) }

theorem updates_self (row : Channel) (key : String) {info : ChannelInfo}
    (hmulti : info.isMultiKey = true) : row.updates { row with key := key, channelInfo := info } =
      { row with key := row.keptText key, channelInfo := info } := by
  have hinfo : info ≠ {} := by
    rintro rfl
    cases hmulti
  have hothers : row.others.filter (fun c => decide (c.1 ∉ row.others.map Prod.fst)) = [] := by
    rw [List.filter_eq_nil_iff]
    intro c hc
    simpa using ⟨c.2, hc⟩
  simp only [updates, hothers, List.append_nil, if_neg hinfo, Option.or_self, keptText]
  congr 1
  · split <;> simp_all
  · split <;> simp_all
  · split <;> simp_all

theorem act_eq {ch ch' : Channel} {action : KeyAction} {message : String}
    (h : ch.act jsonArray action = .ok (message, ch')) :
    ∃ key info, ch' = { ch with key := key, channelInfo := info } ∧
      info.isMultiKey = ch.channelInfo.isMultiKey := by
  cases action with
  | disableKey keyIndex =>
    simp only [act, bind_eq_ok] at h
    obtain ⟨i, -, h⟩ := h
    cases h
    exact ⟨ch.key, _, rfl, rfl⟩
  | enableKey keyIndex =>
    simp only [act, bind_eq_ok] at h
    obtain ⟨i, -, h⟩ := h
    cases h
    exact ⟨ch.key, _, rfl, rfl⟩
  | enableAllKeys =>
    cases h
    exact ⟨ch.key, _, rfl, rfl⟩
  | disableAllKeys =>
    obtain ⟨-, h⟩ := ite_error_eq_ok.mp h
    cases h
    exact ⟨ch.key, _, rfl, rfl⟩
  | deleteKey keyIndex =>
    simp only [act, bind_eq_ok] at h
    obtain ⟨i, -, h⟩ := h
    obtain ⟨-, h⟩ := ite_error_eq_ok.mp h
    cases h
    exact ⟨_, _, rfl, rfl⟩
  | deleteDisabledKeys =>
    obtain ⟨-, h⟩ := ite_error_eq_ok.mp h
    cases h
    exact ⟨_, _, rfl, rfl⟩

end Channel

namespace ChannelDb

variable {jsonArray : String → Option (List String)} {db : ChannelDb} {row : Channel}

theorem fixMultiKey_eq_fit (hrow : db.channels.find? row.id = some row) (key : String)
    {info : ChannelInfo} (hmulti : info.isMultiKey = true) :
    db.fixMultiKey jsonArray { row with key := key, channelInfo := info } =
      { row with
        key := key
        channelInfo := info.fit (keyCount jsonArray (row.keptText key)) } := by
  rw [fixMultiKey, if_pos hmulti]
  simp only [hrow, map_some, getD_some]
  rfl

theorem id_ne_zero_of_update {db' : ChannelDb} (hrow : db.channels.find? row.id = some row)
    {key : String} {info : ChannelInfo} (hmulti : info.isMultiKey = true)
    (h : db.update jsonArray { row with key := key, channelInfo := info } = some db') :
    row.id ≠ 0 := by
  intro hid
  unfold update at h
  simp only [fixMultiKey_eq_fit hrow key hmulti] at h
  rw [if_pos] at h
  · cases h
  · refine ⟨hid, decide_eq_true fun hempty => ?_⟩
    have hinfo : info.isMultiKey = false := congrArg (fun ch => ch.channelInfo.isMultiKey) hempty
    rw [hmulti] at hinfo
    cases hinfo

theorem update_stored (jsonArray : String → Option (List String))
    (hrow : db.channels.find? row.id = some row) (hid : row.id ≠ 0) (key : String)
    {info : ChannelInfo} (hmulti : info.isMultiKey = true) :
    ∃ db', db.update jsonArray { row with key := key, channelInfo := info } = some db' ∧
      db'.channels.find? row.id = some (row.stored jsonArray key info) := by
  have hfix := @fixMultiKey_eq_fit jsonArray db row hrow key info hmulti
  have hfind := db.channels.find?_updateWhere (fun r => decide (r.id = row.id)) (fun r => r.updates
      { row with key := key, channelInfo := info.fit (keyCount jsonArray (row.keptText key)) })
    (fun _ => rfl)
  refine ⟨db.writeUpdate
    { row with key := key, channelInfo := info.fit (keyCount jsonArray (row.keptText key)) },
    ?_, ?_⟩
  · unfold update
    simp only [hfix, hid, false_and, if_false]
  · refine (hfind row.id).trans ?_
    simp only [hrow, map_some, decide_true, if_true]
    exact congrArg some (Channel.updates_self row key hmulti)

/-- **What an action does to the row.** A channel without an id is never written. -/
theorem manageMultiKeys_eq_ok_iff (hrow : db.channels.find? row.id = some row)
    (hmulti : row.channelInfo.isMultiKey = true) {action : KeyAction} {message : String}
    {db' : ChannelDb} : db.manageMultiKeys jsonArray row.id action = .ok (message, db') ↔
      ∃ ch', row.act jsonArray action = .ok (message, ch') ∧
        db.update jsonArray ch' = some db' := by
  unfold manageMultiKeys
  simp only [hrow, hmulti, Bool.not_true, Bool.false_eq_true, if_false, bind_eq_ok]
  constructor
  · rintro ⟨⟨message', ch'⟩, hact, h⟩
    cases hup : db.update jsonArray ch' with
    | none =>
      simp only [hup] at h
      cases h
    | some db'' =>
      simp only [hup] at h
      cases h
      exact ⟨ch', hact, hup⟩
  · rintro ⟨ch', hact, hup⟩
    refine ⟨(message, ch'), hact, ?_⟩
    simp only [hup]
    rfl

end ChannelDb

end NomoApi
