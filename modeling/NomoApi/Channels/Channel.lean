import NomoApi.Lib.Table
import NomoApi.Lib.Text

/-! # Channels

The upstream accounts that requests are routed to (`model/channel.go`). A channel serves every model
of its list `models` for every group of its list `group`; these pairs are kept in the table
`abilities` (`model/ability.go`). -/

namespace NomoApi

open List

/-! ### The records -/

namespace ChannelStatus

/-- `ChannelStatusUnknown`, the zero value. -/
def unknown : Int := 0

def enabled : Int := 1

def manuallyDisabled : Int := 2

def autoDisabled : Int := 3

end ChannelStatus

inductive MultiKeyMode
  | unset
  | random
  | polling
  | hash
  deriving DecidableEq

open ChannelStatus

/-- A map from key indices (`map[int]α`). -/
abbrev IndexMap (α : Type) : Type := Table (Int × α) Prod.fst

/-- `ChannelInfo`, the multi-key part of a channel; maps may be nil. -/
structure ChannelInfo where
  isMultiKey : Bool := false
  multiKeySize : Int := 0
  /-- The keys that are not enabled, by their index, with their status. -/
  multiKeyStatusList : Option (IndexMap Int) := none
  multiKeyDisabledReason : Option (IndexMap String) := none
  multiKeyDisabledTime : Option (IndexMap Int) := none
  multiKeyPollingIndex : Int := 0
  multiKeyMode : MultiKeyMode := .unset
  deriving DecidableEq

namespace ChannelInfo

def disabledKeys (info : ChannelInfo) : Int :=
  ((info.multiKeyStatusList.getD .empty).rows.length : Nat)

/-- **Note the status of one key**: an enabled key leaves the list. -/
def setKeyStatus (info : ChannelInfo) (keyIndex status : Int) (reason : String) (now : Int) :
    ChannelInfo :=
  let list := info.multiKeyStatusList.getD .empty
  if status = enabled then
    { info with multiKeyStatusList := some (list.erase keyIndex) }
  else
    { info with
      multiKeyStatusList := some (list.put (keyIndex, status))
      multiKeyDisabledReason :=
        some ((info.multiKeyDisabledReason.getD .empty).put (keyIndex, reason))
      multiKeyDisabledTime := some ((info.multiKeyDisabledTime.getD .empty).put (keyIndex, now)) }

@[simp] theorem multiKeySize_setKeyStatus (info : ChannelInfo) (keyIndex status : Int)
    (reason : String) (now : Int) :
    (info.setKeyStatus keyIndex status reason now).multiKeySize = info.multiKeySize := by
  unfold setKeyStatus
  simp only
  split <;> rfl

end ChannelInfo

/-- **A channel**: the row of the table, and the struct that the operations take. -/
structure Channel where
  id : Int := 0
  key : String := ""
  status : Int := unknown
  models : String := ""
  group : String := ""
  priority : Option Int := none
  weight : Option Nat := none
  tag : Option String := none
  channelInfo : ChannelInfo := {}
  /-- The other columns, by name, those with a zero value left out. -/
  others : List (String × String) := []
  deriving DecidableEq

/-- **A row of `abilities`**; for a nil priority `0` is written. -/
structure Ability where
  group : String
  model : String
  channelId : Int
  enabled : Bool
  priority : Int
  weight : Nat
  tag : Option String
  deriving DecidableEq

def Ability.key (a : Ability) : String × String × Int := (a.group, a.model, a.channelId)

namespace Channel

def getPriority (ch : Channel) : Int := ch.priority.getD 0

def getWeight (ch : Channel) : Nat := ch.weight.getD 0

def groups (ch : Channel) : List String := split ch.group ','

def modelNames (ch : Channel) : List String := split ch.models ','

/-! ### The keys of a multi-key channel

`jsonArray` gives the texts of the entries of a JSON array, nothing for other texts. -/

section Keys

variable (jsonArray : String → Option (List String))

/-- **The keys of a key text**: a JSON array, or one key a line. -/
def splitKeys (key : String) : List String :=
  let lines := split (trimOf '\n' key) '\n'
  if hasPrefix (trimSpace key) "[" then (jsonArray (trimSpace key)).getD lines else lines

def getKeys (ch : Channel) : List String := if ch.key = "" then [] else splitKeys jsonArray ch.key

def keyIndex (ch : Channel) (usingKey : String) : Int :=
  (((ch.getKeys jsonArray).idxOf? usingKey).getD 0 : Nat)

/-- A channel with as many statuses as keys is disabled. -/
def handlerMultiKeyUpdate (ch : Channel) (usingKey : String) (status : Int) (reason : String)
    (now : Int) : Channel :=
  if ch.getKeys jsonArray = [] then { ch with status := status }
  else
    let info := ch.channelInfo.setKeyStatus (ch.keyIndex jsonArray usingKey) status reason now
    if info.disabledKeys ≥ info.multiKeySize then
      { ch with channelInfo := info, status := autoDisabled }
    else { ch with channelInfo := info }

section

variable (ch : Channel) (usingKey : String) (status : Int) (reason : String) (now : Int)

theorem status_handlerMultiKeyUpdate :
    (ch.handlerMultiKeyUpdate jsonArray usingKey status reason now).status =
      if ch.getKeys jsonArray = [] then status
      else if (ch.channelInfo.setKeyStatus (ch.keyIndex jsonArray usingKey) status reason
          now).disabledKeys ≥ ch.channelInfo.multiKeySize then autoDisabled
      else ch.status := by
  have hsize := ch.channelInfo.multiKeySize_setKeyStatus (ch.keyIndex jsonArray usingKey) status
    reason now
  unfold handlerMultiKeyUpdate
  by_cases hkeys : ch.getKeys jsonArray = []
  · rw [if_pos hkeys, if_pos hkeys]
  · rw [if_neg hkeys, if_neg hkeys]
    simp only [hsize]
    split <;> rfl

theorem handlerMultiKeyUpdate_eq :
    ∃ info, ch.handlerMultiKeyUpdate jsonArray usingKey status reason now = { ch with
        channelInfo := info
        status := (ch.handlerMultiKeyUpdate jsonArray usingKey status reason now).status } := by
  unfold handlerMultiKeyUpdate
  split
  · exact ⟨_, rfl⟩
  · simp only
    split
    · exact ⟨_, rfl⟩
    · exact ⟨_, rfl⟩

end

end Keys

/-! ### The ability rows of a channel -/

variable (ch : Channel) (pair : String × String)

def ability : Ability where
  group := pair.1
  model := pair.2
  channelId := ch.id
  enabled := ch.status = enabled
  priority := ch.getPriority
  weight := ch.getWeight
  tag := ch.tag

def pairs : List (String × String) :=
  ch.modelNames.flatMap fun model => ch.groups.map fun group => (group, model)

def pairKey : String := pair.1 ++ "|" ++ pair.2

def distinctPairs : List (String × String) := firstByKey pairKey ch.pairs

/-- **The rows that the code builds for a channel** (`AddAbilities`, `UpdateAbilities`). -/
def abilities : List Ability := ch.distinctPairs.map ch.ability

/-- **The rows that a channel stands for**: one for each group and model. -/
def Provides (a : Ability) : Prop :=
  a.group ∈ ch.groups ∧ a.model ∈ ch.modelNames ∧ a.channelId = ch.id ∧
    a.enabled = decide (ch.status = enabled) ∧ a.priority = ch.getPriority ∧
    a.weight = ch.getWeight ∧ a.tag = ch.tag
deriving Decidable

/-- **No two pairs have the same text** `group|model`. -/
def Distinguishable : Prop :=
  ∀ p ∈ ch.pairs, ∀ q ∈ ch.pairs, pairKey p = pairKey q → p = q
deriving Decidable

variable {ch : Channel}

theorem mem_pairs {p : String × String} : p ∈ ch.pairs ↔ p.1 ∈ ch.groups ∧ p.2 ∈ ch.modelNames := by
  rw [pairs, mem_flatMap]
  constructor
  · rintro ⟨model, hmodel, hp⟩
    obtain ⟨group, hgroup, rfl⟩ := mem_map.mp hp
    exact ⟨hgroup, hmodel⟩
  · rintro ⟨hgroup, hmodel⟩
    exact ⟨p.2, hmodel, mem_map.mpr ⟨p.1, hgroup, rfl⟩⟩

theorem pairs_ne_nil : ch.pairs ≠ [] := by
  obtain ⟨group, hgroup⟩ := exists_mem_of_ne_nil _ (split_ne_nil ch.group ',')
  obtain ⟨model, hmodel⟩ := exists_mem_of_ne_nil _ (split_ne_nil ch.models ',')
  have hmem : (group, model) ∈ ch.pairs := mem_pairs.mpr ⟨hgroup, hmodel⟩
  exact ne_nil_of_mem hmem

theorem distinctPairs_ne_nil : ch.distinctPairs ≠ [] := by
  obtain ⟨p, hp⟩ := exists_mem_of_ne_nil _ ch.pairs_ne_nil
  obtain ⟨q, hq, -⟩ := exists_mem_firstByKey pairKey hp
  exact ne_nil_of_mem hq

theorem mem_distinctPairs_iff :
    (∀ p, p ∈ ch.distinctPairs ↔ p ∈ ch.pairs) ↔ ch.Distinguishable := by
  constructor
  · -- two pairs with one text are both kept, and a text is kept once
    intro h p hp q hq hkey
    exact inj_on_of_nodup_map (nodup_firstByKey pairKey ch.pairs) ((h p).mpr hp) ((h q).mpr hq) hkey
  · intro h p
    refine ⟨fun hp => (firstByKey_sublist pairKey ch.pairs).subset hp, fun hp => ?_⟩
    obtain ⟨q, hq, hkey⟩ := exists_mem_firstByKey pairKey hp
    obtain rfl : q = p := h q ((firstByKey_sublist pairKey ch.pairs).subset hq) p hp hkey
    exact hq

theorem provides_iff {a : Ability} : ch.Provides a ↔ ∃ p ∈ ch.pairs, ch.ability p = a := by
  constructor
  · rintro ⟨hgroup, hmodel, hid, henabled, hpriority, hweight, htag⟩
    refine ⟨(a.group, a.model), mem_pairs.mpr ⟨hgroup, hmodel⟩, ?_⟩
    rw [ability, ← hid, ← henabled, ← hpriority, ← hweight, ← htag]
  · rintro ⟨p, hp, rfl⟩
    obtain ⟨hgroup, hmodel⟩ := mem_pairs.mp hp
    exact ⟨hgroup, hmodel, rfl, rfl, rfl, rfl, rfl⟩

theorem mem_abilities {a : Ability} :
    a ∈ ch.abilities ↔ ∃ p ∈ ch.distinctPairs, ch.ability p = a := List.mem_map

theorem nodup_abilities : (ch.abilities.map Ability.key).Nodup := by
  have hpairs : ch.distinctPairs.Nodup := (nodup_firstByKey pairKey ch.pairs).of_map
  rw [abilities, map_map]
  refine hpairs.map fun p q hkey => ?_
  simp only [Function.comp_apply, Ability.key, ability, Prod.mk.injEq] at hkey
  exact Prod.ext hkey.1 hkey.2.1

theorem channelId_of_mem_abilities {a : Ability} (h : a ∈ ch.abilities) : a.channelId = ch.id := by
  obtain ⟨p, -, rfl⟩ := mem_abilities.mp h
  rfl

end Channel

end NomoApi
