import NomoApi.Channels.MultiKey

/-! # The channel of an attempt in the request's context

`SetupContextForSelectedChannel` (`middleware/distributor.go`) writes what an attempt needs of its
channel into the context of the request; a retry runs it again in the same context. The organization
is written if the channel has one, the index of the key for a multi-key channel, `Other` for some
types, and the key and what follows it only if a key was picked. -/

namespace NomoApi

/-! ### Types of channels -/

namespace ChannelType

def azure : Int := 3
def ali : Int := 17
def xunfei : Int := 18
def gemini : Int := 24
def cloudflare : Int := 39
def vertexAi : Int := 41
def mokaAI : Int := 44
def coze : Int := 49

end ChannelType

def apiTypes : List (Int × Int) :=
  [(1, 0), -- OpenAI
    (14, 1), (15, 3), (11, 2), (16, 4), (17, 5), -- Anthropic, Baidu, PaLM, Zhipu, Ali
    (18, 6), (21, 7), (23, 8), (24, 9), -- Xunfei, AIProxyLibrary, Tencent, Gemini
    (26, 10), (4, 11), (27, 12), -- Zhipu_v4, Ollama, Perplexity
    (33, 13), (34, 14), (37, 15), -- Aws, Cohere, Dify
    (38, 16), (39, 17), (40, 18), (41, 19), -- Jina, Cloudflare, SiliconFlow, VertexAi
    (42, 20), (43, 21), (44, 22), (45, 23), -- Mistral, DeepSeek, MokaAI, VolcEngine
    (46, 24), (20, 25), (47, 26), (48, 27), (49, 28), -- BaiduV2, OpenRouter, Xinference, Xai, Coze
    (51, 29), (25, 30), (53, 31), (35, 32), -- Jimeng, Moonshot, Submodel, MiniMax
    (56, 33), (57, 34)] -- Replicate, Codex

open ChannelType

def channelType2APIType (channelType : Int) : Int × Bool :=
  match apiTypes.lookup channelType with
  | some apiType => (apiType, true)
  | none => (0, false)

def streamSupportedChannels : List Int :=
  [1, 14, 33, 24, 39, 3, 45, 4, 48, 43, 46, 26, 17, 53, 57, 25, 35, 40]

inductive OtherSlot
  | apiVersion
  | region
  | plugin
  | botId
  deriving DecidableEq

/-- Where the `Other` column of a channel goes to. -/
def otherSlot (channelType : Int) : Option OtherSlot :=
  if channelType = azure then some .apiVersion
  else if channelType = vertexAi then some .region
  else if channelType = xunfei then some .apiVersion
  else if channelType = gemini then some .apiVersion
  else if channelType = ali then some .plugin
  else if channelType = cloudflare then some .apiVersion
  else if channelType = mokaAI then some .apiVersion
  else if channelType = coze then some .botId
  else none

/-! ### Channels and contexts -/

/-- **A channel with the columns that the context takes.** -/
structure RoutedChannel extends Channel where
  name : String := ""
  type : Int := 0
  createdTime : Int := 0
  setting : Option String := none
  otherSettings : String := ""
  paramOverride : Option String := none
  headerOverride : Option String := none
  openAIOrganization : Option String := none
  autoBan : Option Int := none
  modelMapping : Option String := none
  statusCodeMapping : Option String := none
  baseURL : Option String := none
  other : String := ""

/-- **The readers of the texts of a channel**, and what the request brings along. -/
structure ContextReaders (Setting Other Override : Type) where
  getSetting : Option String → Setting
  getOtherSettings : String → Other
  getOverride : Option String → Override
  /-- `ApplyChannelAffinityOverrideTemplate`. -/
  affinityTemplate : Override → Override
  channelBaseURLs : Int → String
  jsonArray : String → Option (List String)
  tokenId : Int

@[ext]
structure KeyScope where
  isMultiKey : Bool := false
  multiKeyIndex : Int := 0
  channelKey : String := ""
  baseUrl : String := ""
  systemPromptOverride : Bool := false
  other : OtherSlot → String := fun _ => ""

open KeyScope

/-- **The values of the context that belong to the channel**; those never written are empty. -/
@[ext]
structure ChannelScope (Setting Other Override : Type) where
  originalModel : String := ""
  channelId : Int := 0
  channelName : String := ""
  channelType : Int := 0
  channelCreateTime : Int := 0
  channelSetting : Setting
  channelOtherSetting : Other
  paramOverride : Override
  headerOverride : Override
  organization : String := ""
  autoBan : Bool := false
  modelMapping : String := ""
  statusCodeMapping : String := ""
  keys : KeyScope := {}

namespace RoutedChannel

def getAutoBan (ch : RoutedChannel) : Bool := ch.autoBan = some 1

def getModelMapping (ch : RoutedChannel) : String := ch.modelMapping.getD ""

def getStatusCodeMapping (ch : RoutedChannel) : String := ch.statusCodeMapping.getD ""

def organization (ch : RoutedChannel) : String := ch.openAIOrganization.getD ""

/-- Only an empty address, not a missing one, is replaced. -/
def getBaseURL (channelBaseURLs : Int → String) (ch : RoutedChannel) : String :=
  match ch.baseURL with
  | none => ""
  | some url => if url = "" then channelBaseURLs ch.type else url

def writeKeys (channelBaseURLs : Int → String) (ch : RoutedChannel) (key : String) (index : Nat)
    (k : KeyScope) : KeyScope where
  isMultiKey := ch.channelInfo.isMultiKey
  -- The index of an earlier channel's key is left to a channel with one key.
  multiKeyIndex := if ch.channelInfo.isMultiKey then index else k.multiKeyIndex
  channelKey := key
  baseUrl := ch.getBaseURL channelBaseURLs
  systemPromptOverride := false
  other := match otherSlot ch.type with
    | some slot => Function.update k.other slot ch.other
    | none => k.other

end RoutedChannel

section

variable {Setting Other Override : Type} (r : ContextReaders Setting Other Override)

def ContextReaders.pickKey (ch : RoutedChannel) (pick : KeyPick) : Except KeyError (String × Nat) :=
  (ch.toChannel.getNextEnabledKeyWithHint r.jsonArray r.tokenId pick).1

def writeChannel (ch : RoutedChannel) (modelName : String)
    (c : ChannelScope Setting Other Override) :
    ChannelScope Setting Other Override where
  originalModel := modelName
  channelId := ch.id
  channelName := ch.name
  channelType := ch.type
  channelCreateTime := ch.createdTime
  channelSetting := r.getSetting ch.setting
  channelOtherSetting := r.getOtherSettings ch.otherSettings
  paramOverride := r.affinityTemplate (r.getOverride ch.paramOverride)
  headerOverride := r.getOverride ch.headerOverride
  -- An earlier channel's organization is left to a channel that has none.
  organization := if ch.organization ≠ "" then ch.organization else c.organization
  autoBan := ch.getAutoBan
  modelMapping := ch.getModelMapping
  statusCodeMapping := ch.getStatusCodeMapping
  keys := c.keys

def setupContextForSelectedChannel (channel : Option RoutedChannel) (modelName : String)
    (pick : KeyPick) (c : ChannelScope Setting Other Override) :
    Option KeyError × ChannelScope Setting Other Override :=
  match channel with
  | none =>
    (some ⟨"channel is nil", "get_channel_failed", true⟩, { c with originalModel := modelName })
  | some ch =>
    match r.pickKey ch pick with
    | .error e => (some e, writeChannel r ch modelName c)
    | .ok (key, index) =>
      (none, { writeChannel r ch modelName c with
        keys := ch.writeKeys r.channelBaseURLs key index c.keys })

structure ChannelMeta (Setting Other Override : Type) where
  channelType : Int
  channelId : Int
  channelIsMultiKey : Bool
  channelMultiKeyIndex : Int
  channelBaseUrl : String
  apiType : Int
  apiVersion : String
  apiKey : String
  organization : String
  channelCreateTime : Int
  paramOverride : Override
  headersOverride : Override
  upstreamModelName : String
  isModelMapped : Bool
  supportStreamOptions : Bool
  channelSetting : Setting
  channelOtherSettings : Other

/-- `apiVersionQuery` is from the request's address. -/
def initChannelMeta (apiVersionQuery : String) (c : ChannelScope Setting Other Override) :
    ChannelMeta Setting Other Override where
  channelType := c.channelType
  channelId := c.channelId
  channelIsMultiKey := c.keys.isMultiKey
  channelMultiKeyIndex := c.keys.multiKeyIndex
  channelBaseUrl := c.keys.baseUrl
  apiType := (channelType2APIType c.channelType).1
  apiVersion :=
    if c.channelType = vertexAi then c.keys.other .region
    else if c.channelType = azure ∧ apiVersionQuery ≠ "" then apiVersionQuery
    else c.keys.other .apiVersion
  apiKey := c.keys.channelKey
  organization := c.organization
  channelCreateTime := c.channelCreateTime
  paramOverride := c.paramOverride
  headersOverride := c.headerOverride
  upstreamModelName := c.originalModel
  isModelMapped := false
  supportStreamOptions := c.channelType ∈ streamSupportedChannels
  channelSetting := c.channelSetting
  channelOtherSettings := c.channelOtherSetting

/-! ### What is left of an earlier channel -/

/-- **No organization is left**: the second channel has one, or the first has none, or the one that
was there. -/
def OrganizationReplaced (a b : RoutedChannel)
    (c : ChannelScope Setting Other Override) : Prop :=
  b.organization ≠ "" ∨ a.organization = "" ∨ a.organization = c.organization

/-- **Nothing is left of the key of the first channel**, if one was picked. A second channel whose
key is picked can inherit the index and `Other`; any other inherits everything. -/
def KeysReplaced (a b : RoutedChannel) (pickA pickB : KeyPick) (k : KeyScope) : Prop :=
  ∀ key index, r.pickKey a pickA = .ok (key, index) →
    match r.pickKey b pickB with
    | .ok _ =>
      (a.channelInfo.isMultiKey = true → b.channelInfo.isMultiKey = false →
        (index : Int) = k.multiKeyIndex) ∧
      ∀ slot, otherSlot a.type = some slot → otherSlot b.type ≠ some slot →
        a.other = k.other slot
    | .error _ =>
      a.channelInfo.isMultiKey = k.isMultiKey ∧
      (a.channelInfo.isMultiKey = true → (index : Int) = k.multiKeyIndex) ∧
      key = k.channelKey ∧ a.getBaseURL r.channelBaseURLs = k.baseUrl ∧
      k.systemPromptOverride = false ∧
      ∀ slot, otherSlot a.type = some slot → a.other = k.other slot

variable {r} {a b ch : RoutedChannel} {pick pickA pickB : KeyPick}
  {c : ChannelScope Setting Other Override}

def RoutedChannel.keysAfter (r : ContextReaders Setting Other Override) (ch : RoutedChannel)
    (pick : KeyPick) (k : KeyScope) : KeyScope :=
  match r.pickKey ch pick with
  | .error _ => k
  | .ok (key, index) => ch.writeKeys r.channelBaseURLs key index k

theorem setup_some (modelName : String) :
    (setupContextForSelectedChannel r (some ch) modelName pick c).2 =
      { writeChannel r ch modelName c with keys := ch.keysAfter r pick c.keys } := by
  unfold setupContextForSelectedChannel RoutedChannel.keysAfter
  dsimp only
  split <;> rfl

theorem setup_eq_iff {c' : ChannelScope Setting Other Override} (modelName : String) :
    (setupContextForSelectedChannel r (some ch) modelName pick c).2 =
        (setupContextForSelectedChannel r (some ch) modelName pick c').2 ↔
      (if ch.organization ≠ "" then ch.organization else c.organization) =
          (if ch.organization ≠ "" then ch.organization else c'.organization) ∧
        ch.keysAfter r pick c.keys = ch.keysAfter r pick c'.keys := by
  rw [setup_some, setup_some]
  constructor
  · intro h
    exact ⟨congrArg ChannelScope.organization h, congrArg ChannelScope.keys h⟩
  · rintro ⟨horg, hkeys⟩
    unfold writeChannel
    rw [horg, hkeys]

theorem organization_replaced_iff : (if b.organization ≠ "" then b.organization
        else if a.organization ≠ "" then a.organization else c.organization) =
      (if b.organization ≠ "" then b.organization else c.organization) ↔
    OrganizationReplaced a b c := by
  unfold OrganizationReplaced
  by_cases hb : b.organization ≠ ""
  · rw [if_pos hb, if_pos hb]
    exact iff_of_true rfl (.inl hb)
  · rw [if_neg hb, if_neg hb]
    by_cases ha : a.organization ≠ ""
    · rw [if_pos ha]
      exact ⟨fun h => .inr (.inr h), fun h => (h.resolve_left hb).resolve_left ha⟩
    · rw [if_neg ha]
      exact iff_of_true rfl (.inr (.inl (not_not.mp ha)))

section

variable (channelBaseURLs : Int → String)

theorem other_writeKeys (key : String) (index : Nat) (k : KeyScope) (slot : OtherSlot) :
    (ch.writeKeys channelBaseURLs key index k).other slot =
      if otherSlot ch.type = some slot then ch.other else k.other slot := by
  unfold RoutedChannel.writeKeys
  cases hslot : otherSlot ch.type with
  | none =>
    have hne : ¬ none = some slot := by simp
    exact (if_neg hne).symm
  | some slot' =>
    by_cases hsame : slot' = slot
    · rw [if_pos (congrArg some hsame), ← hsame]
      exact Function.update_self ..
    · rw [if_neg fun h => hsame (Option.some.inj h)]
      exact Function.update_of_ne (Ne.symm hsame) _ _

theorem writeKeys_writeKeys_iff (keyA keyB : String) (indexA indexB : Nat) (k : KeyScope) :
    b.writeKeys channelBaseURLs keyB indexB (a.writeKeys channelBaseURLs keyA indexA k) =
        b.writeKeys channelBaseURLs keyB indexB k ↔
      (a.channelInfo.isMultiKey = true → b.channelInfo.isMultiKey = false →
        (indexA : Int) = k.multiKeyIndex) ∧
      ∀ slot, otherSlot a.type = some slot → otherSlot b.type ≠ some slot →
        a.other = k.other slot := by
  constructor
  · intro h
    constructor
    · intro ha hb
      have hindex := congrArg multiKeyIndex h
      simpa [RoutedChannel.writeKeys, ha, hb] using hindex
    · intro slot ha hb
      have hother := congrFun (congrArg other h) slot
      rwa [other_writeKeys, other_writeKeys, other_writeKeys, if_neg hb, if_neg hb, if_pos ha]
        at hother
  · rintro ⟨hindex, hother⟩
    refine KeyScope.ext rfl ?_ rfl rfl rfl (funext fun slot => ?_)
    · cases hb : b.channelInfo.isMultiKey with
      | true => simp [RoutedChannel.writeKeys, hb]
      | false =>
        cases ha : a.channelInfo.isMultiKey with
        | true => simpa [RoutedChannel.writeKeys, ha, hb] using hindex ha hb
        | false => simp [RoutedChannel.writeKeys, ha, hb]
    · rw [other_writeKeys, other_writeKeys, other_writeKeys]
      by_cases hb : otherSlot b.type = some slot
      · rw [if_pos hb, if_pos hb]
      · rw [if_neg hb, if_neg hb]
        by_cases ha : otherSlot a.type = some slot
        · rw [if_pos ha]
          exact hother slot ha hb
        · rw [if_neg ha]

theorem writeKeys_eq_self_iff (key : String) (index : Nat) (k : KeyScope) :
    a.writeKeys channelBaseURLs key index k = k ↔ a.channelInfo.isMultiKey = k.isMultiKey ∧
      (a.channelInfo.isMultiKey = true → (index : Int) = k.multiKeyIndex) ∧
      key = k.channelKey ∧ a.getBaseURL channelBaseURLs = k.baseUrl ∧
      k.systemPromptOverride = false ∧
      ∀ slot, otherSlot a.type = some slot → a.other = k.other slot := by
  constructor
  · intro h
    refine ⟨congrArg isMultiKey h, ?_, congrArg channelKey h,
      congrArg baseUrl h, (congrArg systemPromptOverride h).symm, ?_⟩
    · intro ha
      have hindex := congrArg multiKeyIndex h
      simpa [RoutedChannel.writeKeys, ha] using hindex
    · intro slot ha
      have hother := congrFun (congrArg other h) slot
      rwa [other_writeKeys, if_pos ha] at hother
  · rintro ⟨hmulti, hindex, hkey, hurl, hprompt, hother⟩
    refine KeyScope.ext hmulti ?_ hkey hurl hprompt.symm (funext fun slot => ?_)
    · cases ha : a.channelInfo.isMultiKey with
      | true => simpa [RoutedChannel.writeKeys, ha] using hindex ha
      | false => simp [RoutedChannel.writeKeys, ha]
    · rw [other_writeKeys]
      by_cases ha : otherSlot a.type = some slot
      · rw [if_pos ha]
        exact hother slot ha
      · rw [if_neg ha]

end

theorem keys_replaced_iff (k : KeyScope) :
    b.keysAfter r pickB (a.keysAfter r pickA k) = b.keysAfter r pickB k ↔
      KeysReplaced r a b pickA pickB k := by
  unfold KeysReplaced RoutedChannel.keysAfter
  cases hA : r.pickKey a pickA with
  | error e =>
    refine iff_of_true rfl fun key index h => ?_
    cases h
  | ok pickedA =>
    obtain ⟨keyA, indexA⟩ := pickedA
    cases r.pickKey b pickB with
    | error e =>
      dsimp only
      rw [writeKeys_eq_self_iff]
      constructor
      · rintro h key index hpicked
        cases hpicked
        exact h
      · intro h
        exact h keyA indexA rfl
    | ok pickedB =>
      obtain ⟨keyB, indexB⟩ := pickedB
      dsimp only
      rw [writeKeys_writeKeys_iff]
      constructor
      · rintro h key index hpicked
        cases hpicked
        exact h
      · intro h
        exact h keyA indexA rfl

/-- **The context is as if the second channel had been the only one** iff nothing of the first one
is left. -/
theorem context_as_alone_iff (r : ContextReaders Setting Other Override)
    (a b : RoutedChannel) (modelA modelB : String) (pickA pickB : KeyPick)
    (c : ChannelScope Setting Other Override) :
    (setupContextForSelectedChannel r (some b) modelB pickB
        (setupContextForSelectedChannel r (some a) modelA pickA c).2).2 =
        (setupContextForSelectedChannel r (some b) modelB pickB c).2 ↔
      OrganizationReplaced a b c ∧ KeysReplaced r a b pickA pickB c.keys := by
  rw [setup_eq_iff, setup_some modelA]
  exact and_congr organization_replaced_iff (keys_replaced_iff c.keys)

end

/-! ### A retry with another channel -/

def plainReaders : ContextReaders Unit Unit Unit where
  getSetting := fun _ => ()
  getOtherSettings := fun _ => ()
  getOverride := fun _ => ()
  affinityTemplate := fun o => o
  channelBaseURLs := fun _ => ""
  jsonArray := fun _ => none
  tokenId := 0

def plainScope : ChannelScope Unit Unit Unit where
  channelSetting := ()
  channelOtherSetting := ()
  paramOverride := ()
  headerOverride := ()

def companyChannel : RoutedChannel where
  id := 1
  key := "company-key"
  status := ChannelStatus.enabled
  type := gemini
  openAIOrganization := some "company"
  other := "v1beta"

def privateChannel : RoutedChannel where
  id := 2
  key := "private-key"
  status := ChannelStatus.enabled
  type := 1

/-- **A retry with another channel sends the organization of the first one** and has its
`api_version`. -/
theorem context_not_as_alone :
    let pick : KeyPick := ⟨0, .ok 0⟩
    let setup := fun ch c => (setupContextForSelectedChannel plainReaders (some ch) "m" pick c).2
    let retried := initChannelMeta "" (setup privateChannel (setup companyChannel plainScope))
    let alone := initChannelMeta "" (setup privateChannel plainScope)
    retried.apiKey = "private-key" ∧ retried.organization = "company" ∧ alone.organization = "" ∧
      retried.apiVersion = "v1beta" ∧ alone.apiVersion = "" := by
  decide +kernel

end NomoApi
