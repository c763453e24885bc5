import NomoApi.Billing.Price
import NomoApi.Claude.Usage

/-! # The price of a text request

`calculateTextQuotaSummary` (`service/text_quota.go`) turns the usage that an upstream reports into
a quota. OpenAI counts cached tokens among those of the prompt, Anthropic does not. Counts have no
bound; the conversion to an `int` wraps around. -/

namespace NomoApi

open Decimal

/-! ### What the price depends on -/

inductive RelayFormat where
  | openAI
  | claude
  | gemini
  | openAIResponses
  | openAIResponsesCompaction
  | openAIAudio
  | openAIImage
  | openAIRealtime
  | rerank
  | embedding
  | task
  | mjProxy
  deriving DecidableEq

structure BuildInToolInfo where
  callCount : Int
  searchContextSize : String
  deriving DecidableEq

/-- **`dto.Usage`** with images and audio. -/
structure TextUsage extends Usage where
  imageTokens : Int := 0
  audioTokens : Int := 0
  usageSemantic : String := ""
  usageSource : String := ""
  cost : Option ℚ := none
  deriving DecidableEq

structure RelayFormats where
  finalRequestRelayFormat : Option RelayFormat := none
  requestConversionChain : List RelayFormat := []
  relayFormat : RelayFormat := .openAI
  deriving DecidableEq

/-- **`RelayInfo`**, as far as the price depends on it. -/
structure TextRelayInfo where
  originModelName : String
  formats : RelayFormats
  priceData : PriceData
  /-- `PriceData.OtherRatios`, in the order in which they are ranged over. -/
  otherRatios : List (String × ℚ) := []
  /-- `ChannelMeta.ChannelType`, if there is a `ChannelMeta`. -/
  channelType : Option Int := none
  estimatePromptTokens : Int := 0
  builtInTools : Option (String → Option BuildInToolInfo) := none

structure TextContext where
  chatCompletionWebSearchContextSize : String := ""
  claudeWebSearchRequests : Int := 0
  imageGenerationCall : Bool := false
  imageGenerationCallQuality : String := ""
  imageGenerationCallSize : String := ""
  deriving DecidableEq

structure TextSettings where
  quotaPerUnit : ℚ
  defaultModelRatio : String → Option ℚ

def channelTypeOpenRouter : Int := 20

def RelayFormats.getFinalRequestRelayFormat (f : RelayFormats) : RelayFormat :=
  f.finalRequestRelayFormat.getD (f.requestConversionChain.getLast?.getD f.relayFormat)

def usageSemanticFromUsage (f : RelayFormats) (usage : Option TextUsage) : String :=
  match usage with
  | some u =>
    if u.usageSemantic ≠ "" then u.usageSemantic
    else if f.getFinalRequestRelayFormat = .claude then "anthropic"
    else "openai"
  | none => if f.getFinalRequestRelayFormat = .claude then "anthropic" else "openai"

def isLegacyClaudeDerivedOpenAIUsage (f : RelayFormats) (usage : TextUsage) : Bool :=
  if f.getFinalRequestRelayFormat = .claude then false
  else if usage.usageSource ≠ "" ∨ usage.usageSemantic ≠ "" then false
  else usage.claudeCacheCreation5mTokens > 0 ∨ usage.claudeCacheCreation1hTokens > 0

/-! ### Prices of tools (`setting/operation_setting/tools.go`) -/

/-- The size of the context does not matter. -/
def getWebSearchPricePerThousand (modelName _contextSize : String) : ℚ :=
  if hasPrefix modelName "o3" ∨ hasPrefix modelName "o4" ∨ hasPrefix modelName "gpt-5" then 10
  else 25

def getClaudeWebSearchPricePerThousand : ℚ := 10

def getFileSearchPricePerThousand : ℚ := 5 / 2

def getGeminiInputAudioPricePerMillionTokens (modelName : String) : ℚ :=
  if hasPrefix modelName "gemini-2.5-flash-preview-native-audio" then 3
  else if hasPrefix modelName "gemini-2.5-flash-preview-lite" then 1 / 2
  else if hasPrefix modelName "gemini-2.5-flash-preview" then 1
  else if hasPrefix modelName "gemini-2.5-flash" then 1
  else if hasPrefix modelName "gemini-2.0-flash" then 7 / 10
  else if hasPrefix modelName "gemini-robotics-er-1.5" then 1
  else 0

/-- The default is the best square image. -/
def getGPTImage1PriceOnceCall (quality size : String) : ℚ :=
  match quality, size with
  | "low", "1024x1024" => 11 / 1000
  | "low", "1024x1536" => 16 / 1000
  | "low", "1536x1024" => 16 / 1000
  | "medium", "1024x1024" => 42 / 1000
  | "medium", "1024x1536" => 63 / 1000
  | "medium", "1536x1024" => 63 / 1000
  | "high", "1024x1024" => 167 / 1000
  | "high", "1024x1536" => 25 / 100
  | "high", "1536x1024" => 25 / 100
  | _, _ => 167 / 1000

/-! ### The calls of built-in tools -/

structure ToolCharge where
  callCount : Int := 0
  price : ℚ := 0
  quota : ℚ := 0
  deriving DecidableEq

section Tools

variable (settings : TextSettings) (ctx : TextContext) (info : TextRelayInfo)

/-- Calls of a tool that is priced by the thousand, rounded to sixteen places. -/
def perThousand (price : ℚ) (callCount : Int) : ToolCharge where
  callCount
  price
  quota := roundPlaces (price * callCount / 1000) *
    info.priceData.groupRatioInfo.groupRatio * settings.quotaPerUnit

/-- Web searches, of the Responses API or of a model that always searches. -/
def webSearchCharge : ToolCharge :=
  match info.builtInTools with
  | some tools =>
    match tools "web_search_preview" with
    | some tool =>
      if tool.callCount > 0 then
        perThousand settings info
          (getWebSearchPricePerThousand info.originModelName tool.searchContextSize)
          tool.callCount
      else {}
    | none => {}
  | none =>
    if hasSuffix info.originModelName "search-preview" then
      let size := if ctx.chatCompletionWebSearchContextSize = "" then "medium"
        else ctx.chatCompletionWebSearchContextSize
      perThousand settings info (getWebSearchPricePerThousand info.originModelName size) 1
    else {}

/-- Web searches of Claude. Here the count comes after the rounding. -/
def claudeWebSearchCharge : ToolCharge :=
  if ctx.claudeWebSearchRequests > 0 then
    { callCount := ctx.claudeWebSearchRequests
      price := getClaudeWebSearchPricePerThousand
      quota := roundPlaces (getClaudeWebSearchPricePerThousand / 1000) *
        info.priceData.groupRatioInfo.groupRatio * settings.quotaPerUnit *
        ctx.claudeWebSearchRequests }
  else { callCount := ctx.claudeWebSearchRequests }

def fileSearchCharge : ToolCharge :=
  match info.builtInTools with
  | some tools =>
    match tools "file_search" with
    | some tool =>
      if tool.callCount > 0 then
        perThousand settings info getFileSearchPricePerThousand tool.callCount
      else {}
    | none => {}
  | none => {}

def imageGenerationCharge : ToolCharge :=
  if ctx.imageGenerationCall then
    let price := getGPTImage1PriceOnceCall ctx.imageGenerationCallQuality
      ctx.imageGenerationCallSize
    { price, quota := price * info.priceData.groupRatioInfo.groupRatio * settings.quotaPerUnit }
  else {}

end Tools

/-! ### The counts -/

structure TextCounts where
  promptTokens : Int
  completionTokens : Int
  totalTokens : Int
  cacheTokens : Int
  cacheCreationTokens : Int
  cacheCreationTokens5m : Int
  cacheCreationTokens1h : Int
  imageTokens : Int
  audioTokens : Int
  deriving DecidableEq

def hasCustomModelRatio (settings : TextSettings) (modelName : String) (currentRatio : ℚ) : Bool :=
  match settings.defaultModelRatio modelName with
  | none => true
  | some defaultRatio => currentRatio ≠ defaultRatio

/-- The cache writes that explain the reported cost. A division by zero ends in the least integer.
-/
def calcOpenRouterCacheCreateTokens (settings : TextSettings) (usage : TextUsage)
    (price : PriceData) : Int :=
  if price.cacheCreationRatio = 1 then 0
  else
    let quotaPrice := price.modelRatio / settings.quotaPerUnit
    let promptCacheCreatePrice := quotaPrice * price.cacheCreationRatio
    let promptCacheReadPrice := quotaPrice * price.cacheRatio
    let completionPrice := quotaPrice * price.completionRatio
    if promptCacheCreatePrice - quotaPrice = 0 then -2 ^ 63
    else
      toInt64 (roundInt ((usage.cost.getD 0 - usage.promptTokens * quotaPrice +
        usage.cachedTokens * (quotaPrice - promptCacheReadPrice) -
        usage.completionTokens * completionPrice) / (promptCacheCreatePrice - quotaPrice)))

def TextUsage.counts (usage : TextUsage) : TextCounts where
  promptTokens := usage.promptTokens
  completionTokens := usage.completionTokens
  totalTokens := usage.promptTokens + usage.completionTokens
  cacheTokens := usage.cachedTokens
  cacheCreationTokens := usage.cachedCreationTokens
  cacheCreationTokens5m := usage.claudeCacheCreation5mTokens
  cacheCreationTokens1h := usage.claudeCacheCreation1hTokens
  imageTokens := usage.imageTokens
  audioTokens := usage.audioTokens

/-- The counts for Claude models on OpenRouter, which does not always report cache writes. -/
def openRouterCounts (settings : TextSettings) (info : TextRelayInfo) (usage : TextUsage) :
    TextCounts :=
  let c := usage.counts
  let promptTokens := c.promptTokens - c.cacheTokens
  let isUsingCustomSettings := info.priceData.usePrice ||
    hasCustomModelRatio settings info.originModelName info.priceData.modelRatio
  -- the source also compares `Cost` with the integer zero, from which every JSON value differs
  let cacheCreationTokens :=
    if c.cacheCreationTokens = 0 ∧ info.priceData.cacheCreationRatio ≠ 1 ∧
        ¬ isUsingCustomSettings then
      let maybe := calcOpenRouterCacheCreateTokens settings usage info.priceData
      if maybe ≥ 0 ∧ promptTokens ≥ maybe then maybe else c.cacheCreationTokens
    else c.cacheCreationTokens
  { c with promptTokens := promptTokens - cacheCreationTokens, cacheCreationTokens }

/-! ### The cost -/

/-- The tokens at the plain ratio; `included` says that the prompt counts the cached ones. -/
def baseTokens (included : Bool) (c : TextCounts) (audioInputPrice : ℚ) : Int :=
  let base := c.promptTokens
  let base := if c.cacheTokens ≠ 0 ∧ included then base - c.cacheTokens else base
  let base :=
    if (c.cacheCreationTokens ≠ 0 ∨ c.cacheCreationTokens5m > 0 ∨ c.cacheCreationTokens1h > 0) ∧
        included then base - c.cacheCreationTokens
    else base
  let base := if c.imageTokens ≠ 0 then base - c.imageTokens else base
  if c.audioTokens ≠ 0 ∧ audioInputPrice > 0 then base - c.audioTokens else base

/-- Cache writes with their ratios; OpenAI does not tell the lifetimes apart. -/
def cachedCreationTokensWithRatio (included : Bool) (price : PriceData) (c : TextCounts) : ℚ :=
  if c.cacheCreationTokens ≠ 0 ∨ c.cacheCreationTokens5m > 0 ∨ c.cacheCreationTokens1h > 0 then
    if included then c.cacheCreationTokens * price.cacheCreationRatio
    else
      let remaining := c.cacheCreationTokens - c.cacheCreationTokens5m - c.cacheCreationTokens1h
      (if remaining < 0 then 0 else remaining : Int) * price.cacheCreationRatio +
        c.cacheCreationTokens5m * price.cacheCreation5mRatio +
        c.cacheCreationTokens1h * price.cacheCreation1hRatio
  else 0

def audioInputPrice (modelName : String) (c : TextCounts) : ℚ :=
  if c.audioTokens ≠ 0 then getGeminiInputAudioPricePerMillionTokens modelName else 0

section Cost

variable (settings : TextSettings) (ctx : TextContext) (info : TextRelayInfo)

def audioInputQuota (price : PriceData) (c : TextCounts) (audioInputPrice : ℚ) : ℚ :=
  if c.audioTokens ≠ 0 ∧ audioInputPrice > 0 then
    roundPlaces (audioInputPrice / 1000000) * c.audioTokens *
      price.groupRatioInfo.groupRatio * settings.quotaPerUnit
  else 0

def toolQuota : ℚ :=
  (webSearchCharge settings ctx info).quota + (claudeWebSearchCharge settings ctx info).quota +
    (fileSearchCharge settings info).quota + (imageGenerationCharge settings ctx info).quota

def applyOtherRatios (otherRatios : List (String × ℚ)) (cost : ℚ) : ℚ :=
  otherRatios.foldl (fun cost r => cost * r.2) cost

def PriceData.ratio (price : PriceData) : ℚ := price.modelRatio * price.groupRatioInfo.groupRatio

/-- **The cost before rounding**, by the ratios or by the price per request. -/
def textCost (included : Bool) (c : TextCounts) : ℚ :=
  let price := info.priceData
  if price.usePrice then
    applyOtherRatios info.otherRatios
      (price.modelPrice * settings.quotaPerUnit * price.groupRatioInfo.groupRatio +
        toolQuota settings ctx info)
  else
    let audioPrice := audioInputPrice info.originModelName c
    let promptQuota := baseTokens included c audioPrice +
      (if c.cacheTokens ≠ 0 then c.cacheTokens * price.cacheRatio else 0) +
      (if c.imageTokens ≠ 0 then c.imageTokens * price.imageRatio else 0) +
      cachedCreationTokensWithRatio included price c
    let completionQuota := c.completionTokens * price.completionRatio
    applyOtherRatios info.otherRatios
      ((promptQuota + completionQuota) * price.ratio + toolQuota settings ctx info +
        audioInputQuota settings price c audioPrice)

/-- **The quota of a cost**, given the total of tokens. -/
def quotaOfCost (price : PriceData) (totalTokens : Int) (cost : ℚ) : Int :=
  let cost := if ¬ price.usePrice ∧ price.ratio ≠ 0 ∧ cost ≤ 0 then 1 else cost
  let quota := wrap64 (roundInt cost)
  -- without tokens the upstream is taken to have reported nothing
  if totalTokens = 0 then 0
  else if price.ratio ≠ 0 ∧ quota = 0 then 1
  else quota

/-- The ratios are those of `PriceData`. -/
structure TextQuotaSummary extends TextCounts where
  usageSemantic : String
  isClaudeUsageSemantic : Bool
  webSearch : ToolCharge
  claudeWebSearch : ToolCharge
  fileSearch : ToolCharge
  imageGenerationCallPrice : ℚ
  audioInputPrice : ℚ
  quota : Int

def estimatedUsage : TextUsage where
  promptTokens := info.estimatePromptTokens
  totalTokens := info.estimatePromptTokens

def billedCounts (isClaude : Bool) (usage : TextUsage) : TextCounts :=
  if info.channelType = some channelTypeOpenRouter ∧ isClaude then
    openRouterCounts settings info usage
  else usage.counts

def calculateTextQuotaSummary (reported : Option TextUsage) : TextQuotaSummary :=
  let usageSemantic := usageSemanticFromUsage info.formats reported
  let isClaude : Bool := usageSemantic = "anthropic"
  let usage := reported.getD (estimatedUsage info)
  let counts := billedCounts settings info isClaude usage
  let included := !isClaude && !isLegacyClaudeDerivedOpenAIUsage info.formats usage
  { counts with
    usageSemantic
    isClaudeUsageSemantic := isClaude
    webSearch := webSearchCharge settings ctx info
    claudeWebSearch := claudeWebSearchCharge settings ctx info
    fileSearch := fileSearchCharge settings info
    imageGenerationCallPrice := (imageGenerationCharge settings ctx info).price
    audioInputPrice := if info.priceData.usePrice then 0
      else audioInputPrice info.originModelName counts
    quota := quotaOfCost info.priceData counts.totalTokens
      (textCost settings ctx info included counts) }

/-! ### One price in both semantics -/

def TextCounts.uncached (c : TextCounts) : TextCounts :=
  { c with promptTokens := c.promptTokens - c.cacheTokens - c.cacheCreationTokens }

structure TextCounts.Unsplit (c : TextCounts) : Prop where
  creation : 0 ≤ c.cacheCreationTokens
  no5m : c.cacheCreationTokens5m = 0
  no1h : c.cacheCreationTokens1h = 0

theorem baseTokens_included {c : TextCounts} (hc : c.Unsplit) (audioPrice : ℚ) :
    baseTokens true c audioPrice = baseTokens false c.uncached audioPrice := by
  -- a count of zero is not subtracted, which makes no difference
  have hcache : (if c.cacheTokens ≠ 0 then c.promptTokens - c.cacheTokens else c.promptTokens) =
      c.promptTokens - c.cacheTokens := by
    split <;> omega
  have hcreation (base : Int) :
      (if c.cacheCreationTokens ≠ 0 then base - c.cacheCreationTokens else base) =
        base - c.cacheCreationTokens := by
    split <;> omega
  simp only [baseTokens, TextCounts.uncached, hc.no5m, hc.no1h, gt_iff_lt, lt_irrefl, or_false,
    and_true, Bool.false_eq_true, and_false, if_false, hcache, hcreation]

theorem cachedCreation_included {c : TextCounts} (hc : c.Unsplit) (price : PriceData) :
    cachedCreationTokensWithRatio true price c =
      cachedCreationTokensWithRatio false price c.uncached := by
  have hremaining : ¬ c.cacheCreationTokens < 0 := not_lt.mpr hc.creation
  simp only [cachedCreationTokensWithRatio, TextCounts.uncached, hc.no5m, hc.no1h, sub_zero,
    if_neg hremaining, if_true, Bool.false_eq_true, if_false, Int.cast_zero, zero_mul, add_zero]

theorem textCost_included {c : TextCounts} (hc : c.Unsplit) :
    textCost settings ctx info true c = textCost settings ctx info false c.uncached := by
  simp only [textCost, baseTokens_included hc, cachedCreation_included hc]
  rfl

end Cost

/-- Traffic, counted independently of who reports it. -/
structure Traffic where
  uncached : Nat
  cacheRead : Nat
  cacheCreation : Nat
  completion : Nat
  images : Int := 0
  audio : Int := 0

/-- A usage reports the traffic, with a given count for the prompt. -/
structure Traffic.ReportedBy (t : Traffic) (promptTokens : Int) (usage : TextUsage) : Prop where
  prompt : usage.promptTokens = promptTokens
  completion : usage.completionTokens = t.completion
  cacheRead : usage.cachedTokens = t.cacheRead
  cacheCreation : usage.cachedCreationTokens = t.cacheCreation
  no5m : usage.claudeCacheCreation5mTokens = 0
  no1h : usage.claudeCacheCreation1hTokens = 0
  images : usage.imageTokens = t.images
  audio : usage.audioTokens = t.audio

def Traffic.counts (t : Traffic) (promptTokens : Int) : TextCounts where
  promptTokens
  completionTokens := t.completion
  totalTokens := promptTokens + t.completion
  cacheTokens := t.cacheRead
  cacheCreationTokens := t.cacheCreation
  cacheCreationTokens5m := 0
  cacheCreationTokens1h := 0
  imageTokens := t.images
  audioTokens := t.audio

variable {promptTokens : Int} {usage : TextUsage}

section

variable {t : Traffic} (h : t.ReportedBy promptTokens usage)

include h

theorem Traffic.ReportedBy.counts_eq : usage.counts = t.counts promptTokens := by
  rw [TextUsage.counts, h.prompt, h.completion, h.cacheRead, h.cacheCreation, h.no5m, h.no1h,
    h.images, h.audio]
  rfl

theorem Traffic.ReportedBy.not_legacy (f : RelayFormats) :
    isLegacyClaudeDerivedOpenAIUsage f usage = false := by
  rw [isLegacyClaudeDerivedOpenAIUsage, h.no5m, h.no1h]
  split
  · rfl
  · split <;> rfl

theorem Traffic.ReportedBy.quota_eq (settings : TextSettings) (ctx : TextContext)
    (info : TextRelayInfo) (hchannel : info.channelType ≠ some channelTypeOpenRouter)
    {isClaude : Bool} (hsemantic :
      decide (usageSemanticFromUsage info.formats (some usage) = "anthropic") = isClaude) :
    (calculateTextQuotaSummary settings ctx info (some usage)).quota =
      quotaOfCost info.priceData (promptTokens + t.completion)
        (textCost settings ctx info (!isClaude) (t.counts promptTokens)) := by
  have hcounts : billedCounts settings info isClaude usage = t.counts promptTokens := by
    rw [billedCounts, if_neg (fun hrouter => hchannel hrouter.1), h.counts_eq]
  simp only [calculateTextQuotaSummary, Option.getD_some, hsemantic, hcounts, h.not_legacy,
    Bool.not_false, Bool.and_true]
  rfl

end

theorem quotaOfCost_congr_total (price : PriceData) {m n : Int} (hm : m ≠ 0) (hn : n ≠ 0)
    (cost : ℚ) : quotaOfCost price m cost = quotaOfCost price n cost := by
  simp [quotaOfCost, if_neg hm, if_neg hn]

/-- **One price for one model**, whether cached tokens are reported in the prompt, as OpenAI does,
or apart, as Anthropic does. -/
theorem quota_openAI_eq_anthropic (settings : TextSettings) (ctx : TextContext)
    (info : TextRelayInfo) (hchannel : info.channelType ≠ some channelTypeOpenRouter)
    (t : Traffic) (ht : 0 < t.uncached + t.completion) {u v : TextUsage} {f g : RelayFormats}
    (hu : t.ReportedBy (t.uncached + t.cacheRead + t.cacheCreation) u)
    (hopenAI : usageSemanticFromUsage f (some u) ≠ "anthropic") (hv : t.ReportedBy t.uncached v)
    (hanthropic : usageSemanticFromUsage g (some v) = "anthropic") :
    (calculateTextQuotaSummary settings ctx { info with formats := f } (some u)).quota =
      (calculateTextQuotaSummary settings ctx { info with formats := g } (some v)).quota := by
  have hc : (t.counts (t.uncached + t.cacheRead + t.cacheCreation)).Unsplit :=
    ⟨Int.natCast_nonneg _, rfl, rfl⟩
  have huncached : (t.counts (t.uncached + t.cacheRead + t.cacheCreation)).uncached =
      { t.counts t.uncached with
        totalTokens := t.uncached + t.cacheRead + t.cacheCreation + t.completion } := by
    rw [TextCounts.uncached, Traffic.counts, add_sub_right_comm, add_sub_cancel_right,
      add_sub_cancel_right]
    rfl
  -- only the totals differ, and the cost does not depend on them
  have hcost : textCost settings ctx info true
      (t.counts (t.uncached + t.cacheRead + t.cacheCreation)) =
        textCost settings ctx info false (t.counts t.uncached) := by
    rw [textCost_included settings ctx info hc, huncached]
    rfl
  rw [hu.quota_eq settings ctx { info with formats := f } hchannel (decide_eq_false hopenAI),
    hv.quota_eq settings ctx { info with formats := g } hchannel (decide_eq_true hanthropic)]
  calc quotaOfCost info.priceData _ (textCost settings ctx info true _)
      = quotaOfCost info.priceData _ (textCost settings ctx info false (t.counts t.uncached)) := by
        rw [hcost]
    _ = quotaOfCost info.priceData (t.uncached + t.completion) _ :=
        quotaOfCost_congr_total info.priceData (by omega) (by omega) _

def samplePrice : PriceData where
  freeModel := false
  modelPrice := 0
  modelRatio := 3
  completionRatio := 5
  groupRatioInfo := { groupRatio := 1, groupSpecialRatio := -1, hasSpecialRatio := false }
  usePrice := false
  cacheRatio := 1 / 10
  cacheCreationRatio := 5 / 4
  quotaToPreConsume := 0

def sampleInfo : TextRelayInfo where
  originModelName := "claude-3-7-sonnet"
  formats := {}
  priceData := samplePrice

def sampleSettings : TextSettings where
  quotaPerUnit := 500000
  defaultModelRatio _ := none

/-- 100 prompt tokens, 50 read from the cache, 20 written to it, 10 of the completion. -/
theorem sample_quota_openAI_eq_anthropic :
    (calculateTextQuotaSummary sampleSettings {} { sampleInfo with formats := {} }
      (some { promptTokens := 170, completionTokens := 10, totalTokens := 180,
              cachedTokens := 50, cachedCreationTokens := 20 })).quota =
      (calculateTextQuotaSummary sampleSettings {}
        { sampleInfo with formats := { relayFormat := .claude } }
        (some { promptTokens := 100, completionTokens := 10, totalTokens := 110,
                cachedTokens := 50, cachedCreationTokens := 20 })).quota :=
  quota_openAI_eq_anthropic sampleSettings {} sampleInfo (by decide)
    { uncached := 100, cacheRead := 50, cacheCreation := 20, completion := 10 } (by decide)
    ⟨rfl, rfl, rfl, rfl, rfl, rfl, rfl, rfl⟩ (by decide)
    ⟨rfl, rfl, rfl, rfl, rfl, rfl, rfl, rfl⟩ (by decide)

end NomoApi
