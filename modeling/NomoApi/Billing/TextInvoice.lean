import Mathlib.Algebra.Order.BigOperators.GroupWithZero.List
import NomoApi.Billing.TextQuota

/-! # The invoice of a text request

The price of a request without roundings: counts at their unit prices times the further ratios. The
cost of `calculateTextQuotaSummary` is this price; the conversion to an `int` decides which requests
are charged. -/

namespace NomoApi

open Decimal List

/-! ### The lines -/

structure InvoiceLine where
  count : Int
  unitPrice : ℚ

def invoiceSum (lines : List InvoiceLine) : ℚ :=
  (lines.map fun l => (l.count : ℚ) * l.unitPrice).sum

section Invoice

variable (settings : TextSettings) (ctx : TextContext) (info : TextRelayInfo)

def moneyRatio : ℚ := info.priceData.groupRatioInfo.groupRatio * settings.quotaPerUnit

def toolLines : List InvoiceLine :=
  let line (charge : ToolCharge) : InvoiceLine :=
    ⟨charge.callCount, charge.price / 1000 * moneyRatio settings info⟩
  [line (webSearchCharge settings ctx info), line (claudeWebSearchCharge settings ctx info),
    line (fileSearchCharge settings info),
    ⟨1, (imageGenerationCharge settings ctx info).price * moneyRatio settings info⟩]

variable (included : Bool) (c : TextCounts)

def creationLines : List InvoiceLine :=
  let price := info.priceData
  if c.cacheCreationTokens = 0 ∧ c.cacheCreationTokens5m ≤ 0 ∧ c.cacheCreationTokens1h ≤ 0 then []
  else if included then [⟨c.cacheCreationTokens, price.cacheCreationRatio * price.ratio⟩]
  else
    [⟨max 0 (c.cacheCreationTokens - c.cacheCreationTokens5m - c.cacheCreationTokens1h),
        price.cacheCreationRatio * price.ratio⟩,
      ⟨c.cacheCreationTokens5m, price.cacheCreation5mRatio * price.ratio⟩,
      ⟨c.cacheCreationTokens1h, price.cacheCreation1hRatio * price.ratio⟩]

def tokenLines : List InvoiceLine :=
  let price := info.priceData
  let audioPrice := getGeminiInputAudioPricePerMillionTokens info.originModelName
  let audioTokens := if 0 < audioPrice then c.audioTokens else 0
  let cached := if included then c.cacheTokens + c.cacheCreationTokens else 0
  [⟨c.promptTokens - cached - c.imageTokens - audioTokens, price.ratio⟩,
    ⟨c.cacheTokens, price.cacheRatio * price.ratio⟩,
    ⟨c.imageTokens, price.imageRatio * price.ratio⟩,
    ⟨c.completionTokens, price.completionRatio * price.ratio⟩,
    ⟨audioTokens, audioPrice / 1000000 * moneyRatio settings info⟩]

/-- **The invoice** of a request. -/
def invoice : List InvoiceLine :=
  (if info.priceData.usePrice then [⟨1, info.priceData.modelPrice * moneyRatio settings info⟩]
    else tokenLines settings info included c ++ creationLines info included c) ++
  toolLines settings ctx info

/-- **The price of a request**: its invoice, times the further ratios. -/
def textPrice : ℚ :=
  invoiceSum (invoice settings ctx info included c) * (info.otherRatios.map Prod.snd).prod

end Invoice

theorem invoiceSum_cons (l : InvoiceLine) (lines : List InvoiceLine) :
    invoiceSum (l :: lines) = l.count * l.unitPrice + invoiceSum lines := by
  rw [invoiceSum, map_cons, sum_cons, invoiceSum]

@[simp] theorem invoiceSum_nil : invoiceSum [] = 0 := rfl

theorem invoiceSum_append (xs ys : List InvoiceLine) :
    invoiceSum (xs ++ ys) = invoiceSum xs + invoiceSum ys := by
  rw [invoiceSum, map_append, sum_append, invoiceSum, invoiceSum]

theorem applyOtherRatios_eq (otherRatios : List (String × ℚ)) (cost : ℚ) :
    applyOtherRatios otherRatios cost = cost * (otherRatios.map Prod.snd).prod := by
  induction otherRatios generalizing cost with
  | nil => simp [applyOtherRatios]
  | cons r rest ih =>
    rw [applyOtherRatios, foldl_cons, ← applyOtherRatios, ih, map_cons, prod_cons, mul_assoc]

section Invoice

variable (settings : TextSettings) (ctx : TextContext) (info : TextRelayInfo)

theorem perThousand_quota {price : ℚ} {n : Int} (h : price * 10 ^ 13 = n) (callCount : Int) :
    (perThousand settings info price callCount).quota =
      callCount * (price / 1000 * moneyRatio settings info) := by
  have hplaces : price * callCount / 1000 * 10 ^ 16 = (n * callCount : Int) := by
    rw [Int.cast_mul, ← h]
    ring
  rw [perThousand, moneyRatio, roundPlaces_of_places hplaces]
  ring

theorem webSearchPrice_places (modelName size : String) :
    ∃ n : Int, getWebSearchPricePerThousand modelName size * 10 ^ 13 = n := by
  rw [getWebSearchPricePerThousand]
  split
  · exact ⟨10 * 10 ^ 13, by norm_num⟩
  · exact ⟨25 * 10 ^ 13, by norm_num⟩

theorem webSearchCharge_quota :
    (webSearchCharge settings ctx info).quota = (webSearchCharge settings ctx info).callCount *
      ((webSearchCharge settings ctx info).price / 1000 * moneyRatio settings info) := by
  have hcharge (size : String) (k : Int) := perThousand_quota settings info
    (webSearchPrice_places info.originModelName size).choose_spec k
  rw [webSearchCharge]
  split
  · split
    · split
      · exact hcharge _ _
      · simp
    · simp
  · split
    · exact hcharge _ 1
    · simp

theorem claudeWebSearchCharge_quota : (claudeWebSearchCharge settings ctx info).quota =
      (claudeWebSearchCharge settings ctx info).callCount *
        ((claudeWebSearchCharge settings ctx info).price / 1000 * moneyRatio settings info) := by
  have hplaces : getClaudeWebSearchPricePerThousand / 1000 * 10 ^ 16 = (10 ^ 14 : Int) := by
    norm_num [getClaudeWebSearchPricePerThousand]
  rw [claudeWebSearchCharge]
  split
  · simp only [roundPlaces_of_places hplaces, moneyRatio]
    ring
  · simp

theorem fileSearchCharge_quota :
    (fileSearchCharge settings info).quota = (fileSearchCharge settings info).callCount *
      ((fileSearchCharge settings info).price / 1000 * moneyRatio settings info) := by
  have hplaces : getFileSearchPricePerThousand * 10 ^ 13 = (25 * 10 ^ 12 : Int) := by
    norm_num [getFileSearchPricePerThousand]
  rw [fileSearchCharge]
  split
  · split
    · split
      · exact perThousand_quota settings info hplaces _
      · simp
    · simp
  · simp

theorem imageGenerationCharge_quota : (imageGenerationCharge settings ctx info).quota =
      (imageGenerationCharge settings ctx info).price * moneyRatio settings info := by
  rw [imageGenerationCharge]
  split
  · exact mul_assoc _ _ _
  · simp

theorem toolQuota_eq : toolQuota settings ctx info = invoiceSum (toolLines settings ctx info) := by
  rw [toolQuota, webSearchCharge_quota, claudeWebSearchCharge_quota, fileSearchCharge_quota,
    imageGenerationCharge_quota, toolLines]
  simp only [invoiceSum_cons, invoiceSum_nil, Int.cast_one]
  ring

theorem audioPrice_places (modelName : String) :
    ∃ n : Int, getGeminiInputAudioPricePerMillionTokens modelName / 1000000 * 10 ^ 16 = n := by
  rw [getGeminiInputAudioPricePerMillionTokens]
  split
  · exact ⟨3 * 10 ^ 10, by norm_num⟩
  · split
    · exact ⟨5 * 10 ^ 9, by norm_num⟩
    · split
      · exact ⟨10 ^ 10, by norm_num⟩
      · split
        · exact ⟨10 ^ 10, by norm_num⟩
        · split
          · exact ⟨7 * 10 ^ 9, by norm_num⟩
          · split
            · exact ⟨10 ^ 10, by norm_num⟩
            · exact ⟨0, by norm_num⟩

theorem audio_priced_iff (c : TextCounts) (modelName : String) :
    (c.audioTokens ≠ 0 ∧ audioInputPrice modelName c > 0) ↔
      c.audioTokens ≠ 0 ∧ 0 < getGeminiInputAudioPricePerMillionTokens modelName := by
  rw [audioInputPrice]
  constructor
  · rintro ⟨haudio, hprice⟩
    rw [if_pos haudio] at hprice
    exact ⟨haudio, hprice⟩
  · rintro ⟨haudio, hprice⟩
    rw [if_pos haudio]
    exact ⟨haudio, hprice⟩

theorem audioInputQuota_eq (c : TextCounts) :
    audioInputQuota settings info.priceData c (audioInputPrice info.originModelName c) =
      (if 0 < getGeminiInputAudioPricePerMillionTokens info.originModelName then c.audioTokens
        else 0 : Int) * (getGeminiInputAudioPricePerMillionTokens info.originModelName / 1000000 *
          moneyRatio settings info) := by
  obtain ⟨n, hn⟩ := audioPrice_places info.originModelName
  simp only [audioInputQuota, audio_priced_iff]
  by_cases haudio : c.audioTokens = 0
  · rw [if_neg (fun h => h.1 haudio), haudio, ite_self, Int.cast_zero, zero_mul]
  · by_cases hprice : 0 < getGeminiInputAudioPricePerMillionTokens info.originModelName
    · rw [if_pos ⟨haudio, hprice⟩, if_pos hprice, audioInputPrice, if_pos haudio,
        roundPlaces_of_places hn, moneyRatio]
      ring
    · rw [if_neg (fun h => hprice h.2), if_neg hprice, Int.cast_zero, zero_mul]

section

variable (included : Bool) (c : TextCounts)

theorem baseTokens_eq : baseTokens included c (audioInputPrice info.originModelName c) =
      c.promptTokens - (if included then c.cacheTokens + c.cacheCreationTokens else 0) -
        c.imageTokens -
        (if 0 < getGeminiInputAudioPricePerMillionTokens info.originModelName then c.audioTokens
          else 0) := by
  -- a count that is not subtracted is zero
  have hskip {P : Prop} [Decidable P] (base n : Int) (hn : ¬ P → n = 0) :
      (if P then base - n else base) = base - n := by
    split
    · rfl
    · rw [hn ‹_›, sub_zero]
  have haudio (base : Int) {P : Prop} [Decidable P] :
      (if c.audioTokens ≠ 0 ∧ P then base - c.audioTokens else base) =
        base - if P then c.audioTokens else 0 := by
    by_cases hP : P
    · simp only [hP, and_true, if_true]
      exact hskip _ _ not_not.mp
    · simp only [hP, and_false, if_false, sub_zero]
  simp only [baseTokens, audio_priced_iff, haudio]
  rw [hskip _ c.imageTokens not_not.mp]
  cases included with
  | false => simp only [Bool.false_eq_true, and_false, if_false, sub_zero]
  | true =>
    simp only [and_true, if_true]
    rw [hskip _ c.cacheTokens not_not.mp, hskip _ c.cacheCreationTokens (by omega)]
    omega

theorem cachedCreation_eq :
    cachedCreationTokensWithRatio included info.priceData c * info.priceData.ratio =
      invoiceSum (creationLines info included c) := by
  rw [cachedCreationTokensWithRatio, creationLines]
  by_cases hnone : c.cacheCreationTokens = 0 ∧ c.cacheCreationTokens5m ≤ 0 ∧
      c.cacheCreationTokens1h ≤ 0
  · have hskip : ¬ (c.cacheCreationTokens ≠ 0 ∨ c.cacheCreationTokens5m > 0 ∨
        c.cacheCreationTokens1h > 0) := by
      omega
    rw [if_neg hskip, if_pos hnone, zero_mul, invoiceSum_nil]
  · have hsome : c.cacheCreationTokens ≠ 0 ∨ c.cacheCreationTokens5m > 0 ∨
        c.cacheCreationTokens1h > 0 := by
      omega
    rw [if_pos hsome, if_neg hnone]
    cases included with
    | true =>
      rw [if_pos rfl, if_pos rfl, invoiceSum_cons, invoiceSum_nil]
      ring
    | false =>
      have hmax (n : Int) : (if n < 0 then 0 else n) = max 0 n := by
        split <;> omega
      simp only [Bool.false_eq_true, if_false, hmax, invoiceSum_cons, invoiceSum_nil]
      ring

/-- **The cost is the price**: no rounding loses anything. -/
theorem textCost_eq_textPrice :
    textCost settings ctx info included c = textPrice settings ctx info included c := by
  have hskip (n : Int) (r : ℚ) : (if n ≠ 0 then n * r else 0) = n * r := by
    by_cases hn : n = 0
    · rw [if_neg (not_not.mpr hn), hn, Int.cast_zero, zero_mul]
    · rw [if_pos hn]
  rw [textCost, textPrice, invoice, invoiceSum_append, ← toolQuota_eq]
  by_cases huse : info.priceData.usePrice = true
  · rw [if_pos huse, if_pos huse, applyOtherRatios_eq, invoiceSum_cons, invoiceSum_nil, moneyRatio]
    ring
  · rw [if_neg huse, if_neg huse, applyOtherRatios_eq, invoiceSum_append, ← cachedCreation_eq,
      audioInputQuota_eq, baseTokens_eq, hskip, hskip, tokenLines]
    simp only [invoiceSum_cons, invoiceSum_nil]
    ring

end

end Invoice

/-! ### Which requests are charged -/

section Charged

variable (settings : TextSettings) (ctx : TextContext) (info : TextRelayInfo)
  (reported : Option TextUsage)

def billedUsage : TextUsage :=
  reported.getD (estimatedUsage info)

def reportedPrice : ℚ :=
  let isClaude : Bool := usageSemanticFromUsage info.formats reported = "anthropic"
  let usage := billedUsage info reported
  textPrice settings ctx info
    (!isClaude && !isLegacyClaudeDerivedOpenAIUsage info.formats usage)
    (billedCounts settings info isClaude usage)

/-- **A served request**: some count and its price are positive. `AddOtherRatio` keeps only positive
ratios. -/
structure Served : Prop where
  unit : 0 < settings.quotaPerUnit
  group : 0 < info.priceData.groupRatioInfo.groupRatio
  model : 0 < if info.priceData.usePrice then info.priceData.modelPrice
    else info.priceData.modelRatio
  other : ∀ r ∈ info.otherRatios, 0 < r.2
  used : 0 < (billedUsage info reported).promptTokens ∨
    0 < (billedUsage info reported).completionTokens ∧ 0 < info.priceData.completionRatio ∨
    0 < (billedUsage info reported).cachedTokens ∧ 0 < info.priceData.cacheRatio ∨
    0 < (billedUsage info reported).cachedCreationTokens ∧ 0 < info.priceData.cacheCreationRatio ∨
    0 < (webSearchCharge settings ctx info).callCount ∨
    0 < (claudeWebSearchCharge settings ctx info).callCount ∨
    0 < (fileSearchCharge settings info).callCount ∨
    ctx.imageGenerationCall = true

/-- **An amount that an `int` holds**, `k` times `2 ^ 64` set aside. -/
def InBand (k : ℤ) (x : ℚ) : Prop := k * 2 ^ 64 - 1 / 2 ≤ x ∧ x < k * 2 ^ 64 + 2 ^ 63 - 1 / 2

/-- **The requests that are charged**: there are tokens, the price is one that an `int` holds, and
it is not rounded to zero, unless the model has a ratio. -/
structure RequestCharged : Prop where
  tokens : (billedUsage info reported).promptTokens +
    (billedUsage info reported).completionTokens ≠ 0
  price : ∃ k, InBand k (max (reportedPrice settings ctx info reported) 0) ∧
    (info.priceData.modelRatio = 0 →
      k * 2 ^ 64 + 1 / 2 ≤ reportedPrice settings ctx info reported)

@[simp] theorem billedCounts_totalTokens (isClaude : Bool) (usage : TextUsage) :
    (billedCounts settings info isClaude usage).totalTokens =
      usage.promptTokens + usage.completionTokens := by
  rw [billedCounts]
  split <;> rfl

theorem calculateTextQuotaSummary_quota :
    (calculateTextQuotaSummary settings ctx info reported).quota = quotaOfCost info.priceData
        ((billedUsage info reported).promptTokens + (billedUsage info reported).completionTokens)
        (reportedPrice settings ctx info reported) := by
  simp only [calculateTextQuotaSummary, textCost_eq_textPrice, billedCounts_totalTokens]
  rfl

end Charged

theorem inBand_iff {k : ℤ} {x : ℚ} :
    InBand k x ↔ k * 2 ^ 64 ≤ ⌊x + 1 / 2⌋ ∧ ⌊x + 1 / 2⌋ < k * 2 ^ 64 + 2 ^ 63 := by
  rw [InBand, Int.le_floor, Int.floor_lt]
  push_cast
  exact and_congr sub_le_iff_le_add lt_sub_iff_add_lt

theorem wrap64_of_inBand {k : ℤ} {x : ℚ} (h : InBand k x) :
    wrap64 ⌊x + 1 / 2⌋ = ⌊x + 1 / 2⌋ - k * 2 ^ 64 := by
  obtain ⟨hlow, hhigh⟩ := inBand_iff.mp h
  rw [wrap64, Int.bmod_def]
  omega

theorem wrap64_nonneg_iff {x : ℚ} : 0 ≤ wrap64 ⌊x + 1 / 2⌋ ↔ ∃ k, InBand k x := by
  constructor
  · intro h
    refine ⟨⌊x + 1 / 2⌋ / 2 ^ 64, inBand_iff.mpr ?_⟩
    rw [wrap64, Int.bmod_def] at h
    omega
  · rintro ⟨k, h⟩
    rw [wrap64_of_inBand h, sub_nonneg]
    exact (inBand_iff.mp h).1

/-! ### The quota of a price -/

section

variable {price : PriceData} {cost : ℚ}
  (hcost : price.usePrice = true ∨ price.ratio = 0 → 0 ≤ cost) {total : Int}

include hcost

/-- **A price below zero counts as zero**: with a ratio it is raised to `1` in the end. -/
theorem quotaOfCost_eq : quotaOfCost price total cost =
    if total = 0 then 0
    else if price.ratio ≠ 0 ∧ wrap64 ⌊max cost 0 + 1 / 2⌋ = 0 then 1
    else wrap64 ⌊max cost 0 + 1 / 2⌋ := by
  rw [quotaOfCost]
  by_cases hraise : ¬ price.usePrice ∧ price.ratio ≠ 0 ∧ cost ≤ 0
  · have hone : wrap64 (roundInt 1) = 1 := by decide +kernel
    have hzero : wrap64 ⌊(0 : ℚ) + 1 / 2⌋ = 0 := by decide +kernel
    rw [if_pos hraise, hone, max_eq_right hraise.2.2, hzero]
    simp [hraise.2.1]
  · have hpos : 0 ≤ cost := by
      by_contra hneg
      by_cases hfree : price.usePrice = true ∨ price.ratio = 0
      · exact hneg (hcost hfree)
      · exact hraise ⟨fun h => hfree (.inl h), fun h => hfree (.inr h), (not_le.mp hneg).le⟩
    rw [if_neg hraise, roundInt_of_nonneg hpos, max_eq_left hpos]

theorem quotaOfCost_nonneg_iff :
    0 ≤ quotaOfCost price total cost ↔ total = 0 ∨ ∃ k, InBand k (max cost 0) := by
  rw [quotaOfCost_eq hcost, ← wrap64_nonneg_iff]
  split
  · simp [*]
  · split
    · rename_i hzero
      rw [hzero.2]
      simp
    · simp [*]

theorem quotaOfCost_of_inBand (htotal : total ≠ 0) {k : ℤ} (hk : InBand k (max cost 0)) :
    quotaOfCost price total cost =
      max (if price.ratio = 0 then 0 else 1) (⌊max cost 0 + 1 / 2⌋ - k * 2 ^ 64) := by
  have hlow := (inBand_iff.mp hk).1
  rw [quotaOfCost_eq hcost, if_neg htotal, wrap64_of_inBand hk]
  by_cases hratio : price.ratio = 0
  · rw [if_pos hratio, if_neg (fun h => h.1 hratio)]
    omega
  · simp only [hratio, ne_eq, not_false_eq_true, true_and, if_false]
    split <;> omega

theorem one_le_quotaOfCost_iff : 1 ≤ quotaOfCost price total cost ↔
    total ≠ 0 ∧ ∃ k, InBand k (max cost 0) ∧ (price.ratio = 0 → k * 2 ^ 64 + 1 / 2 ≤ cost) := by
  constructor
  · intro h
    have htotal : total ≠ 0 := by
      rintro rfl
      rw [quotaOfCost_eq hcost, if_pos rfl] at h
      cases h
    obtain hzero | ⟨k, hk⟩ := (quotaOfCost_nonneg_iff hcost).mp (zero_le_one.trans h)
    · exact absurd hzero htotal
    · refine ⟨htotal, k, hk, fun hratio => ?_⟩
      rw [quotaOfCost_of_inBand hcost htotal hk, if_pos hratio,
        max_eq_left (hcost (.inr hratio))] at h
      have hfloor : k * 2 ^ 64 + 1 ≤ ⌊cost + 1 / 2⌋ := by omega
      have := Int.le_floor.mp hfloor
      push_cast at this
      linarith
  · rintro ⟨htotal, k, hk, hround⟩
    rw [quotaOfCost_of_inBand hcost htotal hk]
    by_cases hratio : price.ratio = 0
    · have hfloor : k * 2 ^ 64 + 1 ≤ ⌊cost + 1 / 2⌋ := by
        refine Int.le_floor.mpr ?_
        push_cast
        linarith [hround hratio]
      rw [max_eq_left (hcost (.inr hratio))]
      omega
    · rw [if_neg hratio]
      exact le_max_left _ _

end

/-! ### Signs -/

theorem audioPrice_nonneg (modelName : String) :
    0 ≤ getGeminiInputAudioPricePerMillionTokens modelName := by
  unfold getGeminiInputAudioPricePerMillionTokens
  split_ifs <;> norm_num

variable {settings : TextSettings} {ctx : TextContext} {info : TextRelayInfo}

section Signs

variable (hunit : 0 ≤ settings.quotaPerUnit) (hgroup : 0 ≤ info.priceData.groupRatioInfo.groupRatio)

include hunit hgroup

theorem toolQuota_nonneg : 0 ≤ toolQuota settings ctx info := by
  have hcalls {price : ℚ} (hprice : 0 ≤ price) {n : Int} (hn : 0 < n) :
      0 ≤ (perThousand settings info price n).quota := by
    have hround := roundPlaces_nonneg (q := price * n / 1000) (by positivity)
    exact mul_nonneg (mul_nonneg hround hgroup) hunit
  have hweb (size : String) : 0 ≤ getWebSearchPricePerThousand info.originModelName size := by
    unfold getWebSearchPricePerThousand
    split <;> norm_num
  have himage (quality size : String) : 0 ≤ getGPTImage1PriceOnceCall quality size := by
    unfold getGPTImage1PriceOnceCall
    split <;> norm_num
  refine add_nonneg (add_nonneg (add_nonneg ?_ ?_) ?_) ?_
  · unfold webSearchCharge
    repeat' split
    exacts [hcalls (hweb _) ‹_›, le_rfl, le_rfl, hcalls (hweb _) one_pos,
      hcalls (hweb _) one_pos, le_rfl]
  · unfold claudeWebSearchCharge
    split
    · have hround := roundPlaces_nonneg (q := getClaudeWebSearchPricePerThousand / 1000)
        (by norm_num [getClaudeWebSearchPricePerThousand])
      exact mul_nonneg (mul_nonneg (mul_nonneg hround hgroup) hunit) (by positivity)
    · exact le_rfl
  · unfold fileSearchCharge
    repeat' split
    exacts [hcalls (by norm_num [getFileSearchPricePerThousand]) ‹_›, le_rfl, le_rfl, le_rfl]
  · unfold imageGenerationCharge
    split
    · exact mul_nonneg (mul_nonneg (himage _ _) hgroup) hunit
    · exact le_rfl

variable (hother : ∀ r ∈ info.otherRatios, 0 ≤ r.2) (included : Bool) {c : TextCounts}

include hother

theorem textPrice_nonneg_of_usePrice (huse : info.priceData.usePrice = true)
    (hmodel : 0 ≤ info.priceData.modelPrice) : 0 ≤ textPrice settings ctx info included c := by
  refine mul_nonneg ?_ (List.prod_nonneg (forall_mem_map.mpr hother))
  rw [invoice, invoiceSum_append, ← toolQuota_eq, if_pos huse, invoiceSum_cons, invoiceSum_nil,
    Int.cast_one, one_mul, add_zero]
  exact add_nonneg (mul_nonneg hmodel (mul_nonneg hgroup hunit)) (toolQuota_nonneg hunit hgroup)

/-- **Without a ratio** only audio and tools are paid for. -/
theorem textPrice_nonneg_of_ratio (huse : ¬ info.priceData.usePrice = true)
    (hratio : info.priceData.ratio = 0) (haudio : 0 ≤ c.audioTokens) :
    0 ≤ textPrice settings ctx info included c := by
  have hmoney : 0 ≤ moneyRatio settings info := mul_nonneg hgroup hunit
  have hprice := audioPrice_nonneg info.originModelName
  have hcount : 0 ≤ if 0 < getGeminiInputAudioPricePerMillionTokens info.originModelName
      then c.audioTokens else 0 := by
    split
    · exact haudio
    · exact le_rfl
  refine mul_nonneg ?_ (List.prod_nonneg (forall_mem_map.mpr hother))
  rw [invoice, invoiceSum_append, ← toolQuota_eq, if_neg huse]
  refine add_nonneg ?_ (toolQuota_nonneg hunit hgroup)
  rw [invoiceSum_append, ← cachedCreation_eq, tokenLines]
  simp only [invoiceSum_cons, invoiceSum_nil, hratio, mul_zero, zero_add, add_zero]
  positivity

end Signs

/-- **Which served requests are charged.** -/
theorem one_le_quota_iff (settings : TextSettings) (ctx : TextContext) (info : TextRelayInfo)
    (reported : Option TextUsage) (h : Served settings ctx info reported) :
    1 ≤ (calculateTextQuotaSummary settings ctx info reported).quota ↔
      RequestCharged settings ctx info reported := by
  have hratio : info.priceData.ratio = 0 ↔ info.priceData.modelRatio = 0 := by
    rw [PriceData.ratio, mul_eq_zero, or_iff_left h.group.ne']
  have hmodel := h.model
  have hcost (hfree : info.priceData.usePrice = true ∨ info.priceData.ratio = 0) :
      0 ≤ reportedPrice settings ctx info reported := by
    by_cases huse : info.priceData.usePrice = true
    · rw [if_pos huse] at hmodel
      exact textPrice_nonneg_of_usePrice h.unit.le h.group.le
        (fun r hr => (h.other r hr).le) _ huse hmodel.le
    · rw [if_neg huse] at hmodel
      exact absurd (hratio.mp (hfree.resolve_left huse)) hmodel.ne'
  rw [calculateTextQuotaSummary_quota, one_le_quotaOfCost_iff hcost, hratio]
  exact ⟨fun ⟨htokens, hprice⟩ => ⟨htokens, hprice⟩, fun h => ⟨h.tokens, h.price⟩⟩

/-- A request with 100 tokens in its prompt is charged. -/
theorem sample_one_le_quota : 1 ≤ (calculateTextQuotaSummary sampleSettings {} sampleInfo
      (some { promptTokens := 100, completionTokens := 0, totalTokens := 100 })).quota :=
  (one_le_quota_iff sampleSettings {} sampleInfo _
    ⟨by decide +kernel, by decide +kernel, by decide +kernel, nofun, .inl (by decide)⟩).mpr
    ⟨by decide, 0, ⟨by decide +kernel, by decide +kernel⟩, fun h => absurd h (by decide +kernel)⟩

/-- **A prompt that is read from the cache is free**: Anthropic counts cached tokens apart. -/
theorem cached_prompt_free :
    Served sampleSettings {} { sampleInfo with formats := { relayFormat := .claude } }
      (some { promptTokens := 0, completionTokens := 0, totalTokens := 0, cachedTokens := 1000 }) ∧
    (calculateTextQuotaSummary sampleSettings {}
      { sampleInfo with formats := { relayFormat := .claude } }
      (some { promptTokens := 0, completionTokens := 0, totalTokens := 0,
              cachedTokens := 1000 })).quota = 0 :=
  ⟨⟨by decide +kernel, by decide +kernel, by decide +kernel, nofun,
    .inr (.inr (.inl ⟨by decide, by decide +kernel⟩))⟩, by decide +kernel⟩

/-! ### Signs and monotonicity -/

/-- **A pricing without negative numbers**, as far as the sign of the quota depends on it. -/
structure NonnegPricing (settings : TextSettings) (info : TextRelayInfo) : Prop where
  unit : 0 ≤ settings.quotaPerUnit
  group : 0 ≤ info.priceData.groupRatioInfo.groupRatio
  modelPrice : 0 ≤ info.priceData.modelPrice
  modelRatio : 0 ≤ info.priceData.modelRatio
  completionRatio : 0 ≤ info.priceData.completionRatio
  other : ∀ r ∈ info.otherRatios, 0 ≤ r.2

/-- **A longer prompt or completion costs no less.** -/
theorem textPrice_mono (h : NonnegPricing settings info) (included : Bool) (c : TextCounts)
    {promptTokens completionTokens totalTokens : Int} (hprompt : c.promptTokens ≤ promptTokens)
    (hcompletion : c.completionTokens ≤ completionTokens) :
    textPrice settings ctx info included c ≤ textPrice settings ctx info included
      { c with promptTokens, completionTokens, totalTokens } := by
  have hratio : 0 ≤ info.priceData.ratio := mul_nonneg h.modelRatio h.group
  have hcompletionRatio := mul_nonneg h.completionRatio hratio
  refine mul_le_mul_of_nonneg_right ?_ (List.prod_nonneg (forall_mem_map.mpr h.other))
  rw [invoice, invoice, invoiceSum_append, invoiceSum_append]
  refine add_le_add_left ?_ _
  split
  · exact le_rfl
  · rw [invoiceSum_append, invoiceSum_append]
    refine add_le_add_left ?_ _
    simp only [tokenLines, invoiceSum_cons]
    gcongr

/-- **The quotas of two usages do not fall**: both prices are ones that an `int` holds, and passed
over it equally often, or else the rest of the second one happens to be no smaller. -/
def QuotaKept (price : PriceData) (total total' : Int) (x x' : ℚ) : Prop :=
  if total = 0 then total' = 0 ∨ ∃ k, InBand k x'
  else ∃ k k', InBand k x ∧ InBand k' x' ∧ (k = k' ∨
    ⌊x + 1 / 2⌋ - k * 2 ^ 64 ≤
      max (if price.ratio = 0 then 0 else 1) (⌊x' + 1 / 2⌋ - k' * 2 ^ 64))

theorem quotaKept_iff {price : PriceData} {total total' : Int} {cost cost' : ℚ}
    (hcost : price.usePrice = true ∨ price.ratio = 0 → 0 ≤ cost) (hmono : cost ≤ cost')
    (htotal : total ≠ 0 → total' ≠ 0) :
    0 ≤ quotaOfCost price total cost ∧
        quotaOfCost price total cost ≤ quotaOfCost price total' cost' ↔
      QuotaKept price total total' (max cost 0) (max cost' 0) := by
  have hcost' := fun hfree => (hcost hfree).trans hmono
  rw [QuotaKept]
  split
  · rename_i hzero
    rw [quotaOfCost_eq hcost, if_pos hzero, and_iff_right le_rfl, quotaOfCost_nonneg_iff hcost']
  · rename_i hzero
    have hfloor := Int.floor_le_floor (add_le_add_left (max_le_max_right 0 hmono) (1 / 2))
    constructor
    · rintro ⟨hnonneg, hle⟩
      obtain ⟨k, hk⟩ := ((quotaOfCost_nonneg_iff hcost).mp hnonneg).resolve_left hzero
      obtain ⟨k', hk'⟩ := ((quotaOfCost_nonneg_iff hcost').mp (hnonneg.trans hle)).resolve_left
        (htotal hzero)
      rw [quotaOfCost_of_inBand hcost hzero hk, quotaOfCost_of_inBand hcost' (htotal hzero) hk']
        at hle
      exact ⟨k, k', hk, hk', .inr ((le_max_right _ _).trans hle)⟩
    · rintro ⟨k, k', hk, hk', hrest⟩
      refine ⟨(quotaOfCost_nonneg_iff hcost).mpr (.inr ⟨k, hk⟩), ?_⟩
      rw [quotaOfCost_of_inBand hcost hzero hk, quotaOfCost_of_inBand hcost' (htotal hzero) hk']
      refine max_le (le_max_left _ _) ?_
      obtain rfl | hrest := hrest
      · exact le_max_of_le_right (by omega)
      · exact hrest

/-- **The quota is not negative and does not fall** with a longer prompt or completion iff the
prices are ones that an `int` holds. -/
theorem quota_nonneg_mono_iff (settings : TextSettings) (ctx : TextContext) (info : TextRelayInfo)
    (h : NonnegPricing settings info) (hchannel : info.channelType ≠ some channelTypeOpenRouter)
    (usage : TextUsage) {promptTokens completionTokens : Int} (hprompt₀ : 0 ≤ usage.promptTokens)
    (hcompletion₀ : 0 ≤ usage.completionTokens) (haudio : 0 ≤ usage.audioTokens)
    (hprompt : usage.promptTokens ≤ promptTokens)
    (hcompletion : usage.completionTokens ≤ completionTokens) :
    (0 ≤ (calculateTextQuotaSummary settings ctx info (some usage)).quota ∧
        (calculateTextQuotaSummary settings ctx info (some usage)).quota ≤
          (calculateTextQuotaSummary settings ctx info
            (some { usage with promptTokens, completionTokens })).quota) ↔
      QuotaKept info.priceData (usage.promptTokens + usage.completionTokens)
        (promptTokens + completionTokens) (max (reportedPrice settings ctx info (some usage)) 0)
        (max (reportedPrice settings ctx info
          (some { usage with promptTokens, completionTokens })) 0) := by
  have hcounts (isClaude : Bool) (u : TextUsage) :
      billedCounts settings info isClaude u = u.counts :=
    if_neg fun hrouter => hchannel hrouter.1
  have hmono : reportedPrice settings ctx info (some usage) ≤
      reportedPrice settings ctx info (some { usage with promptTokens, completionTokens }) := by
    simp only [reportedPrice, hcounts]
    exact textPrice_mono h _ usage.counts hprompt hcompletion
  have hcost (hfree : info.priceData.usePrice = true ∨ info.priceData.ratio = 0) :
      0 ≤ reportedPrice settings ctx info (some usage) := by
    simp only [reportedPrice, hcounts]
    by_cases huse : info.priceData.usePrice = true
    · exact textPrice_nonneg_of_usePrice h.unit h.group h.other _ huse h.modelPrice
    · exact textPrice_nonneg_of_ratio h.unit h.group h.other _ huse (hfree.resolve_left huse) haudio
  rw [calculateTextQuotaSummary_quota, calculateTextQuotaSummary_quota]
  exact quotaKept_iff hcost hmono fun htotal => by
    simp only [billedUsage, Option.getD_some] at htotal ⊢
    omega

/-- More tokens read from the cache than there are in the prompt. -/
def cachedUsage : TextUsage where
  promptTokens := 10
  completionTokens := 0
  totalTokens := 10
  cachedTokens := 50

theorem nonnegPricing_sample : NonnegPricing sampleSettings sampleInfo :=
  ⟨by decide +kernel, by decide +kernel, by decide +kernel, by decide +kernel, by decide +kernel,
    nofun⟩

theorem sample_quota_nonneg_mono :
    0 ≤ (calculateTextQuotaSummary sampleSettings {} sampleInfo (some cachedUsage)).quota ∧
      (calculateTextQuotaSummary sampleSettings {} sampleInfo (some cachedUsage)).quota ≤
        (calculateTextQuotaSummary sampleSettings {} sampleInfo
          (some { cachedUsage with promptTokens := 20, completionTokens := 3 })).quota :=
  (quota_nonneg_mono_iff sampleSettings {} sampleInfo nonnegPricing_sample (by decide) cachedUsage
    (by decide) (by decide) (by decide) (by decide) (by decide)).mpr (by
      rw [QuotaKept, if_neg (by decide)]
      exact ⟨0, 0, ⟨by decide +kernel, by decide +kernel⟩,
        ⟨by decide +kernel, by decide +kernel⟩, .inl rfl⟩)

/-- **A price beyond the range of an `int`** gives a negative quota. -/
theorem quota_wraps : NonnegPricing sampleSettings sampleInfo ∧
    (calculateTextQuotaSummary sampleSettings {} sampleInfo
      (some { cachedUsage with promptTokens := 2 ^ 62 })).quota < 0 :=
  ⟨nonnegPricing_sample, by decide +kernel⟩

end NomoApi
