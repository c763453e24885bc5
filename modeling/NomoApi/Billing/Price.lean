import NomoApi.Lib.Decimal
import NomoApi.Billing.Lifecycle

/-! # The estimate of a request

`ModelPriceHelper` (`relay/helper/price.go`) estimates the cost of a request, for which a billing
session is opened, to be settled for the actual cost.

The client's limit is an unsigned 64-bit number, converted to a signed one, and the validators
(`relay/helper/valid_request.go`) bound only `max_tokens` of OpenAI requests. A negative estimate
charges nothing, but the settlement charges it on top. -/

namespace NomoApi

open BillingSession Decimal

/-! ### Requests -/

/-- A field of type `any`: absent or `null`, a text, or anything else. -/
inductive AnyField where
  | absent
  | text (s : String)
  | other
  deriving DecidableEq

inductive TextMode where
  | chatCompletions
  | completions
  | embeddings
  | moderations
  | edits
  | other
  deriving DecidableEq

structure GeneralOpenAIRequest where
  model : String := ""
  maxTokens : Option UInt64 := none
  maxCompletionTokens : Option UInt64 := none
  searchContextSize : Option String := none
  prompt : AnyField := .absent
  messages : Nat := 0
  hasPrefix : Bool := false
  hasSuffix : Bool := false
  input : AnyField := .absent
  instruction : String := ""
  deriving DecidableEq

structure ClaudeRequest where
  model : String := ""
  messages : Nat := 0
  maxTokens : Option UInt64 := none
  deriving DecidableEq

structure OpenAIResponsesRequest where
  model : String := ""
  hasInput : Bool := false
  maxOutputTokens : Option UInt64 := none
  deriving DecidableEq

inductive TextRequest where
  | openAI (mode : TextMode) (r : GeneralOpenAIRequest)
  | claude (r : ClaudeRequest)
  | responses (r : OpenAIResponsesRequest)
  deriving DecidableEq

def defaultModel (paramModel : String) (mode : TextMode) (r : GeneralOpenAIRequest) : String :=
  if r.model ≠ "" then r.model
  else
    match mode with
    | .moderations => "text-moderation-latest"
    | .embeddings => paramModel
    | _ => ""

/-- The check of `WebSearchOptions`; an empty size means `medium`. -/
def checkSearchContextSize : Option String → Except String (Option String)
  | none => .ok none
  | some size =>
    if size = "" then .ok (some "medium")
    else if size = "high" ∨ size = "medium" ∨ size = "low" then .ok (some size)
    else .error "invalid search_context_size, must be one of: high, medium, low"

/-- What a text request must have. An absent `prompt` is not an empty text. -/
def checkContent (mode : TextMode) (r : GeneralOpenAIRequest) : Except String Unit :=
  match mode with
  | .completions =>
    if r.prompt = .text "" then .error "field prompt is required" else .ok ()
  | .chatCompletions =>
    if r.messages = 0 ∧ ¬ r.hasPrefix ∧ ¬ r.hasSuffix then .error "field messages is required"
    else .ok ()
  | .moderations =>
    if r.input = .absent ∨ r.input = .text "" then .error "field input is required" else .ok ()
  | .edits => if r.instruction = "" then .error "field instruction is required" else .ok ()
  | _ => .ok ()

/-- Only `max_tokens` is bounded. -/
def getAndValidateTextRequest (paramModel : String) (mode : TextMode) (r : GeneralOpenAIRequest) :
    Except String GeneralOpenAIRequest :=
  -- `max_completion_tokens` is not looked at
  if (r.maxTokens.getD 0).toNat > (2 ^ 31 - 1) / 2 then .error "max_tokens is invalid"
  else if defaultModel paramModel mode r = "" then .error "model is required"
  else do
    let searchContextSize ← checkSearchContextSize r.searchContextSize
    checkContent mode r
    return { r with model := defaultModel paramModel mode r, searchContextSize }

def getAndValidateClaudeRequest (r : ClaudeRequest) : Except String ClaudeRequest :=
  if r.messages = 0 then .error "field messages is required"
  else if r.model = "" then .error "field model is required"
  else .ok r

def getAndValidateResponsesRequest (r : OpenAIResponsesRequest) :
    Except String OpenAIResponsesRequest :=
  if r.model = "" then .error "model is required"
  else if ¬ r.hasInput then .error "input is required"
  else .ok r

/-- **`GetAndValidateRequest`**, for the three formats. -/
def getAndValidateRequest (paramModel : String) : TextRequest → Except String TextRequest
  | .openAI mode r => (getAndValidateTextRequest paramModel mode r).map (.openAI mode)
  | .claude r => (getAndValidateClaudeRequest r).map .claude
  | .responses r => (getAndValidateResponsesRequest r).map .responses

structure AcceptedRequest where
  request : TextRequest
  accepted : ∃ paramModel raw, getAndValidateRequest paramModel raw = .ok request

def TextRequest.limit : TextRequest → UInt64
  | .openAI _ r =>
    if r.maxCompletionTokens.getD 0 > r.maxTokens.getD 0 then r.maxCompletionTokens.getD 0
    else r.maxTokens.getD 0
  | .claude r => r.maxTokens.getD 0
  | .responses r => r.maxOutputTokens.getD 0

structure TokenCountMeta where
  maxTokens : Int
  imagePriceRatio : ℚ := 0

/-- **The limit as the estimate reads it**: the conversion keeps the 64 bits. -/
def TextRequest.tokenCountMeta (r : TextRequest) : TokenCountMeta where
  maxTokens := wrap64 r.limit.toNat

/-! ### Prices -/

/-- **The settings that prices are made of**. The ratios are exact. -/
structure PriceSettings where
  /-- `GetModelPrice`, and whether the model has a price. -/
  getModelPrice : String → ℚ × Bool
  /-- The ratio, whether it is set, and the name that was matched. -/
  getModelRatio : String → ℚ × Bool × String
  getCompletionRatio : String → ℚ
  getCacheRatio : String → ℚ
  getCreateCacheRatio : String → ℚ
  getImageRatio : String → ℚ
  getAudioRatio : String → ℚ
  getAudioCompletionRatio : String → ℚ
  getGroupGroupRatio : String → String → Option ℚ
  getGroupRatio : String → ℚ
  preConsumedQuota : Int64
  quotaPerUnit : ℚ
  enableFreeModelPreConsume : Bool

structure PriceInfo where
  originModelName : String
  userGroup : String
  usingGroup : String
  autoGroup : Option String
  acceptUnsetRatioModel : Bool

structure GroupRatioInfo where
  groupRatio : ℚ
  groupSpecialRatio : ℚ
  hasSpecialRatio : Bool
  deriving DecidableEq

variable (settings : PriceSettings) (info : PriceInfo)

/-- `autoGroup` goes first. -/
def handleGroupRatio : GroupRatioInfo :=
  let usingGroup := info.autoGroup.getD info.usingGroup
  match settings.getGroupGroupRatio info.userGroup usingGroup with
  | some ratio => ⟨ratio, ratio, true⟩
  | none => ⟨settings.getGroupRatio usingGroup, -1, false⟩

structure PriceData where
  freeModel : Bool
  modelPrice : ℚ
  modelRatio : ℚ := 0
  completionRatio : ℚ := 0
  groupRatioInfo : GroupRatioInfo
  usePrice : Bool
  cacheRatio : ℚ := 0
  imageRatio : ℚ := 0
  audioRatio : ℚ := 0
  audioCompletionRatio : ℚ := 0
  cacheCreationRatio : ℚ := 0
  cacheCreation5mRatio : ℚ := 0
  cacheCreation1hRatio : ℚ := 0
  quotaToPreConsume : Int
  deriving DecidableEq

def claudeCacheCreation1hMultiplier : ℚ := 6 / (375 / 100)

def PriceSettings.isFree (groupRatio price : ℚ) : Bool :=
  !settings.enableFreeModelPreConsume && (groupRatio = 0 || price = 0)

def unsetRatioMessage (matchName : String) : String :=
  "模型 " ++ matchName ++ " 倍率或价格未配置，请联系管理员设置或开始自用模式；Model " ++ matchName ++
    " ratio or price not set, please set or start self-use mode"

/-- The tokens of the estimate, in 64-bit arithmetic. -/
def preConsumedTokens (promptTokens : Int64) (tokenMeta : TokenCountMeta) : Int :=
  let tokens := max promptTokens.toInt settings.preConsumedQuota.toInt
  if tokenMeta.maxTokens ≠ 0 then wrap64 (tokens + tokenMeta.maxTokens) else tokens

def modelPriceHelper (promptTokens : Int64)
    (tokenMeta : TokenCountMeta) : Except String PriceData :=
  let (modelPrice, usePrice) := settings.getModelPrice info.originModelName
  let group := handleGroupRatio settings info
  if ¬ usePrice then
    let (modelRatio, success, matchName) := settings.getModelRatio info.originModelName
    if ¬ success ∧ ¬ info.acceptUnsetRatioModel then .error (unsetRatioMessage matchName)
    else
      let cacheCreationRatio := settings.getCreateCacheRatio info.originModelName
      let tokens := preConsumedTokens settings promptTokens tokenMeta
      let quota := Decimal.toInt64 (tokens * (modelRatio * group.groupRatio))
      -- a free model is not charged in advance
      let freeModel := settings.isFree group.groupRatio modelRatio
      .ok {
        freeModel
        modelPrice
        modelRatio
        completionRatio := settings.getCompletionRatio info.originModelName
        groupRatioInfo := group
        usePrice
        cacheRatio := settings.getCacheRatio info.originModelName
        imageRatio := settings.getImageRatio info.originModelName
        audioRatio := settings.getAudioRatio info.originModelName
        audioCompletionRatio := settings.getAudioCompletionRatio info.originModelName
        cacheCreationRatio
        cacheCreation5mRatio := cacheCreationRatio
        cacheCreation1hRatio := cacheCreationRatio * claudeCacheCreation1hMultiplier
        quotaToPreConsume := if freeModel then 0 else quota }
  else
    let price := if tokenMeta.imagePriceRatio ≠ 0 then modelPrice * tokenMeta.imagePriceRatio
      else modelPrice
    let freeModel := settings.isFree group.groupRatio price
    .ok {
      freeModel
      modelPrice := price
      groupRatioInfo := group
      usePrice
      quotaToPreConsume :=
        if freeModel then 0
        else Decimal.toInt64 (price * settings.quotaPerUnit * group.groupRatio) }

/-! ### The estimate -/

/-- **The cost of a request in exact numbers.** -/
def estimatedCost (promptTokens : Int64) (r : TextRequest) : ℚ :=
  wrap64 (max promptTokens.toInt settings.preConsumedQuota.toInt + r.limit.toNat) *
    ((settings.getModelRatio info.originModelName).1 * (handleGroupRatio settings info).groupRatio)

theorem preConsumedTokens_eq (promptTokens : Int64) (r : TextRequest) :
    preConsumedTokens settings promptTokens r.tokenCountMeta =
      wrap64 (max promptTokens.toInt settings.preConsumedQuota.toInt + r.limit.toNat) := by
  have hprompt := promptTokens.le_toInt
  have hprompt' := promptTokens.toInt_lt
  have hleast := settings.preConsumedQuota.le_toInt
  have hleast' := settings.preConsumedQuota.toInt_lt
  have hmeta : r.tokenCountMeta.maxTokens = wrap64 r.limit.toNat := by
    rw [TextRequest.tokenCountMeta]
  unfold preConsumedTokens
  dsimp only
  by_cases hzero : r.tokenCountMeta.maxTokens ≠ 0
  · rw [if_pos hzero, hmeta]
    exact Int.add_bmod_bmod
  · -- the limit is a multiple of `2 ^ 64`, so it is zero
    rw [if_neg hzero]
    rw [ne_eq, not_not, hmeta] at hzero
    have hlimit : (r.limit.toNat : Int) = 0 := by
      have hlt := r.limit.toNat_lt
      have hdvd := Int.dvd_of_bmod_eq_zero hzero
      omega
    rw [hlimit, Int.add_zero, wrap64_of_range (by omega) (by omega)]

theorem quotaToPreConsume_eq {settings : PriceSettings} {info : PriceInfo} {promptTokens : Int64}
    {r : TextRequest} {price : PriceData}
    (huse : (settings.getModelPrice info.originModelName).2 = false)
    (hmodel : 0 < (settings.getModelRatio info.originModelName).1)
    (hgroup : 0 < (handleGroupRatio settings info).groupRatio)
    (hprice : modelPriceHelper settings info promptTokens r.tokenCountMeta = .ok price) :
    price.quotaToPreConsume = Decimal.toInt64 (estimatedCost settings info promptTokens r) := by
  have hfree : settings.isFree (handleGroupRatio settings info).groupRatio
      (settings.getModelRatio info.originModelName).1 = false := by
    simp [PriceSettings.isFree, hmodel.ne', hgroup.ne']
  simp only [modelPriceHelper, huse] at hprice
  rw [if_pos (by simp)] at hprice
  split at hprice
  · cases hprice
  · cases hprice
    simp only [hfree, preConsumedTokens_eq, estimatedCost]
    rfl

/-! ### The session -/

/-- **`Settle`** in 64-bit arithmetic. -/
def BillingSession.settle64 (batch : Bool) (f : SettleFaults) (actualQuota : Int)
    (s : BillingSession) (b : BillingState) : Except Halt Unit × BillingSession × BillingState :=
  s.settle batch f (s.preConsumedQuota + wrap64 (actualQuota - s.preConsumedQuota)) b

def walletTrusted (env : SessionEnv) (info : RelayInfo) (userQuota : Int) : Bool :=
  (BillingSession.init (.wallet ⟨0⟩)).shouldTrust env { info with userQuota }

def readUserQuota (env : SessionEnv) (f : SessionFaults) (b : BillingState) : Except Halt Int :=
  readQuota env.cachedUserQuota f.userQuota b.accounts.user.quota

variable {env : SessionEnv}

theorem pos_of_walletTrusted {info : RelayInfo} {userQuota : Int}
    (h : walletTrusted env info userQuota = true) : 0 < userQuota := by
  unfold walletTrusted shouldTrust at h
  split at h
  · cases h
  · split at h
    · cases h
    · split at h
      · cases h
      · rename_i htrust _
        have hgt : env.trustQuota < userQuota := of_decide_eq_true h
        omega

theorem preConsume_wallet {env : FundingEnv} {f : FundingFaults} {amount : Int} {w : WalletFunding}
    {src : FundingSource} {a a' : Accounts}
    (h : (FundingSource.wallet w).preConsume env f amount a = .ok (src, a')) :
    a'.user.balance = a.user.balance - max amount 0 ∧ ∃ w', src = .wallet w' := by
  simp only [FundingSource.preConsume] at h
  split at h
  · rename_i hle
    cases h
    exact ⟨by rw [max_eq_right hle, Int.sub_zero], w, rfl⟩
  · obtain ⟨user, huser, h⟩ := bind_eq_ok.mp h
    cases h
    rw [decreaseUserQuota, if_neg (by omega)] at huser
    refine ⟨?_, _, rfl⟩
    rw [max_eq_left (by omega)]
    exact UserAccount.balance_add huser

variable {f : SessionFaults} {quota : Int} {b : BillingState} {s : BillingSession}

theorem BillingSession.preConsume_wallet_ok {b' : BillingState}
    (h : (BillingSession.init (.wallet ⟨0⟩)).preConsume env f quota b = (.ok s, b')) :
    s.preConsumedQuota =
        (if (BillingSession.init (.wallet ⟨0⟩)).shouldTrust env b.info then 0 else quota) ∧
      b'.accounts.user.balance = b.accounts.user.balance - max s.preConsumedQuota 0 ∧
      (∃ w, s.funding = .wallet w) ∧ s.fundingSettled = false ∧ s.settled = false ∧
      b'.info.billingSource = some .wallet := by
  unfold preConsume at h
  simp only at h
  generalize (if (init (.wallet ⟨0⟩)).shouldTrust env b.info then 0 else quota) =
    effectiveQuota at h ⊢
  cases htoken : (if effectiveQuota > 0 then
      preConsumeTokenQuota env f (init (.wallet ⟨0⟩)).funding.source b.info
        effectiveQuota b.accounts.token
    else .ok b.accounts.token) with
  | error e =>
    rw [htoken] at h
    cases h
  | ok token =>
    rw [htoken] at h
    dsimp only at h
    cases hfund : (init (.wallet ⟨0⟩)).funding.preConsume env.funding f.funding
        effectiveQuota (b.accounts.withToken token) with
    | error e =>
      rw [hfund] at h
      cases h
    | ok out =>
      obtain ⟨funding, accounts⟩ := out
      rw [hfund] at h
      cases h
      obtain ⟨hbalance, w, rfl⟩ := preConsume_wallet hfund
      exact ⟨rfl, hbalance, ⟨w, rfl⟩, rfl, rfl, rfl⟩

/-- **A session on the wallet** takes what was asked for, or nothing from a trusted user. -/
theorem tryWallet_eq_ok {b' : BillingState} (h : tryWallet env f quota b = (.ok s, b')) :
    ∃ userQuota, readUserQuota env f b = .ok userQuota ∧ quota ≤ userQuota ∧
      s.preConsumedQuota = (if walletTrusted env b.info userQuota then 0 else quota) ∧
      b'.accounts.user.balance = b.accounts.user.balance - max s.preConsumedQuota 0 ∧
      (∃ w, s.funding = .wallet w) ∧ s.fundingSettled = false ∧ s.settled = false ∧
      b'.info.billingSource = some .wallet := by
  unfold tryWallet at h
  cases hread : readQuota env.cachedUserQuota f.userQuota b.accounts.user.quota with
  | error e =>
    rw [hread] at h
    cases h
  | ok userQuota =>
    rw [hread] at h
    dsimp only at h
    split at h
    · cases h
    · split at h
      · cases h
      · exact ⟨userQuota, hread, by omega, preConsume_wallet_ok h⟩

theorem tryWallet_trusted {userQuota : Int} (hread : readUserQuota env f b = .ok userQuota)
    (htrust : walletTrusted env b.info userQuota = true) (hle : quota ≤ userQuota) :
    ∃ s b', tryWallet env f quota b = (.ok s, b') ∧ b'.accounts = b.accounts := by
  have hpos := pos_of_walletTrusted htrust
  have heff : (if (init (.wallet ⟨0⟩)).shouldTrust env { b.info with userQuota }
      then 0 else quota) = 0 := if_pos htrust
  unfold tryWallet
  rw [readUserQuota] at hread
  rw [hread]
  dsimp only
  rw [if_neg (by omega), if_neg (by omega)]
  unfold preConsume
  dsimp only
  rw [heff]
  exact ⟨_, _, rfl, rfl⟩

theorem settle64_wallet {batch : Bool} {actual : Int} {w : WalletFunding}
    (hfund : s.funding = .wallet w) (hsettled : s.settled = false)
    (hfsettled : s.fundingSettled = false) (hlow : -2 ^ 63 ≤ actual - s.preConsumedQuota)
    (hhigh : actual - s.preConsumedQuota < 2 ^ 63) :
    (s.settle64 batch .none actual b).2.2.accounts.user.balance =
      b.accounts.user.balance - (actual - s.preConsumedQuota) := by
  have hactual : s.preConsumedQuota + (actual - s.preConsumedQuota) = actual := by omega
  rw [settle64, wrap64_of_range hlow hhigh, hactual, settle]
  generalize actual - s.preConsumedQuota = delta
  rw [if_neg (by simp [hsettled])]
  dsimp only
  by_cases hzero : delta = 0
  · rw [if_pos hzero, hzero, Int.sub_zero]
  -- the delta is taken or given back, and no statement fails
  · obtain ⟨user, huser⟩ : ∃ user, adjustUser batch none delta b.accounts.user = .ok user := by
      unfold adjustUser
      split
      · exact ⟨_, by rw [decreaseUserQuota, if_neg (by omega), UserAccount.add_none]⟩
      · exact ⟨_, by rw [increaseUserQuota, if_neg (by omega), UserAccount.add_none]⟩
    have hsettle : (if s.fundingSettled then .ok b.accounts
        else s.funding.settle batch .none delta b.accounts) = .ok { b.accounts with user } := by
      -- the funding has not been settled before
      rw [hfsettled, if_neg Bool.false_ne_true, hfund, FundingSource.settle, if_neg hzero]
      exact bind_eq_ok.mpr ⟨user, huser, rfl⟩
    rw [if_neg hzero, hsettle]
    dsimp only
    have hbalance := balance_adjustUser huser
    split <;> exact hbalance

/-- **The estimate is charged exactly**: a session on the wallet takes it, and the settlement of any
cost leaves the wallet lower by that cost. -/
def ExactCharge (env : SessionEnv) (f : SessionFaults) (b : BillingState) (quota : Int) : Prop :=
  0 ≤ quota ∧ ∀ s b', tryWallet env f quota b = (.ok s, b') →
    b'.accounts.user.balance = b.accounts.user.balance - quota ∧
      ∀ actual, 0 ≤ actual → actual < 2 ^ 63 →
        (s.settle64 env.funding.batchUpdateEnabled .none actual b').2.2.accounts.user.balance =
          b.accounts.user.balance - actual

/-- **The requests whose estimate is charged exactly**: the cost is a 64-bit number from zero on,
and the user is not trusted, unless the cost is below one or the balance does not hold it. -/
theorem quotaToPreConsume_exact_iff {settings : PriceSettings} {info : PriceInfo}
    {promptTokens : Int64} {r : AcceptedRequest} {price : PriceData}
    (huse : (settings.getModelPrice info.originModelName).2 = false)
    (hmodel : 0 < (settings.getModelRatio info.originModelName).1)
    (hgroup : 0 < (handleGroupRatio settings info).groupRatio)
    (hprice : modelPriceHelper settings info promptTokens r.request.tokenCountMeta = .ok price)
    (env : SessionEnv) (f : SessionFaults) (b : BillingState) :
    ExactCharge env f b price.quotaToPreConsume ↔
      (-1 < estimatedCost settings info promptTokens r.request ∧
        estimatedCost settings info promptTokens r.request < 2 ^ 63) ∧
      ∀ userQuota, readUserQuota env f b = .ok userQuota →
        walletTrusted env b.info userQuota = true →
          estimatedCost settings info promptTokens r.request < 1 ∨
            userQuota + 1 ≤ estimatedCost settings info promptTokens r.request := by
  rw [quotaToPreConsume_eq huse hmodel hgroup hprice, ← nonneg_toInt64_iff]
  generalize estimatedCost settings info promptTokens r.request = cost
  refine and_congr_right fun hnonneg => ⟨fun h userQuota hread htrust => ?_, fun h s b' hopen => ?_⟩
  · have hpos := pos_of_walletTrusted htrust
    by_cases hle : toInt64 cost ≤ userQuota
    · -- the session is opened and takes nothing
      obtain ⟨s, b', hopen, haccounts⟩ := tryWallet_trusted hread htrust hle
      have hbalance := (h s b' hopen).1
      rw [haccounts] at hbalance
      have hzero : toInt64 cost ≤ 0 := by omega
      have hlt := (toInt64_le_iff hnonneg le_rfl).mp hzero
      norm_num at hlt
      exact .inl hlt
    · rw [toInt64_le_iff hnonneg hpos.le, not_lt] at hle
      exact .inr hle
  · obtain ⟨userQuota, hread, hle, hpre, hbalance, ⟨w, hfund⟩, hfsettled, hsettled, -⟩ :=
      tryWallet_eq_ok hopen
    -- trusted or not, the session has taken the estimate
    have hpre' : s.preConsumedQuota = toInt64 cost := by
      by_cases htrust : walletTrusted env b.info userQuota = true
      · rw [hpre, if_pos htrust]
        have hpos := pos_of_walletTrusted htrust
        rw [toInt64_le_iff hnonneg hpos.le] at hle
        have hlt := (h userQuota hread htrust).resolve_right (not_le.mpr hle)
        have hzero : toInt64 cost ≤ 0 :=
          (toInt64_le_iff hnonneg le_rfl).mpr (by norm_num; exact hlt)
        omega
      · rw [hpre, if_neg htrust]
    rw [hpre', max_eq_left hnonneg] at hbalance
    refine ⟨hbalance, fun actual hlow hhigh => ?_⟩
    have hlt := toInt64_lt cost
    rw [settle64_wallet hfund hsettled hfsettled (by omega) (by omega), hbalance, hpre']
    omega

/-! ### Two requests -/

def flatSettings : PriceSettings where
  getModelPrice _ := (-1, false)
  getModelRatio name := (1, true, name)
  getCompletionRatio _ := 1
  getCacheRatio _ := 1
  getCreateCacheRatio _ := 1
  getImageRatio _ := 1
  getAudioRatio _ := 1
  getAudioCompletionRatio _ := 1
  getGroupGroupRatio _ _ := none
  getGroupRatio _ := 1
  preConsumedQuota := 500
  quotaPerUnit := 500000
  enableFreeModelPreConsume := false

def flatInfo : PriceInfo := ⟨"m", "default", "default", none, false⟩

def claudeOf (maxTokens : UInt64) : AcceptedRequest where
  request := .claude { model := "m", messages := 1, maxTokens := some maxTokens }
  accepted := ⟨"", .claude { model := "m", messages := 1, maxTokens := some maxTokens }, rfl⟩

def flatPrice (quotaToPreConsume : Int) : PriceData where
  freeModel := false
  modelPrice := -1
  modelRatio := 1
  completionRatio := 1
  groupRatioInfo := ⟨1, -1, false⟩
  usePrice := false
  cacheRatio := 1
  imageRatio := 1
  audioRatio := 1
  audioCompletionRatio := 1
  cacheCreationRatio := 1
  cacheCreation5mRatio := 1
  cacheCreation1hRatio := claudeCacheCreation1hMultiplier
  quotaToPreConsume

def flatState : BillingState :=
  ⟨plainInfo "wallet_only", ⟨⟨10000, 0⟩, ⟨10000, 0, 0⟩, ⟨.empty, .empty⟩⟩⟩

theorem exactCharge_claudeOf :
    modelPriceHelper flatSettings flatInfo 0 (claudeOf 1000).request.tokenCountMeta =
        .ok (flatPrice 1500) ∧ ExactCharge plainEnv .none flatState 1500 := by
  have hprice : modelPriceHelper flatSettings flatInfo 0 (claudeOf 1000).request.tokenCountMeta =
      .ok (flatPrice 1500) := by decide +kernel
  have hcost : estimatedCost flatSettings flatInfo 0 (claudeOf 1000).request = 1500 := by
    decide +kernel
  refine ⟨hprice, (quotaToPreConsume_exact_iff rfl one_pos one_pos hprice plainEnv .none
    flatState).mpr ⟨?_, fun userQuota _ htrust => ?_⟩⟩
  · rw [hcost]
    norm_num
  · exact absurd htrust (by simp [walletTrusted, shouldTrust, plainEnv])

/-- **A limit of `2 ^ 64 - 1000000` is charged later**: a cost of `100` is settled by taking almost
a million. -/
theorem negative_estimate_overcharges : modelPriceHelper flatSettings flatInfo 0
          (claudeOf 18446744073708551616).request.tokenCountMeta = .ok (flatPrice (-999500)) ∧
      ∃ s b', tryWallet plainEnv .none (-999500) flatState = (.ok s, b') ∧
        s.preConsumedQuota = -999500 ∧ b'.accounts.user.balance = 10000 ∧
        (s.settle64 false .none 100 b').2.2.accounts.user.balance = 10000 - 999600 := by
  refine ⟨by decide +kernel, _, _, rfl, rfl, rfl, ?_⟩
  decide +kernel

end NomoApi
