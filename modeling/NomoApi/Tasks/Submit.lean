import NomoApi.Tasks.Ratios
import NomoApi.Tasks.Task

/-! # The submission of a task

`RelayTask` (`controller/relay.go`) submits a task. `ResolveOriginTask` takes the model, the channel
and, for a remix, the ratios from an existing task. `RelayTaskSubmit` (`relay/relay_task.go`),
called again after a failure that may be retried, prices the task, charges it in advance and sends
it upstream. -/

namespace NomoApi

/-! ### Errors -/

structure TaskError where
  code : String
  message : String
  statusCode : Int
  localError : Bool := false
  deriving DecidableEq

/-- A text that may name an upstream is masked. -/
def taskErrorWrapper (maskSensitiveInfo : String → String) (text code : String)
    (statusCode : Int) : TaskError :=
  let lowerText := toLower text
  let hidden := contains lowerText "post" || contains lowerText "dial" || contains lowerText "http"
  { code, message := if hidden then maskSensitiveInfo text else text, statusCode }

def taskErrorWrapperLocal (maskSensitiveInfo : String → String) (text code : String)
    (statusCode : Int) : TaskError :=
  { taskErrorWrapper maskSensitiveInfo text code statusCode with localError := true }

/-! ### Tasks and their billing context -/

/-- **`TaskBillingContext`** with the prices. -/
structure TaskBillingRecord extends TaskBillingContext where
  modelPrice : ℚ
  groupRatio : ℚ
  modelRatio : ℚ
  otherRatios : OtherRatios

structure OriginTask where
  channelId : Int
  originModelName : String
  upstreamModelName : String
  billingContext : Option TaskBillingRecord
  /-- The texts `model`, `seconds` and `size` of the stored JSON. -/
  dataModel : String
  dataSeconds : String
  dataSize : String

structure OriginChannel where
  enabled : Bool
  channelType : Int
  /-- `GetNextEnabledKey`: the key, or the text and the status of the error. -/
  getNextEnabledKey : Except (String × Int) String

structure TaskSettings extends PriceSettings where
  defaultModelPrice : String → Option ℚ
  taskPricePatches : List String
  maskSensitiveInfo : String → String

/-- **`RelayInfo`** of a task. `autoGroup` is `auto_group` of the context. -/
structure TaskRelayInfo extends PriceInfo where
  userId : Int
  action : String := ""
  originTaskID : String := ""
  publicTaskID : String := ""
  channelId : Int := 0
  channelType : Int := 0
  apiKey : String := ""
  lockedChannel : Option Int := none
  priceData : TaskPriceData := {}
  /-- What the billing session has charged in advance, if there is one. -/
  billing : Option Int := none
  billingSource : String := ""
  subscriptionId : Int := 0
  tokenId : Int := 0

def taskActionRemix : String := "remixGenerate"

/-! ### The original task -/

structure OriginEnv where
  path : String
  videoID : String
  getByTaskId : Int → String → Except String (Option OriginTask)
  getChannelById : Int → Except String OriginChannel

def OriginTask.modelName (t : OriginTask) (requested : String) : String :=
  if requested ≠ "" then requested
  else if t.originModelName ≠ "" then t.originModelName
  else if t.upstreamModelName ≠ "" then t.upstreamModelName
  else t.dataModel

def sizeRatio (size : String) : ℚ :=
  if size = "1792x1024" ∨ size = "1024x1792" then 1666667 / 1000000 else 1

/-- **The ratios of the original task**: of its billing context, or from its seconds and size. -/
def OriginTask.addRatios (t : OriginTask) (p : TaskPriceData) : TaskPriceData :=
  match t.billingContext with
  | some bc => bc.otherRatios.rows.foldl (fun p r => p.addOtherRatio r.1 r.2) p
  | none =>
    let seconds := if atoi t.dataSeconds ≤ 0 then 4 else atoi t.dataSeconds
    { p with
      otherRatios := (p.otherRatios.put ("seconds", seconds)).put ("size", sizeRatio t.dataSize) }

section Submit
variable (settings : TaskSettings)

def lockChannel (env : OriginEnv) (originTask : OriginTask)
    (info : TaskRelayInfo) : Except TaskError TaskRelayInfo :=
  let mask := settings.maskSensitiveInfo
  match env.getChannelById originTask.channelId with
  | .error err => .error (taskErrorWrapperLocal mask err "channel_not_found" 400)
  | .ok ch =>
    if ¬ ch.enabled then
      .error (taskErrorWrapperLocal mask "the channel of the origin task is disabled"
        "task_channel_disable" 400)
    else
      let info := { info with lockedChannel := some originTask.channelId }
      if originTask.channelId ≠ info.channelId then
        match ch.getNextEnabledKey with
        | .error (err, status) =>
          .error (taskErrorWrapper mask err "channel_no_available_key" status)
        | .ok key =>
          .ok { info with
            channelId := originTask.channelId, channelType := ch.channelType, apiKey := key }
      else .ok info

/-- A path `/v1/videos/…/remix` makes the request a remix. -/
def OriginEnv.detectRemix (env : OriginEnv) (info : TaskRelayInfo) : TaskRelayInfo :=
  if contains env.path "/v1/videos/" && hasSuffix env.path "/remix" then
    { info with action := taskActionRemix }
  else info

def resolveOriginTask (env : OriginEnv) (info : TaskRelayInfo) : Except TaskError TaskRelayInfo :=
  let mask := settings.maskSensitiveInfo
  let info := env.detectRemix info
  if info.action = taskActionRemix ∧ trimSpace env.videoID = "" then
    .error (taskErrorWrapperLocal mask "video_id is required" "invalid_request" 400)
  else
    let info := if info.action = taskActionRemix then { info with originTaskID := env.videoID }
      else info
    if info.originTaskID = "" then .ok info
    else
      match env.getByTaskId info.userId info.originTaskID with
      | .error err => .error (taskErrorWrapper mask err "get_origin_task_failed" 500)
      | .ok none =>
        .error (taskErrorWrapperLocal mask "task_origin_not_exist" "task_not_exist" 400)
      | .ok (some originTask) => do
          let info ← lockChannel settings env originTask
            { info with originModelName := originTask.modelName info.originModelName }
          if info.action = taskActionRemix then
            return { info with priceData := originTask.addRatios info.priceData }
          else return info

/-! ### Prices -/

/-- The price per call: configured, default, or what is charged in advance for a model priced by
tokens. -/
def perCallModelPrice (info : PriceInfo) : Except String ℚ :=
  let (modelPrice, success) := settings.getModelPrice info.originModelName
  if success then .ok modelPrice
  else
    match settings.defaultModelPrice info.originModelName with
    | some defaultPrice => .ok defaultPrice
    | none =>
      let (_, ratioSuccess, matchName) := settings.getModelRatio info.originModelName
      if ¬ ratioSuccess ∧ ¬ info.acceptUnsetRatioModel then .error (unsetRatioMessage matchName)
      else .ok (settings.preConsumedQuota.toInt / settings.quotaPerUnit)

/-- The price has no `OtherRatios`. -/
def modelPriceHelperPerCall (info : PriceInfo) : Except String TaskPriceData :=
  let groupRatioInfo := handleGroupRatio settings.toPriceSettings info
  (perCallModelPrice settings info).map fun modelPrice =>
    let freeModel := settings.isFree groupRatioInfo.groupRatio modelPrice
    { freeModel
      modelPrice
      quota := if freeModel then 0
        else toQuota (modelPrice * settings.quotaPerUnit * groupRatioInfo.groupRatio)
      groupRatioInfo }

/-! ### Adaptors -/

/-- **`TaskAdaptor`**, the methods that the price depends on. -/
structure TaskAdaptor where
  /-- `ValidateRequestAndSetAction`: the action, or an error. -/
  validateRequestAndSetAction : TaskRelayInfo → Except TaskError String
  estimateBilling : TaskRelayInfo → OtherRatios
  adjustBillingOnSubmit : TaskRelayInfo → List UInt8 → OtherRatios

structure TaskAdaptor.LeavesRemixRatios (a : TaskAdaptor) : Prop where
  action : ∀ info action, info.action = taskActionRemix →
    a.validateRequestAndSetAction info = .ok action → action = taskActionRemix
  ratios : ∀ info, info.action = taskActionRemix → a.estimateBilling info = .empty

/-- **`TaskSubmitReq`**, as far as Sora reads it. -/
structure TaskSubmitReq where
  prompt : String
  size : String := ""
  duration : Int := 0
  seconds : String := ""
  deriving DecidableEq

def soraEstimateBilling (req : Option TaskSubmitReq) (info : TaskRelayInfo) : OtherRatios :=
  if info.action = taskActionRemix then .empty
  else
    match req with
    | none => .empty
    | some req =>
      let seconds := if atoi req.seconds = 0 then req.duration else atoi req.seconds
      let seconds := if seconds ≤ 0 then 4 else seconds
      let size := if req.size = "" then "720x1280" else req.size
      (Table.empty.put ("seconds", (seconds : ℚ))).put ("size", sizeRatio size)

variable (body : Except String TaskSubmitReq) (multipart : TaskRelayInfo → Except TaskError String)

/-- **The adaptor of Sora.** `multipart` is what `ValidateMultipartDirect` makes of requests without
a decoded `body`. -/
def soraAdaptor : TaskAdaptor where
  validateRequestAndSetAction info :=
    if info.action = taskActionRemix then
      match body with
      | .error err =>
        .error (taskErrorWrapperLocal settings.maskSensitiveInfo err "invalid_request" 400)
      | .ok req =>
        if trimSpace req.prompt = "" then
          .error (taskErrorWrapperLocal settings.maskSensitiveInfo "field prompt is required"
            "invalid_request" 400)
        else .ok info.action
    else multipart info
  estimateBilling := soraEstimateBilling body.toOption
  adjustBillingOnSubmit _ _ := .empty

theorem soraAdaptor_leavesRemixRatios :
    (soraAdaptor settings body multipart).LeavesRemixRatios where
  action := by
    intro info action hremix hok
    simp only [soraAdaptor, if_pos hremix] at hok
    split at hok
    · cases hok
    · split at hok
      · cases hok
      · cases hok
        exact hremix
  ratios := fun _ hremix => if_pos hremix

/-! ### One attempt -/

structure SubmitEnv where
  setupError : Option TaskError := none
  channelId : Int
  channelType : Int
  apiKey : String
  platform : String
  adaptor : Option TaskAdaptor
  autoGroup : Option String
  modelMappedError : Option String := none
  newTaskID : String
  order : MapOrder (String × ℚ)
  oldOrder : MapOrder (String × ℚ)
  newOrder : MapOrder (String × ℚ)
  preConsumeError : Option TaskError := none
  response : Except TaskError (String × List UInt8)
  shouldRetry : TaskError → Bool := fun _ => false

structure TaskSubmitResult where
  upstreamTaskID : String
  taskData : List UInt8
  platform : String
  quota : Int
  deriving DecidableEq

def coverTaskActionToModelName (platform action : String) : String :=
  toLower platform ++ "_" ++ toLower action

variable (env : SubmitEnv)

variable (info : TaskRelayInfo)

/-- **`InitChannelMeta`**: the channel of the attempt. -/
def SubmitEnv.withChannel : TaskRelayInfo :=
  { info with channelId := env.channelId, channelType := env.channelType, apiKey := env.apiKey }

/-- Steps 2 and 3: the name of the model, the mapping and the public ID. -/
def SubmitEnv.identify : TaskRelayInfo × Option TaskError :=
  let modelName := if info.originModelName ≠ "" then info.originModelName
    else coverTaskActionToModelName env.platform info.action
  let info := { info with originModelName := modelName }
  match env.modelMappedError with
  | some err =>
    (info, some (taskErrorWrapperLocal settings.maskSensitiveInfo err "model_mapping_failed" 400))
  | none =>
    ({ info with
      publicTaskID := if info.publicTaskID = "" then env.newTaskID else info.publicTaskID }, none)

/-- Steps 4 to 6: **the price**, made anew. -/
def SubmitEnv.price (adaptor : TaskAdaptor)
    (info : TaskRelayInfo) : TaskRelayInfo × Option TaskError :=
  -- `HandleGroupRatio` also sets the group in use
  let info := { info with
    autoGroup := env.autoGroup, usingGroup := env.autoGroup.getD info.usingGroup }
  match modelPriceHelperPerCall settings info.toPriceInfo with
  | .error err =>
    (info, some (taskErrorWrapper settings.maskSensitiveInfo err "model_price_error" 400))
  | .ok priceData =>
    let info := { info with priceData }
    let priceData := (adaptor.estimateBilling info).rows.foldl
      (fun p r => p.addOtherRatio r.1 r.2) priceData
    let patched : Bool := info.originModelName ∈ settings.taskPricePatches
    ({ info with priceData := priceData.applyOtherRatios patched env.order }, none)

/-- Step 7: **the charge in advance**, once and not for a free model. -/
def SubmitEnv.preConsume : TaskRelayInfo × Option TaskError :=
  if info.billing = none ∧ ¬ info.priceData.freeModel then
    match env.preConsumeError with
    | some err => (info, some err)
    | none => ({ info with billing := some info.priceData.quota }, none)
  else (info, none)

/-- Steps 8 to 11: **the request**, and ratios that the upstream reports. -/
def SubmitEnv.send (adaptor : TaskAdaptor) (info : TaskRelayInfo) :
    TaskRelayInfo × Except TaskError TaskSubmitResult :=
  match env.response with
  | .error err => (info, .error err)
  | .ok (upstreamTaskID, taskData) =>
    let adjustedRatios := adaptor.adjustBillingOnSubmit info taskData
    if adjustedRatios.rows = [] then
      (info, .ok ⟨upstreamTaskID, taskData, env.platform, info.priceData.quota⟩)
    else
      let finalQuota :=
        recalcQuotaFromRatios env.oldOrder env.newOrder info.priceData adjustedRatios
      ({ info with
        priceData := { info.priceData with otherRatios := adjustedRatios, quota := finalQuota } },
        .ok ⟨upstreamTaskID, taskData, env.platform, finalQuota⟩)

/-- What an attempt has put into `info` stays when it fails. -/
def relayTaskSubmit : TaskRelayInfo × Except TaskError TaskSubmitResult :=
  let info := env.withChannel info
  match env.adaptor with
  | none =>
    (info, .error (taskErrorWrapperLocal settings.maskSensitiveInfo
      ("invalid api platform: " ++ env.platform) "invalid_api_platform" 400))
  | some adaptor =>
    match adaptor.validateRequestAndSetAction info with
    | .error err => (info, .error err)
    | .ok action =>
      match env.identify settings { info with action } with
      | (info, some err) => (info, .error err)
      | (info, none) =>
        match env.price settings adaptor info with
        | (info, some err) => (info, .error err)
        | (info, none) =>
          match env.preConsume info with
          | (info, some err) => (info, .error err)
          | (info, none) => env.send adaptor info

/-! ### All attempts -/

/-- **The loop of `RelayTask`**, up to the first attempt that succeeds or may not be retried. -/
def relayTaskAttempts : List SubmitEnv → TaskRelayInfo →
    TaskRelayInfo × Option (Except TaskError TaskSubmitResult)
  | [], info => (info, none)
  | env :: rest, info =>
    match env.setupError with
    | some err => (info, some (.error err))
    | none =>
      match relayTaskSubmit settings env info with
      | (info, .ok result) => (info, some (.ok result))
      | (info, .error err) =>
        if env.shouldRetry err ∧ rest ≠ [] then relayTaskAttempts rest info
        else (info, some (.error err))

/-- **A task as it is inserted**, with the prices of its billing context. -/
structure SubmittedTask where
  task : Task
  billing : TaskBillingRecord

/-- `constant.ChannelTypeGemini` and `constant.ChannelTypeVertexAi`, whose keys are stored. -/
def keepsKey (channelType : Int) : Bool := channelType = 24 ∨ channelType = 41

/-- **`InitTask`**, and what `RelayTask` adds to it. -/
def submittedTask (now : Int) (info : TaskRelayInfo) (result : TaskSubmitResult) : SubmittedTask :=
  let billing : TaskBillingRecord :=
    { modelPrice := info.priceData.modelPrice
      groupRatio := info.priceData.groupRatioInfo.groupRatio
      modelRatio := info.priceData.modelRatio
      otherRatios := info.priceData.otherRatios
      originModelName := info.originModelName
      perCallBilling := info.originModelName ∈ settings.taskPricePatches }
  { billing
    task :=
      { id := 0
        taskID := info.publicTaskID
        platform := result.platform
        userId := info.userId
        group := info.usingGroup
        channelId := info.channelId
        quota := result.quota
        action := info.action
        status := .notStart
        failReason := ""
        submitTime := now
        startTime := 0
        finishTime := 0
        progress := "0%"
        originModelName := info.originModelName
        privateData :=
          { key := if keepsKey info.channelType then info.apiKey else ""
            upstreamTaskID := result.upstreamTaskID
            resultURL := ""
            billingSource := info.billingSource
            subscriptionId := info.subscriptionId
            tokenId := info.tokenId
            billingContext := some billing.toTaskBillingContext }
        data := result.taskData } }

def relayTask (origin : OriginEnv) (attempts : List SubmitEnv)
    (now : Int) (info : TaskRelayInfo) : Option (Except TaskError SubmittedTask) :=
  match resolveOriginTask settings origin info with
  | .error err => some (.error err)
  | .ok info =>
    match relayTaskAttempts settings attempts info with
    | (_, none) => none
    | (_, some (.error err)) => some (.error err)
    | (info, some (.ok result)) => some (.ok (submittedTask settings now info result))

/-! ### How far an attempt gets -/

/-- **The stages of an attempt**: it fails in one of them, with what has been put into `info`, or
sends the task. -/
inductive Reached (info : TaskRelayInfo) : TaskRelayInfo × Except TaskError TaskSubmitResult → Prop
  | rejected (err : TaskError) : Reached info (env.withChannel info, .error err)
  | identified {a : TaskAdaptor} {action : String} (err : TaskError) (ha : env.adaptor = some a)
      (haction : a.validateRequestAndSetAction (env.withChannel info) = .ok action) :
      Reached info
        ((env.identify settings { env.withChannel info with action }).1, .error err)
  | priced {a : TaskAdaptor} {action : String} {i : TaskRelayInfo} (err : TaskError)
      (ha : env.adaptor = some a)
      (haction : a.validateRequestAndSetAction (env.withChannel info) = .ok action)
      (hi : env.identify settings { env.withChannel info with action } = (i, none)) :
      Reached info ((env.price settings a i).1, .error err)
  | charged {a : TaskAdaptor} {action : String} {i j : TaskRelayInfo} (err : TaskError)
      (ha : env.adaptor = some a)
      (haction : a.validateRequestAndSetAction (env.withChannel info) = .ok action)
      (hi : env.identify settings { env.withChannel info with action } = (i, none))
      (hj : env.price settings a i = (j, none)) :
      Reached info ((env.preConsume j).1, .error err)
  | sent {a : TaskAdaptor} {action : String} {i j k : TaskRelayInfo}
      (ha : env.adaptor = some a)
      (haction : a.validateRequestAndSetAction (env.withChannel info) = .ok action)
      (hi : env.identify settings { env.withChannel info with action } = (i, none))
      (hj : env.price settings a i = (j, none)) (hk : env.preConsume j = (k, none)) :
      Reached info (env.send a k)

theorem relayTaskSubmit_reached :
    Reached settings env info (relayTaskSubmit settings env info) := by
  simp only [relayTaskSubmit]
  split
  · exact .rejected _
  · rename_i a ha
    split
    · exact .rejected _
    · rename_i action haction
      split
      · rename_i i err hi
        have hfst : i = (env.identify settings { env.withChannel info with action }).1 :=
          (congrArg Prod.fst hi).symm
        rw [hfst]
        exact .identified err ha haction
      · rename_i i hi
        split
        · rename_i j err hj
          have hfst : j = (env.price settings a i).1 := (congrArg Prod.fst hj).symm
          rw [hfst]
          exact .priced err ha haction hi
        · rename_i j hj
          split
          · rename_i k err hk
            have hfst : k = (env.preConsume j).1 := (congrArg Prod.fst hk).symm
            rw [hfst]
            exact .charged err ha haction hi hj
          · rename_i k hk
            exact .sent ha haction hi hj hk

/-! ### What the stages keep -/

/-- **What the stages do not change**: who asks, and for what. -/
structure SameSubmission (i j : TaskRelayInfo) : Prop where
  userGroup : j.userGroup = i.userGroup
  action : j.action = i.action

theorem SameSubmission.trans {i j k : TaskRelayInfo} (h : SameSubmission i j)
    (h' : SameSubmission j k) : SameSubmission i k :=
  ⟨h'.userGroup.trans h.userGroup, h'.action.trans h.action⟩

theorem identify_sameSubmission : SameSubmission info (env.identify settings info).1 ∧
      (env.identify settings info).1.billing = info.billing := by
  simp only [SubmitEnv.identify]
  split <;> exact ⟨⟨rfl, rfl⟩, rfl⟩

theorem price_sameSubmission (a : TaskAdaptor)
    (info : TaskRelayInfo) : SameSubmission info (env.price settings a info).1 ∧
      (env.price settings a info).1.billing = info.billing := by
  simp only [SubmitEnv.price]
  split <;> exact ⟨⟨rfl, rfl⟩, rfl⟩

theorem preConsume_cases : (env.preConsume info).1 = info ∨
      info.billing = none ∧
        (env.preConsume info).1 = { info with billing := some info.priceData.quota } := by
  rw [SubmitEnv.preConsume]
  split
  · rename_i h
    split
    · exact Or.inl rfl
    · exact Or.inr ⟨h.1, rfl⟩
  · exact Or.inl rfl

theorem preConsume_sameSubmission : SameSubmission info (env.preConsume info).1 := by
  rcases preConsume_cases env info with h | ⟨-, h⟩ <;> rw [h] <;> exact ⟨rfl, rfl⟩

theorem send_sameSubmission (a : TaskAdaptor) (info : TaskRelayInfo) :
    SameSubmission info (env.send a info).1 ∧ (env.send a info).1.billing = info.billing ∧
      (env.send a info).1.toPriceInfo = info.toPriceInfo ∧
      (env.send a info).1.priceData.groupRatioInfo = info.priceData.groupRatioInfo := by
  simp only [SubmitEnv.send]
  split
  · exact ⟨⟨rfl, rfl⟩, rfl, rfl, rfl⟩
  · split <;> exact ⟨⟨rfl, rfl⟩, rfl, rfl, rfl⟩

theorem relayTaskSubmit_sameSubmission :
    ∃ action, SameSubmission { info with action } (relayTaskSubmit settings env info).1 ∧
      (action = info.action ∨ ∃ a, env.adaptor = some a ∧
        a.validateRequestAndSetAction (env.withChannel info) = .ok action) := by
  have hidentified {action : String} {i : TaskRelayInfo}
      (hi : env.identify settings { env.withChannel info with action } = (i, none)) :
      SameSubmission { info with action } i := by
    have h := (identify_sameSubmission settings env { env.withChannel info with action }).1
    rw [hi] at h
    exact ⟨h.userGroup, h.action⟩
  have hpriced {a : TaskAdaptor} {i j : TaskRelayInfo}
      (hj : env.price settings a i = (j, none)) : SameSubmission i j := by
    have h := (price_sameSubmission settings env a i).1
    rw [hj] at h
    exact h
  have hreached := relayTaskSubmit_reached settings env info
  generalize relayTaskSubmit settings env info = out at hreached
  cases hreached with
  | rejected err => exact ⟨info.action, ⟨rfl, rfl⟩, Or.inl rfl⟩
  | @identified a action err ha haction =>
    have h := (identify_sameSubmission settings env { env.withChannel info with action }).1
    exact ⟨action, ⟨h.userGroup, h.action⟩, Or.inr ⟨a, ha, haction⟩⟩
  | @priced a action i err ha haction hi =>
    have h := (hidentified hi).trans (price_sameSubmission settings env a i).1
    exact ⟨action, h, Or.inr ⟨a, ha, haction⟩⟩
  | @charged a action i j err ha haction hi hj =>
    have h := ((hidentified hi).trans (hpriced hj)).trans (preConsume_sameSubmission env j)
    exact ⟨action, h, Or.inr ⟨a, ha, haction⟩⟩
  | @sent a action i j k ha haction hi hj hk =>
    have hcharged := preConsume_sameSubmission env j
    rw [hk] at hcharged
    have h := ((hidentified hi).trans (hpriced hj)).trans
      (hcharged.trans (send_sameSubmission env a k).1)
    exact ⟨action, h, Or.inr ⟨a, ha, haction⟩⟩

end Submit

def groupRatioFor (settings : PriceSettings) (userGroup usingGroup : String) : ℚ :=
  match settings.getGroupGroupRatio userGroup usingGroup with
  | some ratio => ratio
  | none => settings.getGroupRatio usingGroup

theorem handleGroupRatio_groupRatio (settings : PriceSettings) (info : PriceInfo) :
    (handleGroupRatio settings info).groupRatio =
      groupRatioFor settings info.userGroup (info.autoGroup.getD info.usingGroup) := by
  rw [handleGroupRatio, groupRatioFor]
  cases settings.getGroupGroupRatio info.userGroup (info.autoGroup.getD info.usingGroup) <;> rfl

theorem foldl_addOtherRatio (rows : List (String × ℚ)) (p : TaskPriceData) :
    ∃ ratios, rows.foldl (fun p r => p.addOtherRatio r.1 r.2) p =
      { p with otherRatios := ratios } := by
  induction rows generalizing p with
  | nil => exact ⟨p.otherRatios, rfl⟩
  | cons r rows ih =>
    rw [List.foldl_cons]
    obtain ⟨ratios, hratios⟩ := ih (p.addOtherRatio r.1 r.2)
    refine ⟨ratios, hratios.trans ?_⟩
    rw [TaskPriceData.addOtherRatio]
    split <;> rfl

@[simp] theorem applyOtherRatios_groupRatioInfo (patched : Bool) (order : MapOrder (String × ℚ))
    (p : TaskPriceData) : (p.applyOtherRatios patched order).groupRatioInfo = p.groupRatioInfo := by
  rw [TaskPriceData.applyOtherRatios]
  split <;> rfl

theorem applyOtherRatios_of_empty {patched : Bool} {order : MapOrder (String × ℚ)}
    {p : TaskPriceData} (h : p.otherRatios = .empty) : p.applyOtherRatios patched order = p := by
  have hnone : ratiosInOrder order p.otherRatios = [] := by
    rw [h]
    exact List.perm_nil.mp (ratiosInOrder_perm order .empty)
  rw [TaskPriceData.applyOtherRatios, hnone]
  split <;> rfl

variable {settings : TaskSettings}

theorem modelPriceHelperPerCall_ok {info : PriceInfo} {p : TaskPriceData}
    (h : modelPriceHelperPerCall settings info = .ok p) :
    p.groupRatioInfo = handleGroupRatio settings.toPriceSettings info ∧ p.otherRatios = .empty := by
  rw [modelPriceHelperPerCall] at h
  cases hprice : perCallModelPrice settings info with
  | error err =>
    rw [hprice] at h
    cases h
  | ok price =>
    rw [hprice] at h
    cases h
    exact ⟨rfl, rfl⟩

variable {env : SubmitEnv} {info info' : TaskRelayInfo}

section

variable {a : TaskAdaptor} (h : env.price settings a info = (info', none))

include h

theorem price_ok :
    ∃ p i, modelPriceHelperPerCall settings info'.toPriceInfo = .ok p ∧ SameSubmission info i ∧
      info'.usingGroup = info'.autoGroup.getD info'.usingGroup ∧
      info'.priceData = ((a.estimateBilling i).rows.foldl
        (fun p r => p.addOtherRatio r.1 r.2) p).applyOtherRatios
          (decide (info'.originModelName ∈ settings.taskPricePatches)) env.order := by
  have hgroup (g : Option String) (u : String) : g.getD u = g.getD (g.getD u) := by
    cases g <;> rfl
  simp only [SubmitEnv.price] at h
  split at h
  · cases h
  · rename_i p hp
    cases h
    exact ⟨p, { info with
      autoGroup := env.autoGroup, usingGroup := env.autoGroup.getD info.usingGroup,
      priceData := p }, hp, ⟨rfl, rfl⟩, hgroup _ _, rfl⟩

theorem price_groupRatio : info'.priceData.groupRatioInfo.groupRatio =
      groupRatioFor settings.toPriceSettings info'.userGroup info'.usingGroup := by
  obtain ⟨p, i, hp, -, hgroup, hprice⟩ := price_ok h
  obtain ⟨ratios, hratios⟩ := foldl_addOtherRatio (a.estimateBilling i).rows p
  rw [hprice, applyOtherRatios_groupRatioInfo, hratios]
  show p.groupRatioInfo.groupRatio = _
  rw [(modelPriceHelperPerCall_ok hp).1, handleGroupRatio_groupRatio, ← hgroup]

end

/-! ### The group ratio of a task -/

variable {result : TaskSubmitResult}

theorem relayTaskSubmit_groupRatio (h : relayTaskSubmit settings env info = (info', .ok result)) :
    info'.userGroup = info.userGroup ∧ info'.priceData.groupRatioInfo.groupRatio =
        groupRatioFor settings.toPriceSettings info'.userGroup info'.usingGroup := by
  obtain ⟨action, hcont, -⟩ := relayTaskSubmit_sameSubmission settings env info
  have hreached := relayTaskSubmit_reached settings env info
  rw [h] at hcont hreached
  refine ⟨hcont.userGroup, ?_⟩
  generalize hout : (info', (Except.ok result : Except TaskError TaskSubmitResult)) = out
    at hreached
  cases hreached with
  | rejected err => cases hout
  | identified err ha haction => cases hout
  | priced err ha haction hi => cases hout
  | charged err ha haction hi hj => cases hout
  | @sent a action i j k ha haction hi hj hk =>
    have hinfo' : info' = (env.send a k).1 := congrArg Prod.fst hout
    obtain ⟨-, -, hsent, hgroup⟩ := send_sameSubmission env a k
    rw [hinfo', hsent, hgroup]
    -- the charge leaves the price and the groups alone
    have hk' : (env.preConsume j).1 = k := congrArg Prod.fst hk
    rcases preConsume_cases env j with hsame | ⟨-, hopened⟩
    · rw [← hk', hsame]
      exact price_groupRatio hj
    · have hprice := price_groupRatio hj
      rw [← hk', hopened]
      exact hprice

theorem relayTaskAttempts_groupRatio {attempts : List SubmitEnv}
    (h : relayTaskAttempts settings attempts info = (info', some (.ok result))) :
    info'.userGroup = info.userGroup ∧ info'.priceData.groupRatioInfo.groupRatio =
        groupRatioFor settings.toPriceSettings info'.userGroup info'.usingGroup := by
  induction attempts generalizing info with
  | nil => cases h
  | cons env rest ih =>
    rw [relayTaskAttempts] at h
    split at h
    · cases h
    · split at h
      · rename_i i r hsubmit
        cases h
        exact relayTaskSubmit_groupRatio hsubmit
      · rename_i i err hsubmit
        obtain ⟨action, hcont, -⟩ := relayTaskSubmit_sameSubmission settings env info
        rw [hsubmit] at hcont
        split at h
        · obtain ⟨hgroup, hratio⟩ := ih h
          exact ⟨hgroup.trans hcont.userGroup, hratio⟩
        · cases h

/-! ### Requests for an existing task -/

theorem lockChannel_ok {env : OriginEnv} {t : OriginTask}
    (h : lockChannel settings env t info = .ok info') :
    info'.action = info.action ∧ info'.priceData = info.priceData ∧
      info'.billing = info.billing ∧ info'.userGroup = info.userGroup := by
  simp only [lockChannel] at h
  split at h
  · cases h
  · obtain ⟨-, h⟩ := ite_error_eq_ok.mp h
    split at h
    · split at h
      · cases h
      · cases h
        exact ⟨rfl, rfl, rfl, rfl⟩
    · cases h
      exact ⟨rfl, rfl, rfl, rfl⟩

theorem detectRemix_keeps (env : OriginEnv) (info : TaskRelayInfo) :
    (env.detectRemix info).userId = info.userId ∧
      (env.detectRemix info).priceData = info.priceData ∧
      (env.detectRemix info).billing = info.billing ∧
      (env.detectRemix info).userGroup = info.userGroup := by
  rw [OriginEnv.detectRemix]
  split <;> exact ⟨rfl, rfl, rfl, rfl⟩

/-- **What resolving does**: nothing to the price, or it takes the ratios of the original task. -/
theorem resolveOriginTask_ok {env : OriginEnv}
    (h : resolveOriginTask settings env info = .ok info') :
    info'.userGroup = info.userGroup ∧ info'.billing = info.billing ∧
      (info'.action = taskActionRemix →
        ∃ t, env.getByTaskId info.userId env.videoID = .ok (some t) ∧
          info'.priceData = t.addRatios info.priceData) := by
  obtain ⟨huser, hprice, hbilling, hgroup⟩ := detectRemix_keeps env info
  simp only [resolveOriginTask] at h
  generalize env.detectRemix info = i at h huser hprice hbilling hgroup
  by_cases hremix : i.action = taskActionRemix
  · simp only [hremix, true_and, if_true] at h
    split at h
    · cases h
    · rename_i htrim
      have hid : ¬ env.videoID = "" := by
        intro hempty
        rw [hempty] at htrim
        exact htrim rfl
      rw [if_neg hid] at h
      split at h
      · cases h
      · cases h
      · rename_i t ht
        obtain ⟨j, hlock, hj⟩ := bind_eq_ok.mp h
        obtain ⟨haction, hlocked, hbilled, huserGroup⟩ := lockChannel_ok hlock
        rw [if_pos haction] at hj
        cases hj
        refine ⟨huserGroup.trans hgroup, hbilled.trans hbilling, fun _ => ⟨t, ?_, ?_⟩⟩
        · rw [← huser]
          exact ht
        · rw [← hprice, ← hlocked]
  · simp only [hremix, false_and, if_false] at h
    split at h
    · cases h
      exact ⟨hgroup, hbilling, fun h => absurd h hremix⟩
    · split at h
      · cases h
      · cases h
      · obtain ⟨j, hlock, hj⟩ := bind_eq_ok.mp h
        obtain ⟨haction, -, hbilled, huserGroup⟩ := lockChannel_ok hlock
        have hother : ¬ j.action = taskActionRemix := fun h => hremix (haction.symm.trans h)
        rw [if_neg hother] at hj
        cases hj
        exact ⟨huserGroup.trans hgroup, hbilled.trans hbilling, fun h => absurd h hother⟩

theorem relayTask_groupRatio {origin : OriginEnv} {attempts : List SubmitEnv} {now : Int}
    {st : SubmittedTask} (h : relayTask settings origin attempts now info = some (.ok st)) :
    st.billing.groupRatio =
      groupRatioFor settings.toPriceSettings info.userGroup st.task.group := by
  rw [relayTask] at h
  split at h
  · cases h
  · rename_i info₁ hresolve
    split at h
    · cases h
    · cases h
    · rename_i info₂ result hattempts
      cases h
      obtain ⟨hgroup, hratio⟩ := relayTaskAttempts_groupRatio hattempts
      rw [hgroup, (resolveOriginTask_ok hresolve).1] at hratio
      exact hratio

theorem relayTask_of_first {origin : OriginEnv} {info₁ : TaskRelayInfo}
    (hresolve : resolveOriginTask settings origin info = .ok info₁) (hsetup : env.setupError = none)
    (hresult : (relayTaskSubmit settings env info₁).2.toOption = some result)
    (rest : List SubmitEnv) (now : Int) : relayTask settings origin (env :: rest) now info =
      some (.ok (submittedTask settings now (relayTaskSubmit settings env info₁).1 result)) := by
  rw [relayTask, hresolve]
  simp only [relayTaskAttempts, hsetup]
  cases hsubmit : relayTaskSubmit settings env info₁ with
  | mk info₂ out =>
    rw [hsubmit] at hresult
    cases out with
    | error err => cases hresult
    | ok result' =>
      cases hresult
      rfl

end NomoApi
