import NomoApi.Tasks.Submit

/-! # The price of a remix

`ResolveOriginTask` puts the ratios of the original task into the price of a remix, before the first
attempt. But every attempt makes the price anew: an adaptor that leaves the ratios of a remix to
`ResolveOriginTask`, as that of Sora does, charges the base quota. -/

namespace NomoApi

open Scaling List

/-! ### The price of a remix -/

variable {settings : TaskSettings} {env : SubmitEnv} {info : TaskRelayInfo}

theorem price_remix {a : TaskAdaptor} (ha : a.LeavesRemixRatios) {info' : TaskRelayInfo}
    (hremix : info.action = taskActionRemix) (h : env.price settings a info = (info', none)) :
    modelPriceHelperPerCall settings info'.toPriceInfo = .ok info'.priceData := by
  obtain ⟨p, i, hp, hi, -, hprice⟩ := price_ok h
  have hempty := (modelPriceHelperPerCall_ok hp).2
  rw [ha.ratios i (hi.action.trans hremix)] at hprice
  rw [hp, hprice]
  exact congrArg Except.ok (applyOtherRatios_of_empty hempty).symm

theorem relayTaskSubmit_action (settings : TaskSettings)
    (hadaptor : ∀ a, env.adaptor = some a → a.LeavesRemixRatios)
    (hremix : info.action = taskActionRemix) :
    (relayTaskSubmit settings env info).1.action = taskActionRemix := by
  obtain ⟨action, hcont, rfl | ⟨a, ha, haction⟩⟩ := relayTaskSubmit_sameSubmission settings env info
  · exact hcont.action.trans hremix
  · have hsame := (hadaptor a ha).action (env.withChannel info) action hremix haction
    exact hcont.action.trans hsame

theorem preConsume_remix {a : TaskAdaptor} (ha : a.LeavesRemixRatios) {i j : TaskRelayInfo}
    (hremix : i.action = taskActionRemix) (hfirst : i.billing = none)
    (hj : env.price settings a i = (j, none)) {q : Int}
    (hq : (env.preConsume j).1.billing = some q) :
    ∃ p, modelPriceHelperPerCall settings (env.preConsume j).1.toPriceInfo = .ok p ∧
      q = p.quota := by
  have hnone : j.billing = none := by
    have h := (price_sameSubmission settings env a i).2
    rw [hj] at h
    exact h.trans hfirst
  rcases preConsume_cases env j with h | ⟨-, h⟩
  · rw [h, hnone] at hq
    cases hq
  · rw [h] at hq ⊢
    cases hq
    have hprice := price_remix ha hremix hj
    exact ⟨j.priceData, hprice, rfl⟩

theorem relayTaskSubmit_remix (hadaptor : ∀ a, env.adaptor = some a → a.LeavesRemixRatios)
    (hremix : info.action = taskActionRemix) (hfirst : info.billing = none) {q : Int}
    (hq : (relayTaskSubmit settings env info).1.billing = some q) :
    ∃ p, modelPriceHelperPerCall settings
      (relayTaskSubmit settings env info).1.toPriceInfo = .ok p ∧ q = p.quota := by
  have hreached := relayTaskSubmit_reached settings env info
  generalize relayTaskSubmit settings env info = out at hreached hq ⊢
  -- before the charge there is no session yet
  have hstart {a : TaskAdaptor} {action : String} (ha : env.adaptor = some a)
      (haction : a.validateRequestAndSetAction (env.withChannel info) = .ok action) :
      (env.identify settings { env.withChannel info with action }).1.action = taskActionRemix ∧
        (env.identify settings { env.withChannel info with action }).1.billing = none := by
    obtain ⟨hcont, hbilling⟩ :=
      identify_sameSubmission settings env { env.withChannel info with action }
    exact ⟨hcont.action.trans ((hadaptor a ha).action (env.withChannel info) action hremix haction),
      hbilling.trans hfirst⟩
  cases hreached with
  | rejected err =>
    rw [SubmitEnv.withChannel] at hq
    rw [hfirst] at hq
    cases hq
  | identified err ha haction =>
    rw [(hstart ha haction).2] at hq
    cases hq
  | @priced a action i err ha haction hi =>
    have h := (hstart ha haction).2
    rw [hi] at h
    rw [(price_sameSubmission settings env a i).2, h] at hq
    cases hq
  | charged err ha haction hi hj =>
    have h := hstart ha haction
    rw [hi] at h
    exact preConsume_remix (hadaptor _ ha) h.1 h.2 hj hq
  | @sent a action i j k ha haction hi hj hk =>
    have h := hstart ha haction
    rw [hi] at h
    obtain ⟨-, hbilling, hinfo, -⟩ := send_sameSubmission env a k
    rw [hbilling] at hq
    rw [hinfo]
    have hk' : k = (env.preConsume j).1 := (congrArg Prod.fst hk).symm
    rw [hk'] at hq ⊢
    exact preConsume_remix (hadaptor a ha) h.1 h.2 hj hq

theorem relayTaskAttempts_action (settings : TaskSettings) {attempts : List SubmitEnv}
    (hadaptors : ∀ e ∈ attempts, ∀ a, e.adaptor = some a → a.LeavesRemixRatios)
    (hremix : info.action = taskActionRemix) :
    (relayTaskAttempts settings attempts info).1.action = taskActionRemix := by
  induction attempts generalizing info with
  | nil => exact hremix
  | cons env rest ih =>
    have hnext := relayTaskSubmit_action settings (hadaptors env mem_cons_self) hremix
    rw [relayTaskAttempts]
    split
    · exact hremix
    · split
      · rename_i i r hsubmit
        rw [hsubmit] at hnext
        exact hnext
      · rename_i i err hsubmit
        rw [hsubmit] at hnext
        split
        · exact ih (fun e he => hadaptors e (mem_cons_of_mem env he)) hnext
        · exact hnext

/-! ### The ratios of the original task -/

variable {ratios : OtherRatios}

theorem positiveRatios_put (h : PositiveRatios ratios) (key : String) {ratio : ℚ}
    (hratio : 0 < ratio) : PositiveRatios (ratios.put (key, ratio)) := by
  intro r hr
  have hfind := Table.find?_key (Table.mem_iff.mpr hr)
  rw [Table.find?_put] at hfind
  split at hfind
  · cases hfind
    exact hratio
  · exact h r (Table.find?_eq_some.mp hfind).1

theorem sizeRatio_pos (size : String) : 0 < sizeRatio size := by
  rw [sizeRatio]
  split <;> norm_num

variable {p : TaskPriceData}

theorem addOtherRatio_positive (h : PositiveRatios p.otherRatios) (key : String) (ratio : ℚ) :
    PositiveRatios (p.addOtherRatio key ratio).otherRatios := by
  rw [TaskPriceData.addOtherRatio]
  split
  · exact h
  · exact positiveRatios_put h key (not_le.mp ‹_›)

theorem foldl_addOtherRatio_positive (rows : List (String × ℚ)) (h : PositiveRatios p.otherRatios) :
    PositiveRatios (rows.foldl (fun p r => p.addOtherRatio r.1 r.2) p).otherRatios := by
  induction rows generalizing p with
  | nil => exact h
  | cons r rows ih => exact ih (addOtherRatio_positive h r.1 r.2)

theorem addRatios_positive (t : OriginTask) (h : PositiveRatios p.otherRatios) :
    PositiveRatios (t.addRatios p).otherRatios := by
  rw [OriginTask.addRatios]
  split
  · exact foldl_addOtherRatio_positive _ h
  · have hseconds : 0 < ((if atoi t.dataSeconds ≤ 0 then 4 else atoi t.dataSeconds : Int) : ℚ) := by
      rw [Int.cast_pos]
      split <;> omega
    exact positiveRatios_put (positiveRatios_put h "seconds" hseconds) "size" (sizeRatio_pos _)

/-! ### What a remix is charged -/

/-- **The ratios leave a quota alone**, in some order: it is no less than it takes to get it, and
less than it takes to get one unit more. -/
def LeavesQuota (ratios : OtherRatios) (base : Int) : Prop :=
  ∃ order, Scaling.needed base.natAbs (ratiosInOrder order ratios) ≤ base.natAbs ∧
    base.natAbs < Scaling.needed (base.natAbs + 1) (ratiosInOrder order ratios)

theorem leavesQuota_iff (hpos : PositiveRatios ratios) (base : Int) : LeavesQuota ratios base ↔
      ∃ order, multiplyQuota base (ratiosInOrder order ratios) = base := by
  refine exists_congr fun order => ?_
  have horder := hpos.values.perm (ratiosInOrder_perm order ratios)
  obtain ⟨ε, hε, hbase⟩ := exists_sign_mul_natAbs base
  rw [← scaleAll_eq_self_iff horder, ← sign_mul_natCast_inj hε,
    ← multiplyQuota_eq hε horder, ← hbase]

/-- **Ratios from one on** leave a quota alone iff none of them adds a unit to it. -/
theorem leavesQuota_of_one_le (hone : ∀ r ∈ ratios.rows, 1 ≤ r.2) (base : Int) :
    LeavesQuota ratios base ↔ ∀ r ∈ ratios.rows, (base.natAbs : ℚ) * r.2 < base.natAbs + 1 := by
  have hmem (order : MapOrder (String × ℚ)) {P : ℚ → Prop} :
      (∀ x ∈ ratiosInOrder order ratios, P x) ↔ ∀ r ∈ ratios.rows, P r.2 := by
    rw [ratiosInOrder, forall_mem_map]
    exact ⟨fun h r hr => h r ((order.perm _).mem_iff.mpr hr),
      fun h r hr => h r ((order.perm _).mem_iff.mp hr)⟩
  have hself (order : MapOrder (String × ℚ)) :
      (needed base.natAbs (ratiosInOrder order ratios) ≤ base.natAbs ∧
        base.natAbs < needed (base.natAbs + 1) (ratiosInOrder order ratios)) ↔
      ∀ r ∈ ratios.rows, (base.natAbs : ℚ) * r.2 < base.natAbs + 1 := by
    have hone' := (@hmem order (1 ≤ ·)).mpr hone
    rw [← scaleAll_eq_self_iff fun r hr => zero_lt_one.trans_le (hone' r hr),
      scaleAll_eq_self_of_one_le hone', hmem]
  constructor
  · rintro ⟨order, h⟩
    exact (hself order).mp h
  · intro h
    exact ⟨.given _, (hself _).mpr h⟩

def videoSettings : TaskSettings where
  getModelPrice _ := (1 / 5, true)
  getModelRatio name := (0, false, name)
  getCompletionRatio _ := 1
  getCacheRatio _ := 1
  getCreateCacheRatio _ := 1
  getImageRatio _ := 1
  getAudioRatio _ := 1
  getAudioCompletionRatio _ := 1
  getGroupGroupRatio _ _ := none
  getGroupRatio _ := 1
  preConsumedQuota := 500
  quotaPerUnit := 500
  enableFreeModelPreConsume := false
  defaultModelPrice _ := none
  taskPricePatches := []
  maskSensitiveInfo text := text

def eightSeconds : OriginTask where
  channelId := 1
  originModelName := "sora-2"
  upstreamModelName := "sora-2"
  billingContext := some
    { originModelName := "sora-2"
      perCallBilling := false
      modelPrice := 1 / 5
      groupRatio := 1
      modelRatio := 0
      otherRatios := ⟨[("seconds", 8), ("size", 1)], by decide⟩ }
  dataModel := "sora-2"
  dataSeconds := "8"
  dataSize := "720x1280"

def remixRequest (origin : OriginTask) : OriginEnv where
  path := "/v1/videos/task_1/remix"
  videoID := "task_1"
  getByTaskId _ _ := .ok (some origin)
  getChannelById _ := .ok { enabled := true, channelType := 55, getNextEnabledKey := .ok "key" }

def remixInfo : TaskRelayInfo where
  originModelName := "sora-2"
  userGroup := "default"
  usingGroup := "default"
  autoGroup := none
  acceptUnsetRatioModel := false
  userId := 1
  channelId := 1
  channelType := 55

def soraEnv : SubmitEnv where
  channelId := 1
  channelType := 55
  apiKey := "key"
  platform := "sora"
  adaptor := some (soraAdaptor videoSettings (.ok { prompt := "a cat" }) fun _ => .ok "generate")
  autoGroup := none
  newTaskID := "task_2"
  order := .given _
  oldOrder := .given _
  newOrder := .given _
  response := .ok ("video_2", [])

def resolvedRemix (origin : OriginTask) : TaskRelayInfo :=
  { remixInfo with
    action := taskActionRemix
    originTaskID := "task_1"
    lockedChannel := some 1
    priceData := origin.addRatios {} }

theorem soraEnv_leavesRemixRatios :
    ∀ e ∈ [soraEnv], ∀ a, e.adaptor = some a → a.LeavesRemixRatios := by
  intro e he a ha
  rw [mem_singleton.mp he] at ha
  cases ha
  exact soraAdaptor_leavesRemixRatios _ _ _

end NomoApi
