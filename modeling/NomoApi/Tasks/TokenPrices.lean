import NomoApi.Tasks.Remix
import NomoApi.Tasks.Settlement

/-! # The price of a task by its tokens

`RecalculateTaskQuotaByTokens` (`service/task_billing.go`) prices a task that succeeded by its
tokens. The submission took the group ratio from the group of the user and the group in use; the
recalculation takes it from the group in use alone. -/

namespace NomoApi

def taskModelName (t : Task) : String :=
  match t.privateData.billingContext with
  | some bc => if bc.originModelName ≠ "" then bc.originModelName else t.originModelName
  | none => t.originModelName

structure TokenPrice where
  groupRatio : ℚ
  actualQuota : Int
  deriving DecidableEq

def completionGroup (getUserGroup : Int → Option String) (t : Task) : String :=
  if t.group = "" then (getUserGroup t.userId).getD "" else t.group

variable (settings : PriceSettings) (getUserGroup : Int → Option String)

def recalculateTaskQuotaByTokens (t : Task) (totalTokens : Int) : Option TokenPrice :=
  if totalTokens ≤ 0 then none
  else
    let (modelRatio, hasRatioSetting, _) := settings.getModelRatio (taskModelName t)
    -- a model with a fixed price is not priced by tokens
    if ¬ hasRatioSetting ∨ modelRatio ≤ 0 then none
    else
      let group := completionGroup getUserGroup t
      if group = "" then none
      else
        let groupRatio := settings.getGroupRatio group
        -- the special ratio of the group for itself
        let finalGroupRatio := (settings.getGroupGroupRatio group group).getD groupRatio
        some ⟨finalGroupRatio, toQuota (totalTokens * modelRatio * finalGroupRatio)⟩

/-- **A task is priced by its tokens**: there are some, the model has a positive ratio, and a group
is known. -/
structure PricedByTokens (settings : PriceSettings) (getUserGroup : Int → Option String)
    (t : Task) (totalTokens : Int) : Prop where
  tokens : 0 < totalTokens
  hasRatioSetting : (settings.getModelRatio (taskModelName t)).2.1 = true
  modelRatio : 0 < (settings.getModelRatio (taskModelName t)).1
  group : completionGroup getUserGroup t ≠ ""

theorem groupRatioFor_self (group : String) :
    (settings.getGroupGroupRatio group group).getD (settings.getGroupRatio group) =
      groupRatioFor settings group group := by
  rw [groupRatioFor]
  cases settings.getGroupGroupRatio group group <;> rfl

def tokenPrice (t : Task) (totalTokens : Int) : TokenPrice :=
  let groupRatio := groupRatioFor settings (completionGroup getUserGroup t)
    (completionGroup getUserGroup t)
  ⟨groupRatio, toQuota (totalTokens * (settings.getModelRatio (taskModelName t)).1 * groupRatio)⟩

theorem tokenPrice_eq_some {settings : PriceSettings} {getUserGroup : Int → Option String}
    {t : Task} {totalTokens : Int} {p : TokenPrice} :
    recalculateTaskQuotaByTokens settings getUserGroup t totalTokens = some p ↔
      PricedByTokens settings getUserGroup t totalTokens ∧
        p = tokenPrice settings getUserGroup t totalTokens := by
  simp only [recalculateTaskQuotaByTokens, groupRatioFor_self]
  rw [Option.ite_none_left_eq_some, Option.ite_none_left_eq_some, Option.ite_none_left_eq_some,
    not_or, not_not]
  constructor
  · rintro ⟨htokens, ⟨hsetting, hratio⟩, hgroup, h⟩
    cases h
    exact ⟨⟨not_le.mp htokens, hsetting, not_le.mp hratio, hgroup⟩, rfl⟩
  · rintro ⟨h, rfl⟩
    exact ⟨not_le.mpr h.tokens, ⟨h.hasRatioSetting, not_le.mpr h.modelRatio⟩, h.group, rfl⟩

variable (userGroup usingGroup group : String)

/-- **The two group ratios agree**: that of `userGroup` for `usingGroup`, special or plain, and that
of `group` for itself. -/
def SameGroupRatio : Prop :=
  match settings.getGroupGroupRatio userGroup usingGroup,
      settings.getGroupGroupRatio group group with
  | some special, some special' => special = special'
  | some special, none => special = settings.getGroupRatio group
  | none, some special' => settings.getGroupRatio usingGroup = special'
  | none, none => settings.getGroupRatio usingGroup = settings.getGroupRatio group

theorem sameGroupRatio_iff : SameGroupRatio settings userGroup usingGroup group ↔
      groupRatioFor settings userGroup usingGroup = groupRatioFor settings group group := by
  rw [SameGroupRatio, groupRatioFor, groupRatioFor]
  cases settings.getGroupGroupRatio userGroup usingGroup <;>
    cases settings.getGroupGroupRatio group group <;> rfl

/-- **Which tasks are priced with the group ratio of their submission.** -/
theorem completion_groupRatio_iff {settings : TaskSettings} {origin : OriginEnv}
    {attempts : List SubmitEnv} {now : Int} {info : TaskRelayInfo} {st : SubmittedTask}
    (hsubmit : relayTask settings origin attempts now info = some (.ok st))
    (getUserGroup : Int → Option String) (totalTokens : Int) :
    (∀ p, recalculateTaskQuotaByTokens settings.toPriceSettings getUserGroup st.task totalTokens =
        some p → p.groupRatio = st.billing.groupRatio) ↔
      (PricedByTokens settings.toPriceSettings getUserGroup st.task totalTokens →
        SameGroupRatio settings.toPriceSettings info.userGroup st.task.group
          (completionGroup getUserGroup st.task)) := by
  rw [relayTask_groupRatio hsubmit, sameGroupRatio_iff]
  constructor
  · intro h hpriced
    exact (h _ (tokenPrice_eq_some.mpr ⟨hpriced, rfl⟩)).symm
  · intro h p hp
    obtain ⟨hpriced, rfl⟩ := tokenPrice_eq_some.mp hp
    exact (h hpriced).symm

/-! ### A user of another group -/

def vipSettings : TaskSettings :=
  { videoSettings with
    getModelRatio := fun name => (2, true, name)
    getGroupGroupRatio := fun userGroup usingGroup =>
      if userGroup = "vip" ∧ usingGroup = "default" then some (1 / 2) else none }

def newVideo : OriginEnv :=
  { remixRequest eightSeconds with path := "/v1/videos", videoID := "" }

def vipInfo : TaskRelayInfo := { remixInfo with userGroup := "vip" }

def submittedVideo (info : TaskRelayInfo) (quota : Int) : SubmittedTask :=
  submittedTask vipSettings 1800000000 (relayTaskSubmit vipSettings soraEnv info).1
    ⟨"video_2", [], "sora", quota⟩

/-- A user of the group in use is priced with one ratio. -/
theorem default_user_same_groupRatio :
    relayTask vipSettings newVideo [soraEnv] 1800000000 remixInfo =
        some (.ok (submittedVideo remixInfo 400)) ∧
      ∀ p, recalculateTaskQuotaByTokens vipSettings.toPriceSettings (fun _ => none)
          (submittedVideo remixInfo 400).task 1000 = some p →
        p.groupRatio = (submittedVideo remixInfo 400).billing.groupRatio := by
  have hsubmit : relayTask vipSettings newVideo [soraEnv] 1800000000 remixInfo =
      some (.ok (submittedVideo remixInfo 400)) :=
    relayTask_of_first rfl rfl (by decide +kernel) [] 1800000000
  have hgroup : (submittedVideo remixInfo 400).task.group = "default" := by decide +kernel
  refine ⟨hsubmit, (completion_groupRatio_iff hsubmit (fun _ => none) 1000).mpr fun _ => ?_⟩
  rw [completionGroup, hgroup, if_neg (by decide)]
  exact (sameGroupRatio_iff ..).mpr rfl

/-- **Half price at submission, full price at completion**, for a user of the group `vip` in the
group `default`. -/
theorem vip_groupRatio_lost : relayTask vipSettings newVideo [soraEnv] 1800000000 vipInfo =
        some (.ok (submittedVideo vipInfo 200)) ∧
      (submittedVideo vipInfo 200).billing.groupRatio = 1 / 2 ∧
      recalculateTaskQuotaByTokens vipSettings.toPriceSettings (fun _ => some "vip")
        (submittedVideo vipInfo 200).task 1000 = some ⟨1, 2000⟩ :=
  ⟨relayTask_of_first rfl rfl (by decide +kernel) [] 1800000000, by decide +kernel,
    by decide +kernel⟩

end NomoApi
