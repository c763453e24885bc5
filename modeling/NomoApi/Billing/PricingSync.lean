import NomoApi.Channels.Select
import NomoApi.Relay.ModelMapping

/-! # Prices taken over from an upstream

`controller/upstream_pricing_sync.go` merges the prices of another gateway into the options. A merge
only adds: a model that is billed by tokens upstream keeps an old fixed price, and a completion
ratio of zero or one is never stored. -/

namespace NomoApi

open List

abbrev RatioMap : Type := String → Option ℚ

/-- **The options that are merged into** (`getExistingRatioOptions`). -/
structure RatioOptions where
  modelRatio : RatioMap
  completionRatio : RatioMap
  modelPrice : RatioMap
  groupRatio : RatioMap
  cacheRatio : RatioMap
  createCacheRatio : RatioMap

structure UpstreamPricingModel where
  modelName : String
  quotaType : Int
  modelPrice : ℚ
  modelRatio : ℚ
  completionRatio : ℚ
  cacheRatio : Option ℚ := none
  createCacheRatio : Option ℚ := none

namespace RatioMap

def put (m : RatioMap) (key : String) (value : ℚ) : RatioMap := Function.update m key (some value)

def put? (m : RatioMap) (key : String) (value : Option ℚ) : RatioMap := value.elim m (m.put key)

end RatioMap

variable (o : RatioOptions) (m : UpstreamPricingModel)

def RatioOptions.syncModel : RatioOptions :=
  let fixed := m.quotaType = 1 ∧ m.modelPrice > 0
  { o with
    modelPrice := if fixed then o.modelPrice.put m.modelName m.modelPrice else o.modelPrice
    modelRatio := if fixed then o.modelRatio else o.modelRatio.put m.modelName m.modelRatio
    completionRatio :=
      if m.completionRatio ≠ 0 ∧ m.completionRatio ≠ 1 then
        o.completionRatio.put m.modelName m.completionRatio
      else o.completionRatio
    cacheRatio := o.cacheRatio.put? m.modelName m.cacheRatio
    createCacheRatio := o.createCacheRatio.put? m.modelName m.createCacheRatio }

def syncUpstreamPricing (models : List UpstreamPricingModel)
    (groupRatios : List (String × ℚ)) : RatioOptions :=
  let o := models.foldl RatioOptions.syncModel o
  { o with groupRatio := groupRatios.foldl (fun m entry => m.put entry.1 entry.2) o.groupRatio }

inductive PricingDiffStatus
  | new
  | changed
  | unchanged
  deriving DecidableEq

def diffUpstreamModel : PricingDiffStatus :=
  if m.quotaType = 1 then
    match o.modelPrice m.modelName with
    | none => .new
    | some oldPrice => if oldPrice ≠ m.modelPrice then .changed else .unchanged
  else
    match o.modelRatio m.modelName with
    | none => .new
    | some oldRatio =>
      if oldRatio ≠ m.modelRatio ∨ (o.completionRatio m.modelName).getD 0 ≠ m.completionRatio then
        .changed
      else .unchanged

def compactWildcardModelKey : String := "*" ++ compactModelSuffix

def RatioOptions.getModelPrice (name : String) : ℚ × Bool :=
  let name := formatMatchingModelName name
  let price := o.modelPrice
    (if hasSuffix name compactModelSuffix then compactWildcardModelKey else name)
  (price.getD (-1), price.isSome)

/-- `GetModelRatio`, without the name that it looked up. -/
def RatioOptions.getModelRatio (selfUse : Bool) (name : String) : ℚ × Bool :=
  let name := formatMatchingModelName name
  match o.modelRatio name with
  | some ratio => (ratio, true)
  | none =>
    match if hasSuffix name compactModelSuffix then o.modelRatio compactWildcardModelKey
      else none with
    | some ratio => (ratio, true)
    | none => (75 / 2, selfUse)

def RatioOptions.getModelRatioOrPrice (selfUse : Bool) (name : String) : ℚ × Bool × Bool :=
  let (price, usePrice) := o.getModelPrice name
  if usePrice then (price, true, true)
  else
    let (modelRatio, success) := o.getModelRatio selfUse name
    if success then (modelRatio, false, true) else (75 / 2, false, false)

namespace UpstreamPricingModel

def Plain (m : UpstreamPricingModel) : Prop :=
  formatMatchingModelName m.modelName = m.modelName ∧
  hasSuffix m.modelName compactModelSuffix = false
deriving Decidable

def charge (m : UpstreamPricingModel) : ℚ × Bool :=
  if m.quotaType = 1 then (m.modelPrice, true) else (m.modelRatio, false)

/-- **The model can be taken over**: its price is positive or the one there is; or its completion
ratio is, and there is no fixed price. -/
def TakesOver (m : UpstreamPricingModel) (o : RatioOptions) : Prop :=
  if m.quotaType = 1 then 0 < m.modelPrice ∨ o.modelPrice m.modelName = some m.modelPrice
  else
    ((m.completionRatio ≠ 0 ∧ m.completionRatio ≠ 1) ∨
      (o.completionRatio m.modelName).getD 0 = m.completionRatio) ∧
    o.modelPrice m.modelName = none
deriving Decidable

end UpstreamPricingModel

namespace RatioOptions

def entry (o : RatioOptions) (name : String) : Option ℚ × Option ℚ × Option ℚ :=
  (o.modelPrice name, o.modelRatio name, o.completionRatio name)

variable {name : String} {o o' : RatioOptions} {m : UpstreamPricingModel}

theorem entry_syncModel_of_ne (o : RatioOptions) (h : name ≠ m.modelName) :
    (o.syncModel m).entry name = o.entry name := by
  simp only [entry, syncModel, RatioMap.put, ite_apply, Function.update_of_ne h, ite_self]

theorem entry_syncModel (o : RatioOptions) (m : UpstreamPricingModel) :
    (o.syncModel m).entry m.modelName =
      let fixed := m.quotaType = 1 ∧ m.modelPrice > 0
      (if fixed then some m.modelPrice else o.modelPrice m.modelName,
        if fixed then o.modelRatio m.modelName else some m.modelRatio,
        if m.completionRatio ≠ 0 ∧ m.completionRatio ≠ 1 then some m.completionRatio
        else o.completionRatio m.modelName) := by
  simp only [entry, syncModel, RatioMap.put, ite_apply, Function.update_self]

theorem entry_foldl_of_not_mem (models : List UpstreamPricingModel) (o : RatioOptions)
    (h : name ∉ models.map (·.modelName)) :
    (models.foldl syncModel o).entry name = o.entry name := by
  induction models generalizing o with
  | nil => rfl
  | cons m models ih =>
    rw [map_cons, mem_cons, not_or] at h
    rw [foldl_cons, ih _ h.2, entry_syncModel_of_ne o h.1]

theorem entry_foldl {models : List UpstreamPricingModel} (o : RatioOptions)
    (hnodup : (models.map (·.modelName)).Nodup) (hm : m ∈ models) :
    (models.foldl syncModel o).entry m.modelName = (o.syncModel m).entry m.modelName := by
  induction models generalizing o with
  | nil => cases hm
  | cons a models ih =>
    rw [map_cons, nodup_cons] at hnodup
    rw [foldl_cons]
    rcases mem_cons.mp hm with rfl | hm
    · exact entry_foldl_of_not_mem models _ hnodup.1
    · have hne : m.modelName ≠ a.modelName := fun he =>
        hnodup.1 (he ▸ mem_map_of_mem hm)
      have hentry := entry_syncModel_of_ne o hne
      simp only [entry, Prod.mk.injEq] at hentry
      rw [ih _ hnodup.2 hm, entry_syncModel, entry_syncModel, hentry.1, hentry.2.1, hentry.2.2]

variable (o) (selfUse : Bool)

theorem getModelRatioOrPrice_eq (hplain : m.Plain) : o.getModelRatioOrPrice selfUse m.modelName =
      match o.modelPrice m.modelName, o.modelRatio m.modelName with
      | some price, _ => (price, true, true)
      | none, some ratio => (ratio, false, true)
      | none, none => (75 / 2, false, selfUse) := by
  unfold getModelRatioOrPrice getModelPrice getModelRatio
  simp only [hplain.1, hplain.2, Bool.false_eq_true, if_false]
  cases o.modelPrice m.modelName <;> cases o.modelRatio m.modelName <;> cases selfUse <;> rfl

/-- **A merge takes a model over exactly when it can**: the comparison reports it as unchanged, and
it is charged as upstream. -/
theorem synced_iff_takesOver (o : RatioOptions) (models : List UpstreamPricingModel)
    (groupRatios : List (String × ℚ)) (selfUse : Bool)
    (hnodup : (models.map (·.modelName)).Nodup) (m : UpstreamPricingModel) (hm : m ∈ models)
    (hplain : m.Plain) :
    (diffUpstreamModel (syncUpstreamPricing o models groupRatios) m = .unchanged ∧
      (syncUpstreamPricing o models groupRatios).getModelRatioOrPrice selfUse m.modelName =
        (m.charge.1, m.charge.2, true)) ↔ m.TakesOver o := by
  have hentry := entry_foldl o hnodup hm
  rw [entry_syncModel] at hentry
  simp only [entry, Prod.mk.injEq] at hentry
  obtain ⟨hprice, hratio, hcompletion⟩ := hentry
  rw [getModelRatioOrPrice_eq _ _ hplain]
  unfold diffUpstreamModel syncUpstreamPricing UpstreamPricingModel.charge
    UpstreamPricingModel.TakesOver
  simp only [hprice, hratio, hcompletion]
  by_cases hquota : m.quotaType = 1
  · by_cases hpos : 0 < m.modelPrice
    · simp [hquota, hpos]
    · cases hold : o.modelPrice m.modelName <;> simp [hquota, hpos]
  · cases hold : o.modelPrice m.modelName with
    | none =>
      by_cases hstored : m.completionRatio ≠ 0 ∧ m.completionRatio ≠ 1
      · simp [hquota, hstored]
      · simp [hquota, hstored]
    | some price => simp [hquota]

private def pricedOptions : RatioOptions where
  modelRatio _ := none
  completionRatio _ := none
  modelPrice name := if name = "gpt-4" then some 2 else none
  groupRatio _ := none
  cacheRatio _ := none
  createCacheRatio _ := none

private def tokenModel (name : String) (completionRatio : ℚ) : UpstreamPricingModel where
  modelName := name
  quotaType := 0
  modelPrice := 0
  modelRatio := 15
  completionRatio

theorem synced_takesOver_o3 :
    diffUpstreamModel (syncUpstreamPricing pricedOptions [tokenModel "o3" 4] [])
      (tokenModel "o3" 4) = .unchanged :=
  ((synced_iff_takesOver pricedOptions [tokenModel "o3" 4] [] false (by decide) _
    (mem_singleton_self _) (by decide +kernel)).mpr (by decide +kernel)).1

/-- **A merge leaves an old price in force, and reports a change again** for a completion ratio of
one. -/
theorem sync_keeps_price :
    let models := [tokenModel "gpt-4" 4, tokenModel "o3" 1]
    let o := syncUpstreamPricing pricedOptions models []
    models.map (diffUpstreamModel o) = [.unchanged, .changed] ∧
    o.getModelRatioOrPrice false "gpt-4" = (2, true, true) := by
  decide +kernel

end RatioOptions

end NomoApi
