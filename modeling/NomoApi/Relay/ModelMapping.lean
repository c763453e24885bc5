import NomoApi.Lib.Chain
import NomoApi.Lib.While
import NomoApi.Relay.ChannelContext

/-! # The model that is sent upstream

A channel's mapping is followed from the requested name to the end of the chain
(`ModelMappedHelper`, `relay/helper/model_mapped.go`). A compaction request is routed under the
model's name with an ending, which is taken off before the mapping and put on the mapped name, which
then replaces the requested one. -/

namespace NomoApi

open List

def compactModelSuffix : String := "-openai-compact"

def withCompactModelSuffix (modelName : String) : String :=
  if hasSuffix modelName compactModelSuffix then modelName else modelName ++ compactModelSuffix

theorem trimSuffix_withCompactModelSuffix (modelName : String) :
    trimSuffix (withCompactModelSuffix modelName) compactModelSuffix =
      trimSuffix modelName compactModelSuffix := by
  unfold withCompactModelSuffix
  by_cases h : hasSuffix modelName compactModelSuffix = true
  · rw [if_pos h]
  · rw [if_neg h, trimSuffix_append, trimSuffix, if_neg h]

/-- **The mapping of a channel**: names and the names that replace them. -/
abbrev ModelMap := List (String × String)

def ModelMap.target (map : ModelMap) (model : String) : Option String :=
  (map.lookup model).filter fun mapped => mapped ≠ ""

section

variable {map : ModelMap} {model mapped : String} (h : map.target model = some mapped)

include h

theorem ModelMap.mem_of_target : (model, mapped) ∈ map := by
  obtain ⟨hlookup, -⟩ := Option.filter_eq_some_iff.mp h
  obtain ⟨before, after, rfl, -⟩ := lookup_eq_some_iff.mp hlookup
  exact mem_append_right before mem_cons_self

theorem ModelMap.ne_empty_of_target : mapped ≠ "" :=
  of_decide_eq_true (Option.filter_eq_some_iff.mp h).2

end

/-! ### The loop over the mapping -/

structure MappingState where
  currentModel : String
  visitedModels : List String
  isModelMapped : Bool

inductive MappingEnd
  | unmapped
  | reached (model : String) (isModelMapped : Bool)
  | cycle

def chainStep (map : ModelMap) (originModelName : String) (s : MappingState) :
    MappingState ⊕ MappingEnd :=
  match map.target s.currentModel with
  | none => .inr (.reached s.currentModel s.isModelMapped)
  | some mappedModel =>
    if mappedModel ∈ s.visitedModels then
      if mappedModel = s.currentModel then
        if s.currentModel = originModelName then .inr .unmapped
        else .inr (.reached s.currentModel true)
      else .inr .cycle
    else .inl ⟨mappedModel, mappedModel :: s.visitedModels, true⟩

/-- **The loop follows the chain** from `start`. -/
structure MappingState.OnChain (map : ModelMap) (start : String) (s : MappingState) : Prop where
  reaches : Relation.ReflTransGen (Points map.target) start s.currentModel
  current : s.currentModel ∈ s.visitedModels
  visited : ∀ m ∈ s.visitedModels, Relation.ReflTransGen (Points map.target) m s.currentModel
  unmapped : s.isModelMapped = false → s.currentModel = start
  mapped : s.isModelMapped = true → s.currentModel ≠ ""

/-- **What the end of the loop means.** -/
def MappingEnd.Meets (map : ModelMap) (originModelName start : String) : MappingEnd → Prop
  | .unmapped => ChainEnd map.target start originModelName
  | .reached model isModelMapped =>
    ChainEnd map.target start model ∧ (isModelMapped = false → model = start) ∧
      (isModelMapped = true → model ≠ "")
  | .cycle => ∀ model, ¬ ChainEnd map.target start model

def MappingState.left (map : ModelMap) (s : MappingState) : Nat :=
  (map.filter fun entry => entry.2 ∉ s.visitedModels).length

section

variable {map : ModelMap} {originModelName start : String} {s s' : MappingState}

theorem left_lt {mapped : String} (hmem : (s.currentModel, mapped) ∈ map)
    (hnew : mapped ∉ s.visitedModels) (isModelMapped : Bool) :
    MappingState.left map ⟨mapped, mapped :: s.visitedModels, isModelMapped⟩ < s.left map := by
  have hfilter : (map.filter fun entry => entry.2 ∉ mapped :: s.visitedModels) =
      (map.filter fun entry => entry.2 ∉ s.visitedModels).filter fun entry => entry.2 ≠ mapped := by
    rw [filter_filter]
    refine filter_congr fun entry _ => ?_
    simp [mem_cons]
  unfold MappingState.left
  rw [hfilter, length_filter_lt_length_iff_exists]
  refine ⟨(s.currentModel, mapped), mem_filter.mpr ⟨hmem, ?_⟩, ?_⟩
  · exact decide_eq_true hnew
  · simp

theorem chainStep_cases (map : ModelMap) (originModelName : String) (s : MappingState) :
    (map.target s.currentModel = none ∧
        chainStep map originModelName s = .inr (.reached s.currentModel s.isModelMapped)) ∨
      (∃ mapped ∉ s.visitedModels, map.target s.currentModel = some mapped ∧
        chainStep map originModelName s = .inl ⟨mapped, mapped :: s.visitedModels, true⟩) ∨
      (map.target s.currentModel = some s.currentModel ∧
        ((s.currentModel = originModelName ∧ chainStep map originModelName s = .inr .unmapped) ∨
          (s.currentModel ≠ originModelName ∧
            chainStep map originModelName s = .inr (.reached s.currentModel true)))) ∨
      ∃ mapped ∈ s.visitedModels, map.target s.currentModel = some mapped ∧
        mapped ≠ s.currentModel ∧ chainStep map originModelName s = .inr .cycle := by
  unfold chainStep
  cases htarget : map.target s.currentModel with
  | none => exact .inl ⟨rfl, rfl⟩
  | some mapped =>
    by_cases hvisited : mapped ∈ s.visitedModels
    · by_cases hself : mapped = s.currentModel
      · by_cases horigin : s.currentModel = originModelName
        all_goals simp_all
      · simp [hvisited, hself]
    · simp [hvisited]

/-- The invariant of the loop, with what was left behind. -/
structure MappingState.OnPath (map : ModelMap) (start : String) (s : MappingState) : Prop
    extends s.OnChain map start where
  started : start ∈ s.visitedModels
  moved : s.isModelMapped = true → s.currentModel ≠ start

theorem onPath_step (h : s.OnPath map start) (hstep : chainStep map originModelName s = .inl s') :
    s'.OnPath map start ∧ s'.left map < s.left map := by
  obtain ⟨-, hdone⟩ | ⟨mapped, hnew, htarget, hnext⟩ | ⟨-, ⟨-, hdone⟩ | ⟨-, hdone⟩⟩ |
    ⟨_, -, -, -, hdone⟩ := chainStep_cases map originModelName s
  · cases hstep.symm.trans hdone
  · cases hstep.symm.trans hnext
    have hpoints : Points map.target s.currentModel mapped :=
      ⟨htarget, fun heq => hnew (heq ▸ h.current)⟩
    refine ⟨⟨⟨h.reaches.tail hpoints, mem_cons_self, fun m hm => ?_, nofun,
      fun _ => ModelMap.ne_empty_of_target htarget⟩, mem_cons_of_mem _ h.started,
      fun _ (heq : mapped = start) => hnew (heq ▸ h.started)⟩,
      left_lt (ModelMap.mem_of_target htarget) hnew true⟩
    rcases mem_cons.mp hm with rfl | hm
    · exact .refl
    · exact (h.visited m hm).tail hpoints
  · cases hstep.symm.trans hdone
  · cases hstep.symm.trans hdone
  · cases hstep.symm.trans hdone

/-- **The chain is left exactly if the name is mapped**, and an error shows a cycle. -/
def MappingEnd.Exact (map : ModelMap) (originModelName start : String) : MappingEnd → Prop
  | .unmapped => True
  | .reached model isModelMapped =>
    isModelMapped = true → model ≠ start ∨ start ≠ originModelName
  | .cycle => EntersCycle map.target start

theorem meets_of_done {e : MappingEnd} (h : s.OnPath map start)
    (hstep : chainStep map originModelName s = .inr e) :
    e.Meets map originModelName start ∧ e.Exact map originModelName start := by
  obtain ⟨htarget, hdone⟩ | ⟨_, -, -, hnext⟩ | ⟨htarget, hself⟩ |
    ⟨mapped, hvisited, htarget, hne, hdone⟩ := chainStep_cases map originModelName s
  · cases hstep.symm.trans hdone
    refine ⟨⟨⟨h.reaches, fun y hy => ?_⟩, h.unmapped, h.mapped⟩, fun hm => .inl (h.moved hm)⟩
    cases htarget.symm.trans hy
  · cases hstep.symm.trans hnext
  · -- a name that is replaced by itself is the end of the chain
    have hend : ChainEnd map.target start s.currentModel :=
      ⟨h.reaches, fun y hy => Option.some.inj (hy.symm.trans htarget)⟩
    obtain ⟨horigin, hdone⟩ | ⟨horigin, hdone⟩ := hself
    · cases hstep.symm.trans hdone
      exact ⟨horigin ▸ hend, trivial⟩
    · cases hstep.symm.trans hdone
      refine ⟨⟨hend, nofun, fun _ => ModelMap.ne_empty_of_target htarget⟩, fun _ => ?_⟩
      by_cases hstart : s.currentModel = start
      · exact .inr (hstart ▸ horigin)
      · exact .inl hstart
  · cases hstep.symm.trans hdone
    have hcycle : EntersCycle map.target start :=
      ⟨s.currentModel, mapped, h.reaches, ⟨htarget, hne⟩, h.visited mapped hvisited⟩
    exact ⟨fun model => hcycle.not_chainEnd, hcycle⟩

/-- **The loop ends**, at the end of the chain or because the chain comes back. -/
theorem iterate_chainStep (map : ModelMap) (originModelName start : String) :
    ∃ e : MappingEnd, (e.Meets map originModelName start ∧ e.Exact map originModelName start) ∧
      iterate (chainStep map originModelName) (map.length + 1) ⟨start, [start], false⟩ =
        some e := by
  obtain ⟨e, hmeets, hfuel⟩ := iterate_of_invariant (MappingState.left map)
    (fun _ _ h hstep => onPath_step h hstep) (fun _ _ h hstep => meets_of_done h hstep)
    (s := ⟨start, [start], false⟩) ⟨⟨.refl, mem_singleton_self _, fun m hm => by
      rw [mem_singleton.mp hm], fun _ => rfl, nofun⟩, mem_singleton_self _, nofun⟩
  refine ⟨e, hmeets, hfuel _ ?_⟩
  exact Nat.lt_succ_of_le (length_filter_le _ _)

end

/-! ### The whole function -/

section

variable {Setting OtherSetting Override : Type} (readMap : String → Option ModelMap)

def mappingModelName (isResponsesCompact : Bool) (originModelName : String) : String :=
  if isResponsesCompact then trimSuffix originModelName compactModelSuffix else originModelName

def finishMapping (isResponsesCompact : Bool) (originModelName : String)
    (info : ChannelMeta Setting OtherSetting Override) :
    String × ChannelMeta Setting OtherSetting Override :=
  if isResponsesCompact then
    let finalUpstreamModelName :=
      if info.isModelMapped = true ∧ info.upstreamModelName ≠ "" then info.upstreamModelName
      else mappingModelName isResponsesCompact originModelName
    (withCompactModelSuffix finalUpstreamModelName,
      { info with upstreamModelName := finalUpstreamModelName })
  else (originModelName, info)

def modelMappedHelper (isResponsesCompact : Bool) (modelMapping originModelName : String)
    (info : ChannelMeta Setting OtherSetting Override) :
    Except String (String × ChannelMeta Setting OtherSetting Override) :=
  if modelMapping = "" ∨ modelMapping = "\x7b\x7d" then
    .ok (finishMapping isResponsesCompact originModelName info)
  else
    match readMap modelMapping with
    | none => .error "unmarshal_model_mapping_failed"
    | some map =>
      let start := mappingModelName isResponsesCompact originModelName
      match iterate (chainStep map originModelName) (map.length + 1)
        ⟨start, [start], info.isModelMapped⟩ with
      -- The bound is not reached, by `iterate_chainStep`.
      | none => .error ""
      | some .unmapped => .ok (originModelName, { info with isModelMapped := false })
      | some .cycle => .error "model_mapping_contains_cycle"
      | some (.reached model isModelMapped) =>
        let upstreamModelName := if isModelMapped then model else info.upstreamModelName
        .ok (finishMapping isResponsesCompact originModelName
          { info with isModelMapped, upstreamModelName })

def channelMap (modelMapping : String) : Option ModelMap :=
  if modelMapping = "" ∨ modelMapping = "\x7b\x7d" then some [] else readMap modelMapping

variable {readMap} {isResponsesCompact : Bool} {modelMapping originModelName : String}
  {info : ChannelMeta Setting OtherSetting Override}

theorem finishMapping_spec {model : String} {isModelMapped : Bool}
    (hunmapped : isModelMapped = false →
      model = mappingModelName isResponsesCompact originModelName)
    (hmapped : isModelMapped = true → model ≠ "") :
    ∃ origin', finishMapping isResponsesCompact originModelName { info with
            isModelMapped
            upstreamModelName := if isModelMapped then model else originModelName } =
        (origin', { info with isModelMapped, upstreamModelName := model }) ∧
      mappingModelName isResponsesCompact origin' =
        if isResponsesCompact then trimSuffix model compactModelSuffix else originModelName := by
  cases isResponsesCompact with
  | false =>
    refine ⟨originModelName, ?_, rfl⟩
    cases isModelMapped with
    | true => rfl
    | false =>
      rw [hunmapped rfl]
      rfl
  | true =>
    refine ⟨withCompactModelSuffix model, ?_, ?_⟩
    · unfold finishMapping
      cases isModelMapped with
      | true => simp [hmapped rfl]
      | false => simp [hunmapped rfl]
    · rw [mappingModelName, if_pos rfl, if_pos rfl, trimSuffix_withCompactModelSuffix]

/-- **What the function gives**, for a channel that was just set up. -/
theorem modelMapped_cases (hmapped : info.isModelMapped = false)
    (hupstream : info.upstreamModelName = originModelName) :
    (∃ map model origin' isModelMapped, channelMap readMap modelMapping = some map ∧
        ChainEnd map.target (mappingModelName isResponsesCompact originModelName) model ∧
        modelMappedHelper readMap isResponsesCompact modelMapping originModelName info =
          .ok (origin', { info with isModelMapped, upstreamModelName := model }) ∧
        mappingModelName isResponsesCompact origin' =
          if isResponsesCompact then trimSuffix model compactModelSuffix else originModelName) ∨
      ((∀ map, channelMap readMap modelMapping = some map →
          ∀ model,
            ¬ ChainEnd map.target (mappingModelName isResponsesCompact originModelName) model) ∧
        ∃ text, modelMappedHelper readMap isResponsesCompact modelMapping originModelName info =
          .error text) := by
  unfold modelMappedHelper channelMap
  by_cases hempty : modelMapping = "" ∨ modelMapping = "\x7b\x7d"
  · rw [if_pos hempty, if_pos hempty]
    refine .inl ⟨[], mappingModelName isResponsesCompact originModelName, ?_⟩
    obtain ⟨origin', hfinish, hnext⟩ := @finishMapping_spec Setting OtherSetting Override
      isResponsesCompact originModelName info _ false (fun _ => rfl) (fun hf => by cases hf)
    have hinfo :
        { info with isModelMapped := false, upstreamModelName := originModelName } = info := by
      rw [← hmapped, ← hupstream]
    refine ⟨origin', false, rfl, ⟨.refl, fun y hy => by cases hy⟩, congrArg Except.ok ?_, hnext⟩
    rw [← hfinish]
    exact congrArg (finishMapping isResponsesCompact originModelName) hinfo.symm
  · rw [if_neg hempty, if_neg hempty]
    cases hread : readMap modelMapping with
    | none =>
      refine .inr ⟨fun map hmap => ?_, _, rfl⟩
      cases hmap
    | some map =>
      obtain ⟨e, ⟨hmeets, -⟩, hloop⟩ := iterate_chainStep map originModelName
        (mappingModelName isResponsesCompact originModelName)
      simp only [hmapped, hloop, hupstream]
      cases e with
      | unmapped =>
        refine .inl ⟨map, originModelName, originModelName, false, rfl, hmeets, ?_, ?_⟩
        · rw [← hupstream]
        · rfl
      | cycle =>
        refine .inr ⟨fun map' hmap => ?_, _, rfl⟩
        cases hmap
        exact hmeets
      | reached model isModelMapped =>
        obtain ⟨hend, hstart, hne⟩ := hmeets
        obtain ⟨origin', hfinish, hnext⟩ := @finishMapping_spec Setting OtherSetting Override
          isResponsesCompact originModelName info model isModelMapped hstart hne
        exact .inl ⟨map, model, origin', isModelMapped, rfl, hend, congrArg Except.ok hfinish,
          hnext⟩

/-- **The mapping is followed to its end**, or the error of a cycle tells that there is one. -/
theorem modelMappedHelper_follows {map : ModelMap}
    (hmap : channelMap readMap modelMapping = some map) (originModelName : String)
    (info : ChannelMeta Setting OtherSetting Override) :
    let result := modelMappedHelper readMap false modelMapping originModelName
      { info with isModelMapped := false, upstreamModelName := originModelName }
    (EntersCycle map.target originModelName ∧ result = .error "model_mapping_contains_cycle") ∨
      (¬ EntersCycle map.target originModelName ∧
        ∃ model, ChainEnd map.target originModelName model ∧
          result = .ok (originModelName, { info with
            isModelMapped := model ≠ originModelName, upstreamModelName := model })) := by
  intro result
  have hstay : ∀ model, ChainEnd map.target originModelName model →
      ¬ EntersCycle map.target originModelName := fun model hend hcycle => hcycle.not_chainEnd hend
  unfold result modelMappedHelper
  unfold channelMap at hmap
  by_cases hempty : modelMapping = "" ∨ modelMapping = "\x7b\x7d"
  · rw [if_pos hempty] at hmap ⊢
    cases hmap
    have hend : ChainEnd (ModelMap.target []) originModelName originModelName := ⟨.refl, nofun⟩
    exact .inr ⟨hstay _ hend, _, hend, by simp [finishMapping]⟩
  · rw [if_neg hempty] at hmap ⊢
    obtain ⟨e, hend, hloop⟩ := iterate_chainStep map originModelName originModelName
    simp only [hmap, mappingModelName, hloop, Bool.false_eq_true, if_false]
    cases e with
    | unmapped => exact .inr ⟨hstay _ hend.1, _, hend.1, by simp⟩
    | cycle => exact .inl ⟨hend.2, rfl⟩
    | reached model isModelMapped =>
      obtain ⟨⟨hend, hstart, -⟩, hmoved⟩ := hend
      refine .inr ⟨hstay _ hend, model, hend, ?_⟩
      cases isModelMapped with
      | false => simp [hstart rfl, finishMapping]
      | true => simp [(hmoved rfl).resolve_right (· rfl), finishMapping]

end

def twoNames : ModelMap := [("gpt-4", "gpt-4o"), ("gpt-4o", "gpt-4")]

def cyclicMeta : ChannelMeta Unit Unit Unit :=
  ⟨1, 1, false, 0, "", 0, "", "", "", 0, (), (), "gpt-4", false, false, (), ()⟩

theorem modelMappedHelper_two_names :
    modelMappedHelper (fun _ => some twoNames) false "map" "gpt-4" cyclicMeta =
      .error "model_mapping_contains_cycle" := by
  have hmap : channelMap (fun _ => some twoNames) "map" = some twoNames := if_neg (by decide)
  have hcycle : EntersCycle twoNames.target "gpt-4" :=
    ⟨"gpt-4", "gpt-4o", .refl, ⟨rfl, by decide⟩, .single ⟨rfl, by decide⟩⟩
  exact ((modelMappedHelper_follows hmap "gpt-4" cyclicMeta).resolve_right fun h => h.1 hcycle).2

end NomoApi
