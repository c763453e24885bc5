import NomoApi.Lib.Lists
import NomoApi.Lib.Text

/-! # Models that the upstream of a channel adds or removes

`controller/channel_upstream_update.go` stores which models could be added to a channel or removed,
compared with its upstream; redirected models are left alone. The bulk detections select columns by
name, without `model_mapping`, and see no redirections. -/

namespace NomoApi

open List

structure UpstreamSettings where
  checkEnabled : Bool
  autoSyncEnabled : Bool := false
  lastCheckTime : Int := 0
  lastDetectedModels : List String := []
  lastRemovedModels : List String := []
  ignoredModels : List String := []

structure UpstreamChannel where
  models : String
  modelMapping : Option String
  settings : UpstreamSettings

def normalizeModelNames (models : List String) : List String :=
  ((models.map trimSpace).filter (· ≠ "")).eraseDups

section

variable {l l' : List String} {p : String → Bool} {m : String}

theorem mem_normalizeModelNames :
    m ∈ normalizeModelNames l ↔ (∃ x ∈ l, trimSpace x = m) ∧ m ≠ "" := by
  simp [normalizeModelNames]

@[simp] theorem mem_normalizeModelNames_append : m ∈ normalizeModelNames (l ++ l') ↔
    m ∈ normalizeModelNames l ∨ m ∈ normalizeModelNames l' := by
  simp [mem_normalizeModelNames, or_and_right, exists_or]

@[simp] theorem mem_normalizeModelNames_filter :
    m ∈ normalizeModelNames ((normalizeModelNames l).filter p) ↔
      m ∈ normalizeModelNames l ∧ p m = true := by
  constructor
  · intro h
    obtain ⟨⟨x, hx, rfl⟩, -⟩ := mem_normalizeModelNames.mp h
    obtain ⟨hmem, hp⟩ := mem_filter.mp hx
    obtain ⟨⟨y, -, rfl⟩, -⟩ := mem_normalizeModelNames.mp hmem
    rw [trimSpace_trimSpace]
    exact ⟨hmem, hp⟩
  · rintro ⟨hmem, hp⟩
    obtain ⟨⟨y, -, rfl⟩, hne⟩ := mem_normalizeModelNames.mp hmem
    exact mem_normalizeModelNames.mpr
      ⟨⟨_, mem_filter.mpr ⟨hmem, hp⟩, trimSpace_trimSpace y⟩, hne⟩

@[simp] theorem mem_normalizeModelNames_normalize :
    m ∈ normalizeModelNames (normalizeModelNames l) ↔ m ∈ normalizeModelNames l := by
  simpa using @mem_normalizeModelNames_filter l (fun _ => true) m

end

def mergeModelNames (base appended : List String) : List String :=
  let merged := normalizeModelNames base
  merged ++ (normalizeModelNames appended).filter (· ∉ merged)

def subtractModelNames (base removed : List String) : List String :=
  (normalizeModelNames base).filter (· ∉ normalizeModelNames removed)

/-- A model of both lists is added. -/
def applySelectedModelChanges (originModels addModels removeModels : List String) : List String :=
  let normalizedAdd := normalizeModelNames addModels
  let normalizedRemove := subtractModelNames (normalizeModelNames removeModels) normalizedAdd
  subtractModelNames (mergeModelNames originModels normalizedAdd) normalizedRemove

theorem mem_applySelectedModelChanges {l add remove : List String} {m : String} :
    m ∈ normalizeModelNames (applySelectedModelChanges l add remove) ↔
      (m ∈ normalizeModelNames l ∨ m ∈ normalizeModelNames add) ∧
        (m ∈ normalizeModelNames remove → m ∈ normalizeModelNames add) := by
  by_cases hl : m ∈ normalizeModelNames l <;>
    simp [applySelectedModelChanges, subtractModelNames, mergeModelNames, hl, imp_iff_not_or]

def UpstreamChannel.getModels (c : UpstreamChannel) : List String :=
  if c.models = "" then [] else split (trimOf ',' c.models) ','

/-- The columns that `findEnabledChannelsAfterID` selects. -/
def UpstreamChannel.bulkColumns (c : UpstreamChannel) : UpstreamChannel :=
  { c with modelMapping := none }

/-- `normalizeChannelModelMapping`, as pairs of a source and its target. -/
def normalizeChannelModelMapping (parse : String → Option (List (String × String)))
    (c : UpstreamChannel) : List (String × String) :=
  let raw := trimSpace (c.modelMapping.getD "")
  if raw = "" ∨ raw = "\x7b\x7d" then []
  else
    ((parse raw).getD []).foldl (fun m entry =>
      let source := trimSpace entry.1
      let target := trimSpace entry.2
      if source = "" ∨ target = "" then m
      else (source, target) :: m.filter (·.1 ≠ source)) []

/-- **`collectPendingUpstreamModelChangesFromModels`**: the models to add and to remove. -/
def collectPendingUpstreamModelChanges (localModels upstreamModels ignoredModels : List String)
    (modelMapping : List (String × String)) : List String × List String :=
  let localModels := normalizeModelNames localModels
  let upstreamModels := normalizeModelNames upstreamModels
  (normalizeModelNames (upstreamModels.filter fun m =>
      ¬ (m ∈ localModels ∨ m ∈ modelMapping.map (·.2)) ∧ m ∉ normalizeModelNames ignoredModels),
    normalizeModelNames (localModels.filter fun m =>
      m ∉ modelMapping.map (·.1) ∧ m ∉ upstreamModels))

/-- **The pending changes converge**: they are disjoint, spare what is ignored or redirected, and
once they are applied nothing is pending. -/
theorem collect_apply_converges (localModels upstreamModels ignoredModels : List String)
    (modelMapping : List (String × String)) : ∃ add remove,
      collectPendingUpstreamModelChanges localModels upstreamModels ignoredModels modelMapping =
        (add, remove) ∧ add.Disjoint remove ∧ add.Nodup ∧ remove.Nodup ∧
      (∀ m ∈ add, m ∉ normalizeModelNames ignoredModels ∧ m ∉ modelMapping.map (·.2)) ∧
      (∀ m ∈ remove, m ∉ modelMapping.map (·.1)) ∧
      collectPendingUpstreamModelChanges (applySelectedModelChanges localModels add remove)
        upstreamModels ignoredModels modelMapping = ([], []) := by
  let collect models :=
    collectPendingUpstreamModelChanges models upstreamModels ignoredModels modelMapping
  let pending := collect localModels
  have hadd (models : List String) (m : String) : m ∈ (collect models).1 ↔
      m ∈ normalizeModelNames upstreamModels ∧ (m ∉ normalizeModelNames models ∧
        m ∉ modelMapping.map (·.2)) ∧ m ∉ normalizeModelNames ignoredModels := by
    simp [collect, collectPendingUpstreamModelChanges]
  have hremove (models : List String) (m : String) : m ∈ (collect models).2 ↔
      m ∈ normalizeModelNames models ∧ m ∉ modelMapping.map (·.1) ∧
        m ∉ normalizeModelNames upstreamModels := by
    simp [collect, collectPendingUpstreamModelChanges]
  -- the changes are normalised already
  have happly (m : String) : m ∈ normalizeModelNames
      (applySelectedModelChanges localModels pending.1 pending.2) ↔
      (m ∈ normalizeModelNames localModels ∨ m ∈ pending.1) ∧ (m ∈ pending.2 → m ∈ pending.1) := by
    rw [mem_applySelectedModelChanges]
    simp only [pending, collect, collectPendingUpstreamModelChanges,
      mem_normalizeModelNames_normalize]
  refine ⟨pending.1, pending.2, rfl, ?_, nodup_eraseDups _, nodup_eraseDups _, ?_, ?_,
    Prod.ext ?_ ?_⟩
  · exact fun m h₁ h₂ => ((hremove localModels m).mp h₂).2.2 ((hadd localModels m).mp h₁).1
  · exact fun m h => ⟨((hadd localModels m).mp h).2.2, ((hadd localModels m).mp h).2.1.2⟩
  · exact fun m h => ((hremove localModels m).mp h).2.1
  · refine eq_nil_iff_forall_not_mem.mpr fun m => ?_
    rw [hadd, happly, hadd, hremove]
    tauto
  · refine eq_nil_iff_forall_not_mem.mpr fun m => ?_
    rw [hremove, happly, hadd, hremove]
    tauto

/-- **What a check finds**: how a mapping is parsed, the upstream's answer, the time, and the
shortest interval between checks. -/
structure UpstreamCheck where
  parse : String → Option (List (String × String))
  fetched : Except String (List String)
  now : Int
  minInterval : Int

namespace UpstreamCheck

variable (k : UpstreamCheck)

def pending (upstream : List String) (c : UpstreamChannel) : List String × List String :=
  collectPendingUpstreamModelChanges c.getModels upstream c.settings.ignoredModels
    (normalizeChannelModelMapping k.parse c)

/-- **`checkAndPersistChannelUpstreamModelUpdates`**. -/
def persist (force allowAutoApply : Bool) (c : UpstreamChannel) : String × UpstreamSettings :=
  let s := c.settings
  if !force ∧ s.lastCheckTime > 0 ∧ k.now - s.lastCheckTime < k.minInterval then (c.models, s)
  else
    match k.fetched with
    | .error _ => (c.models, { s with lastCheckTime := k.now })
    | .ok upstream =>
      let pending := k.pending upstream c
      let s := { s with lastCheckTime := k.now, lastRemovedModels := pending.2 }
      if allowAutoApply ∧ s.autoSyncEnabled ∧ pending.1 ≠ [] then
        let origin := normalizeModelNames c.getModels
        let merged := mergeModelNames origin pending.1
        (if merged.length > origin.length then ",".intercalate merged else c.models,
          { s with lastDetectedModels := [] })
      else (c.models, { s with lastDetectedModels := pending.1 })

/-- `DetectChannelUpstreamModelUpdates`, with all columns. -/
def detectOne (c : UpstreamChannel) : String × UpstreamSettings := k.persist true false c

/-- `DetectAllChannelUpstreamModelUpdates`, on one of its channels. -/
def detectAll (c : UpstreamChannel) : String × UpstreamSettings :=
  if c.settings.checkEnabled then k.persist true false c.bulkColumns else (c.models, c.settings)

/-- `runChannelUpstreamModelUpdateTaskOnce`, on one of its channels. -/
def runTask (c : UpstreamChannel) : String × UpstreamSettings :=
  if c.settings.checkEnabled then k.persist false true c.bulkColumns else (c.models, c.settings)

/-- The models to add and to remove that are stored for a channel. -/
def storedLists (r : String × UpstreamSettings) : List String × List String :=
  (r.2.lastDetectedModels, r.2.lastRemovedModels)

/-- The redirections change nothing: targets are not new, sources exist upstream. -/
def RedirectsIdle (upstream : List String) (c : UpstreamChannel) : Prop :=
  (∀ m ∈ normalizeModelNames upstream, m ∈ (normalizeChannelModelMapping k.parse c).map (·.2) →
    m ∈ normalizeModelNames c.getModels ∨ m ∈ normalizeModelNames c.settings.ignoredModels) ∧
  ∀ m ∈ normalizeModelNames c.getModels, m ∈ (normalizeChannelModelMapping k.parse c).map (·.1) →
    m ∈ normalizeModelNames upstream

/-- The background task leaves a channel alone that it checked a short while ago. -/
def Due (c : UpstreamChannel) : Prop :=
  ¬ (c.settings.lastCheckTime > 0 ∧ k.now - c.settings.lastCheckTime < k.minInterval)
deriving Decidable

/-- **The bulk detections agree with the single one**: the redirections change nothing, and the task
has nothing to add by itself. Where they do not check, the lists are up to date already. -/
def BulkAgrees (upstream : List String) (c : UpstreamChannel) : Prop :=
  if c.settings.checkEnabled then
    k.RedirectsIdle upstream c ∧
      if k.Due c then c.settings.autoSyncEnabled → (k.pending upstream c).1 = []
      else storedLists (c.models, c.settings) = k.pending upstream c
  else storedLists (c.models, c.settings) = k.pending upstream c

variable {k} {c : UpstreamChannel} {upstream : List String}

/-- **Without the mapping the same changes are found** iff the redirections change nothing. -/
theorem pending_bulkColumns_iff :
    k.pending upstream c.bulkColumns = k.pending upstream c ↔ k.RedirectsIdle upstream c := by
  have hmapping : normalizeChannelModelMapping k.parse c.bulkColumns = [] := by
    have hraw : trimSpace (c.bulkColumns.modelMapping.getD "") = "" :=
      (by decide +kernel : trimSpace "" = "")
    simp only [normalizeChannelModelMapping, hraw, true_or, if_true]
  unfold pending
  rw [hmapping]
  constructor
  · intro h
    constructor <;> intro m hm hredirect
    · have hadd := congrArg (m ∈ ·.1) h
      simp only [collectPendingUpstreamModelChanges, mem_normalizeModelNames_filter] at hadd
      by_contra hnew
      rw [not_or] at hnew
      have hbulk := hadd.mp ⟨hm, decide_eq_true ⟨fun h => h.elim hnew.1 not_mem_nil, hnew.2⟩⟩
      exact (of_decide_eq_true hbulk.2).1 (.inr hredirect)
    · have hremove := congrArg (m ∈ ·.2) h
      simp only [collectPendingUpstreamModelChanges, mem_normalizeModelNames_filter] at hremove
      by_contra hgone
      have hbulk := hremove.mp ⟨hm, decide_eq_true ⟨not_mem_nil, hgone⟩⟩
      exact (of_decide_eq_true hbulk.2).1 hredirect
  · intro h
    apply Prod.ext
    · refine congrArg normalizeModelNames (filter_congr fun m hm => ?_)
      simp only [map_nil, not_mem_nil, or_false, decide_eq_decide]
      exact ⟨fun ⟨hl, hi⟩ => ⟨fun hlt => hlt.elim hl fun ht => (h.1 m hm ht).elim hl hi, hi⟩,
        fun ⟨hlt, hi⟩ => ⟨fun hl => hlt (.inl hl), hi⟩⟩
    · refine congrArg normalizeModelNames (filter_congr fun m hm => ?_)
      simp only [map_nil, not_mem_nil, not_false_eq_true, true_and, decide_eq_decide]
      exact ⟨fun hu => ⟨fun hs => hu (h.2 m hm hs), hu⟩, And.right⟩

theorem redirects_not_pending (upstream : List String) (c : UpstreamChannel) :
    (∀ m ∈ (k.pending upstream c).1, m ∉ (normalizeChannelModelMapping k.parse c).map (·.2)) ∧
    ∀ m ∈ (k.pending upstream c).2, m ∉ (normalizeChannelModelMapping k.parse c).map (·.1) := by
  constructor <;> intro m hm
  · exact fun ht => (of_decide_eq_true (mem_normalizeModelNames_filter.mp hm).2).1 (.inr ht)
  · exact (of_decide_eq_true (mem_normalizeModelNames_filter.mp hm).2).1

theorem persist_error {e : String} (h : k.fetched = .error e) (force allowAutoApply : Bool)
    (c : UpstreamChannel) : storedLists (k.persist force allowAutoApply c) =
      storedLists (c.models, c.settings) := by
  unfold persist
  rw [h]
  simp only
  split <;> rfl

section

variable (hfetched : k.fetched = .ok upstream)

include hfetched

theorem persist_forced (c : UpstreamChannel) :
    storedLists (k.persist true false c) = k.pending upstream c := by
  simp [persist, hfetched, storedLists]

theorem persist_task (c : UpstreamChannel) : storedLists (k.persist false true c) =
    if k.Due c then
      (if c.settings.autoSyncEnabled then [] else (k.pending upstream c).1,
        (k.pending upstream c).2)
    else storedLists (c.models, c.settings) := by
  unfold persist
  rw [hfetched]
  by_cases hdue : k.Due c
  · rw [if_pos hdue, if_neg fun hskip => hdue hskip.2]
    by_cases hauto : c.settings.autoSyncEnabled = true
    · by_cases hadd : (k.pending upstream c).1 = []
      · simp [hauto, hadd, storedLists]
      · simp [hauto, hadd, storedLists]
    · simp [hauto, storedLists]
  · rw [if_neg hdue, if_pos ⟨rfl, not_not.mp hdue⟩]

theorem bulk_eq_iff : (storedLists (k.detectAll c) = storedLists (k.detectOne c) ∧
      storedLists (k.runTask c) = storedLists (k.detectOne c)) ↔ k.BulkAgrees upstream c := by
  unfold detectAll runTask detectOne BulkAgrees
  rw [persist_forced hfetched]
  by_cases henabled : c.settings.checkEnabled = true
  · simp only [if_pos henabled, persist_forced hfetched, persist_task hfetched,
      pending_bulkColumns_iff]
    refine and_congr_right fun hidle => ?_
    rw [pending_bulkColumns_iff.mpr hidle]
    have hdue : k.Due c.bulkColumns ↔ k.Due c := Iff.rfl
    simp only [hdue]
    split
    · have hsettings : c.bulkColumns.settings = c.settings := rfl
      rw [hsettings, Prod.ext_iff, and_iff_left rfl]
      by_cases hauto : c.settings.autoSyncEnabled = true
      · rw [if_pos hauto, imp_iff_right hauto]
        exact eq_comm
      · simp [hauto]
    · rfl
  · simp only [if_neg henabled, and_self]

end

/-- **The bulk detections store the lists of the single one**, so that no redirection is proposed
for a change, iff they agree on what the upstream lists. -/
theorem bulk_eq_single_iff (k : UpstreamCheck) (c : UpstreamChannel) :
    ((storedLists (k.detectAll c) = storedLists (k.detectOne c) ∧
        storedLists (k.runTask c) = storedLists (k.detectOne c)) ∧
      ((∃ upstream, k.fetched = .ok upstream) →
        (∀ m ∈ (k.detectAll c).2.lastDetectedModels,
          m ∉ (normalizeChannelModelMapping k.parse c).map (·.2)) ∧
        ∀ m ∈ (k.detectAll c).2.lastRemovedModels,
          m ∉ (normalizeChannelModelMapping k.parse c).map (·.1))) ↔
      ∀ upstream, k.fetched = .ok upstream → k.BulkAgrees upstream c := by
  constructor
  · exact fun h upstream hfetched => (bulk_eq_iff hfetched).mp h.1
  · intro h
    cases hfetched : k.fetched with
    | error e =>
      refine ⟨?_, fun ⟨_, hok⟩ => by cases hok⟩
      unfold detectAll runTask detectOne
      rw [persist_error hfetched]
      constructor
      · split
        · exact persist_error hfetched true false c.bulkColumns
        · rfl
      · split
        · exact persist_error hfetched false true c.bulkColumns
        · rfl
    | ok upstream =>
      have heq := (bulk_eq_iff hfetched).mpr (h upstream hfetched)
      refine ⟨heq, fun _ => ?_⟩
      have hlists := heq.1.trans (persist_forced hfetched c)
      have hredirects := redirects_not_pending (k := k) upstream c
      rw [← hlists] at hredirects
      exact hredirects

private def aliasChannel : UpstreamChannel where
  models := "gpt-4,alias"
  modelMapping := some "mapping"
  settings := { checkEnabled := true }

private def aliasCheck (upstream : List String) : UpstreamCheck where
  parse _ := some [("alias", "real")]
  fetched := .ok upstream
  now := 1000
  minInterval := 300

/-- **The bulk detection takes redirections for changes.** -/
theorem bulk_redirects_pending :
    let k := aliasCheck ["gpt-4", "real"]
    storedLists (k.detectOne aliasChannel) = ([], []) ∧
    storedLists (k.detectAll aliasChannel) = (["real"], ["alias"]) ∧
    storedLists (k.runTask aliasChannel) = (["real"], ["alias"]) := by
  decide +kernel

end UpstreamCheck

end NomoApi
