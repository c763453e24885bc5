import NomoApi.Channels.Cache
import NomoApi.Lib.Run

/-! # Statuses in the cache

`CacheUpdateChannelStatus` is meant to keep the routing table in line with the statuses: an enabled
channel stands in the lists of all its groups and models, no other one in any. It sets the status
and takes a channel that is not enabled out of each list, once. -/

namespace NomoApi

open ChannelStatus List Table

namespace ChannelCache

variable (c : ChannelCache) (id status : Int)

def cacheUpdateChannelStatus : ChannelCache where
  group2model2channels :=
    -- A channel that is enabled again is not entered.
    if status = enabled then c.group2model2channels
    else c.group2model2channels.mapLists fun ids => ids.erase id
  channelsIDM :=
    c.channelsIDM.updateWhere (fun ch => ch.id = id) (fun ch => { ch with status })
      (Channel.id_with_status status)

def step (call : Int × Int) : ChannelCache :=
  c.cacheUpdateChannelStatus call.1 call.2

/-- The channel `id` is to stand in the list of a group and a model. -/
def Routes (group model : String) (id : Int) : Prop :=
  ∃ ch ∈ c.channelsIDM, ch.id = id ∧ ch.status = enabled ∧ group ∈ ch.groups ∧
    model ∈ ch.modelNames

/-- **The routing table has the members that a build would give it.** -/
def Routed : Prop :=
  ∀ group model id, id ∈ c.list group model ↔ c.Routes group model id

/-- An enabled channel stands in a list as often as it names its group and its model. -/
def Counted : Prop :=
  ∀ ch ∈ c.channelsIDM, ch.status = enabled → ∀ group model,
    (c.list group model).count ch.id = ch.groups.count group * ch.modelNames.count model

/-- **The condition**: a channel that is enabled is so already, and one that is taken out names no
group or model twice. -/
def StatusKept (call : Int × Int) : Prop :=
  ∀ ch ∈ c.channelsIDM.find? call.1,
    if call.2 = enabled then ch.status = enabled
    else ch.status = enabled → ch.groups.Nodup ∧ ch.modelNames.Nodup
deriving Decidable

/-! ### The cache that was just built -/

variable {db : ChannelDb} {old c : ChannelCache} {ch : Channel}

theorem count_enabledRoutes {chs : List Channel} (hids : (chs.map Channel.id).Nodup)
    (hch : ch ∈ chs) (henabled : ch.status = enabled) (group model : String) :
    (enabledRoutes chs).count (group, model, ch.id) =
      ch.groups.count group * ch.modelNames.count model := by
  rw [enabledRoutes, count_flatMap_routes (hids.sublist (filter_sublist.map _)), count_routes]
  exact mem_filter.mpr ⟨hch, decide_eq_true henabled⟩

theorem counted_of_init (h : initChannelCache true db old = some c) : c.Counted := by
  obtain ⟨hrows, hcount⟩ := init_spec h
  intro x hx henabled group model
  obtain ⟨ch, hch, rfl⟩ := (hrows x).mp hx
  obtain ⟨info, hinfo⟩ := keepPollingIndex_eq old.channelsIDM ch
  rw [hinfo] at henabled ⊢
  rw [hcount]
  exact count_enabledRoutes db.channels.nodup hch henabled group model

theorem routed_of_init (h : initChannelCache true db old = some c) : c.Routed := by
  obtain ⟨hrows, hcount⟩ := init_spec h
  intro group model id
  rw [← count_pos_iff, hcount, count_pos_iff, mem_enabledRoutes]
  constructor
  · rintro ⟨ch, hch, henabled, hroute⟩
    obtain ⟨hgroup, hmodel, hid⟩ := mem_routes.mp hroute
    obtain ⟨info, hinfo⟩ := keepPollingIndex_eq old.channelsIDM ch
    exact ⟨_, (hrows _).mpr ⟨ch, hch, hinfo⟩, hid.symm, henabled, hgroup, hmodel⟩
  · rintro ⟨x, hx, hid, henabled, hgroup, hmodel⟩
    obtain ⟨ch, hch, rfl⟩ := (hrows x).mp hx
    obtain ⟨info, hinfo⟩ := keepPollingIndex_eq old.channelsIDM ch
    rw [hinfo] at hid henabled hgroup hmodel
    exact ⟨ch, hch, henabled, mem_routes.mpr ⟨hgroup, hmodel, hid.symm⟩⟩

/-! ### One change of status -/

theorem list_step (group model : String) : (c.cacheUpdateChannelStatus id status).list group model =
      if status = enabled then c.list group model
      else (c.list group model).erase id := by
  unfold list cacheUpdateChannelStatus
  by_cases hstatus : status = enabled
  · rw [if_pos hstatus, if_pos hstatus]
  · rw [if_neg hstatus, if_neg hstatus, Buckets.list_mapLists rfl]

theorem mem_channelsIDM_step {id status : Int} {x : Channel} :
    x ∈ (c.cacheUpdateChannelStatus id status).channelsIDM ↔
      ∃ ch ∈ c.channelsIDM, (if ch.id = id then { ch with status } else ch) = x := by
  have hrows : x ∈ c.channelsIDM.updateWhere (fun ch => ch.id = id) (fun ch => { ch with status })
      (fun _ => rfl) ↔ ∃ ch ∈ c.channelsIDM, (if decide (ch.id = id) = true then
        { ch with status } else ch) = x := mem_updateWhere
  simp only [decide_eq_true_eq] at hrows
  exact hrows

theorem routes_step_of_ne {id id' status : Int} (hne : id' ≠ id) (group model : String) :
    (c.cacheUpdateChannelStatus id status).Routes group model id' ↔ c.Routes group model id' := by
  constructor
  · rintro ⟨x, hx, hid, hroute⟩
    obtain ⟨ch, hch, rfl⟩ := mem_channelsIDM_step.mp hx
    by_cases hch' : ch.id = id
    · rw [if_pos hch'] at hid
      exact absurd (hid.symm.trans hch') hne
    · rw [if_neg hch'] at hid hroute
      exact ⟨ch, hch, hid, hroute⟩
  · rintro ⟨ch, hch, hid, hroute⟩
    refine ⟨ch, mem_channelsIDM_step.mpr ⟨ch, hch, if_neg fun hch' => ?_⟩, hid, hroute⟩
    exact hne (hid.symm.trans hch')

theorem mem_list_step_of_ne {id id' : Int} (hne : id' ≠ id) (status : Int) (group model : String) :
    id' ∈ (c.cacheUpdateChannelStatus id status).list group model ↔ id' ∈ c.list group model := by
  rw [list_step]
  split
  · exact Iff.rfl
  · exact mem_erase_of_ne hne

theorem routed_step_iff (h : c.Routed) (id status : Int) :
    (c.cacheUpdateChannelStatus id status).Routed ↔
      ∀ group model, id ∈ (c.cacheUpdateChannelStatus id status).list group model ↔
        (c.cacheUpdateChannelStatus id status).Routes group model id := by
  constructor
  · intro h' group model
    exact h' group model id
  · intro h' group model id'
    by_cases hid : id' = id
    · rw [hid]
      exact h' group model
    · rw [mem_list_step_of_ne hid, routes_step_of_ne hid]
      exact h group model id'

theorem routes_self {id : Int} (hfind : c.channelsIDM.find? id = some ch)
    (group model : String) : c.Routes group model id ↔
      ch.status = enabled ∧ group ∈ ch.groups ∧ model ∈ ch.modelNames := by
  constructor
  · rintro ⟨ch', hch', hid, hroute⟩
    obtain rfl : ch' = ch := eq_of_find? hch' hid hfind
    exact hroute
  · intro hroute
    obtain ⟨hch, hid⟩ := find?_eq_some.mp hfind
    exact ⟨ch, hch, hid, hroute⟩

theorem not_routes_of_find?_none {id : Int} (hfind : c.channelsIDM.find? id = none)
    (group model : String) : ¬ c.Routes group model id := by
  rintro ⟨ch, hch, hid, -⟩
  have hsome : c.channelsIDM.find? id = some ch := find?_eq_some.mpr ⟨hch, hid⟩
  rw [hfind] at hsome
  cases hsome

theorem find?_step : (c.cacheUpdateChannelStatus id status).channelsIDM.find? id =
      (c.channelsIDM.find? id).map fun ch => { ch with status } := by
  have hfind := c.channelsIDM.find?_updateWhere (fun ch => decide (ch.id = id))
    (fun ch => { ch with status }) (fun _ => rfl) id
  refine hfind.trans ?_
  cases hch : c.channelsIDM.find? id with
  | none => rfl
  | some ch =>
    have hid : ch.id = id := (find?_eq_some.mp hch).2
    simp [hid]

theorem not_mem_erase_iff {id : Int} {l : List Int} : id ∉ l.erase id ↔ l.count id ≤ 1 := by
  rw [← count_eq_zero, count_erase_self]
  omega

theorem counts_le_one_iff (ch : Channel) :
    (∀ group model, ch.groups.count group * ch.modelNames.count model ≤ 1) ↔
      ch.groups.Nodup ∧ ch.modelNames.Nodup := by
  rw [nodup_iff_count_le_one, nodup_iff_count_le_one]
  constructor
  · intro h
    obtain ⟨group₀, hgroup₀⟩ := exists_mem_of_ne_nil _ (split_ne_nil ch.group ',')
    obtain ⟨model₀, hmodel₀⟩ := exists_mem_of_ne_nil _ (split_ne_nil ch.models ',')
    have hgroup : 0 < ch.groups.count group₀ := count_pos_iff.mpr hgroup₀
    have hmodel : 0 < ch.modelNames.count model₀ := count_pos_iff.mpr hmodel₀
    exact ⟨fun group => (Nat.le_mul_of_pos_right _ hmodel).trans (h group model₀),
      fun model => (Nat.le_mul_of_pos_left _ hgroup).trans (h group₀ model)⟩
  · rintro ⟨hgroups, hmodels⟩ group model
    exact Nat.mul_le_mul (hgroups group) (hmodels model)

theorem enabled_kept_iff {listed : String → String → Prop}
    (hlisted : ∀ group model, listed group model ↔
      ch.status = enabled ∧ group ∈ ch.groups ∧ model ∈ ch.modelNames) :
    (∀ group model, listed group model ↔ group ∈ ch.groups ∧ model ∈ ch.modelNames) ↔
      ch.status = enabled := by
  simp only [hlisted]
  constructor
  · intro hall
    obtain ⟨group, hgroup⟩ := exists_mem_of_ne_nil _ (split_ne_nil ch.group ',')
    obtain ⟨model, hmodel⟩ := exists_mem_of_ne_nil _ (split_ne_nil ch.models ',')
    exact ((hall group model).mpr ⟨hgroup, hmodel⟩).1
  · intro henabled group model
    exact and_iff_right henabled

theorem taken_out_iff (h : c.Routed) (hcounted : c.Counted) (hch : ch ∈ c.channelsIDM) :
    (∀ group model, ch.id ∉ (c.list group model).erase ch.id) ↔
      (ch.status = enabled → ch.groups.Nodup ∧ ch.modelNames.Nodup) := by
  simp only [not_mem_erase_iff]
  by_cases henabled : ch.status = enabled
  · simp only [hcounted ch hch henabled, henabled, forall_const]
    exact counts_le_one_iff ch
  · refine iff_of_true (fun group model => ?_) fun h => absurd h henabled
    have hno : ch.id ∉ c.list group model := by
      intro hmem
      obtain ⟨ch', hch', hid, henabled', -⟩ := (h group model ch.id).mp hmem
      obtain rfl : ch' = ch := eq_of_key_eq hch' hch hid
      exact henabled henabled'
    rw [count_eq_zero.mpr hno]
    exact Nat.zero_le 1

theorem step_routed_iff (h : c.Routed) (hcounted : c.Counted) (call : Int × Int) :
    (c.step call).Routed ↔ c.StatusKept call := by
  obtain ⟨id, status⟩ := call
  rw [step, routed_step_iff h]
  unfold StatusKept
  simp only [list_step]
  have hfind' := c.find?_step id status
  cases hfind : c.channelsIDM.find? id with
  | none =>
    rw [hfind] at hfind'
    refine iff_of_true (fun group model => iff_of_false ?_ ?_) (fun ch hch => by cases hch)
    · have hno : id ∉ c.list group model := fun hmem =>
        not_routes_of_find?_none hfind group model ((h group model id).mp hmem)
      split
      · exact hno
      · exact fun hmem => hno (mem_of_mem_erase hmem)
    · exact not_routes_of_find?_none hfind' group model
  | some ch =>
    obtain ⟨hch, rfl⟩ := find?_eq_some.mp hfind
    rw [hfind] at hfind'
    have hroutes : ∀ group model, (c.cacheUpdateChannelStatus ch.id status).Routes group model
        ch.id ↔ status = enabled ∧ group ∈ ch.groups ∧ model ∈ ch.modelNames :=
      fun group model => routes_self hfind' group model
    simp only [hroutes, Option.mem_def, Option.some.injEq, forall_eq']
    by_cases hstatus : status = enabled
    · -- no list changes, and it should stand in all of its own
      simp only [hstatus, if_true, true_and]
      exact enabled_kept_iff fun group model =>
        (h group model ch.id).trans (routes_self hfind group model)
    · -- it may stand in no list any more
      simp only [hstatus, if_false, false_and, iff_false]
      exact taken_out_iff h hcounted hch

theorem step_counted (hcounted : c.Counted) {call : Int × Int} (hkept : c.StatusKept call) :
    (c.step call).Counted := by
  obtain ⟨id, status⟩ := call
  intro x hx henabled group model
  obtain ⟨ch, hch, rfl⟩ := mem_channelsIDM_step.mp hx
  rw [step, list_step]
  by_cases hid : ch.id = id
  · rw [if_pos hid] at henabled ⊢
    have hstatus : status = enabled := henabled
    have hwas := hkept ch (find?_eq_some.mpr ⟨hch, hid⟩)
    rw [if_pos hstatus] at hwas
    rw [if_pos hstatus]
    exact hcounted ch hch hwas group model
  · rw [if_neg hid] at henabled ⊢
    rw [← hcounted ch hch henabled group model]
    split
    · rfl
    · exact count_erase_of_ne hid

/-- **The routing table has the members that a build would give it** along a sequence of changes of
status iff all meet their condition. -/
theorem routed_iff_statusKept (h : initChannelCache true db old = some c)
    (calls : List (Int × Int)) : Always Routed step c calls ↔ AllSteps StatusKept step c calls := by
  refine always_iff_allSteps (A := fun _ _ => True) ?_ ?_ (counted_of_init h) (routed_of_init h)
    (allSteps_of_forall (fun _ _ => trivial) _ calls)
  · exact fun c call hcounted hrouted _ => step_routed_iff hrouted hcounted call
  · exact fun c call hcounted _ _ hkept => step_counted hcounted hkept

def twoChannelsDb : ChannelDb :=
  ChannelDb.empty.step (fun _ => none)
    (.batchInsert [.first { models := "gpt-4" }, .second { models := "gpt-4" }])

/-- Taking one of them out, and enabling the other one, which is enabled. -/
theorem routed_two_channels : Always Routed step twoChannelsDb.builtCache
    [(1, autoDisabled), (2, enabled)] :=
  (routed_iff_statusKept (init_builtCache (by decide +kernel)) _).mpr (by decide +kernel)

/-- **A channel that is disabled and enabled again** stands in no list. -/
theorem enabled_again_not_routed : ¬ (run step twoChannelsDb.builtCache
      [(1, autoDisabled), (1, enabled)]).Routed := by
  intro h
  have hlist : 1 ∉ (run step twoChannelsDb.builtCache
      [(1, autoDisabled), (1, enabled)]).list "default" "gpt-4" := by
    decide +kernel
  refine hlist ((h _ _ _).mpr ?_)
  have hchannel : ∃ ch ∈ (run step twoChannelsDb.builtCache
      [(1, autoDisabled), (1, enabled)]).channelsIDM.rows,
      ch.id = 1 ∧ ch.status = enabled ∧ "default" ∈ ch.groups ∧
        "gpt-4" ∈ ch.modelNames := by decide +kernel
  exact hchannel

end ChannelCache

end NomoApi
