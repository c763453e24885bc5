import Mathlib.Data.List.Count
import Mathlib.Data.List.Sort
import NomoApi.Channels.Operations
import NomoApi.Lib.Buckets

/-! # The channel cache

With the memory cache on, requests are routed by a table built from the database
(`model/channel_cache.go`). `InitChannelCache` makes a map for every group in `abilities` and enters
the channels under the groups that they name; a group without a map is a panic. -/

namespace NomoApi

open List Buckets ChannelStatus

/-- **The cache** (`group2model2channels` and `channelsIDM`). -/
structure ChannelCache where
  group2model2channels : Buckets String String Int
  channelsIDM : Table Channel Channel.id

namespace ChannelCache

def empty : ChannelCache := ⟨.empty, .empty⟩

def list (c : ChannelCache) (group model : String) : List Int :=
  c.group2model2channels.list group model

end ChannelCache

/-! ### The cache is built -/

def Channel.routes (ch : Channel) : List (String × String × Int) :=
  ch.groups.flatMap fun group => ch.modelNames.map fun model => (group, model, ch.id)

def enabledRoutes (chs : List Channel) : List (String × String × Int) :=
  (chs.filter fun ch => ch.status = enabled).flatMap Channel.routes

def priorityOf (channels : Table Channel Channel.id) (id : Int) : Int :=
  ((channels.find? id).map Channel.getPriority).getD 0

/-- **By descending priority.** `sort.Slice` fixes no order among equal priorities; the results use
only which ids are listed, and how often. -/
def sortByPriority (channels : Table Channel Channel.id) (ids : List Int) : List Int :=
  ids.insertionSort fun i j => priorityOf channels j ≤ priorityOf channels i

variable (old : Table Channel Channel.id) (ch : Channel)

def keepPollingIndex : Channel :=
  match old.find? ch.id with
  | none => ch
  | some oldChannel =>
    if ch.channelInfo.isMultiKey ∧ ch.channelInfo.multiKeyMode = .polling ∧
        oldChannel.channelInfo.isMultiKey ∧ oldChannel.channelInfo.multiKeyMode = .polling then
      { ch with
        channelInfo :=
          { ch.channelInfo with
            multiKeyPollingIndex := oldChannel.channelInfo.multiKeyPollingIndex } }
    else ch

theorem keepPollingIndex_eq :
    ∃ info, keepPollingIndex old ch = { ch with channelInfo := info } := by
  unfold keepPollingIndex
  split
  · exact ⟨_, rfl⟩
  · split
    · exact ⟨_, rfl⟩
    · exact ⟨_, rfl⟩

theorem keepPollingIndex_id : (keepPollingIndex old ch).id = ch.id := by
  obtain ⟨info, hinfo⟩ := keepPollingIndex_eq old ch
  rw [hinfo]

/-- **`InitChannelCache`**, for the cache `old`. Channels of one priority keep the order of the
table. -/
def initChannelCache (memoryCacheEnabled : Bool) (db : ChannelDb) (old : ChannelCache) :
    Option ChannelCache :=
  if memoryCacheEnabled then
    -- The maps are made for the groups of one table, the entries come from the other.
    ((Buckets.ofKeys (db.abilities.rows.map Ability.group)).appendAll?
        (enabledRoutes db.channels.rows)).map fun routes =>
      { group2model2channels := routes.mapLists (sortByPriority db.channels)
        channelsIDM := db.channels.updateWhere (fun _ => true) (keepPollingIndex old.channelsIDM)
          (keepPollingIndex_id old.channelsIDM) }
  else some old

/-! ### When the build panics -/

/-- **Every group of every enabled channel occurs in `abilities`.** -/
def ChannelDb.GroupsListed (db : ChannelDb) : Prop :=
  ∀ ch ∈ db.channels.rows, ch.status = enabled → ∀ group ∈ ch.groups,
    ∃ a ∈ db.abilities.rows, a.group = group
deriving Decidable

theorem mem_routes {ch : Channel} {e : String × String × Int} :
    e ∈ ch.routes ↔ e.1 ∈ ch.groups ∧ e.2.1 ∈ ch.modelNames ∧ e.2.2 = ch.id := by
  obtain ⟨group, model, id⟩ := e
  simp only [Channel.routes, mem_flatMap, mem_map, Prod.mk.injEq]
  constructor
  · rintro ⟨group', hgroup, model', hmodel, rfl, rfl, rfl⟩
    exact ⟨hgroup, hmodel, rfl⟩
  · rintro ⟨hgroup, hmodel, rfl⟩
    exact ⟨group, hgroup, model, hmodel, rfl, rfl, rfl⟩

theorem mem_enabledRoutes {chs : List Channel} {e : String × String × Int} :
    e ∈ enabledRoutes chs ↔ ∃ ch ∈ chs, ch.status = enabled ∧ e ∈ ch.routes := by
  simp only [enabledRoutes, mem_flatMap, mem_filter, decide_eq_true_eq, and_assoc]

variable (db : ChannelDb) (old : ChannelCache)

theorem initChannelCache_isSome_iff : (initChannelCache true db old).isSome ↔ db.GroupsListed := by
  rw [initChannelCache, if_pos rfl, Option.isSome_map, appendAll?_isSome]
  have hkeys := (ofKeys_spec (μ := String) (α := Int) (db.abilities.rows.map Ability.group)).1
  constructor
  · intro h ch hch henabled group hgroup
    obtain ⟨model, hmodel⟩ := exists_mem_of_ne_nil _ (split_ne_nil ch.models ',')
    have hroute : (group, model, ch.id) ∈ ch.routes := mem_routes.mpr ⟨hgroup, hmodel, rfl⟩
    have hkey := h _ (mem_enabledRoutes.mpr ⟨ch, hch, henabled, hroute⟩)
    obtain ⟨a, ha, heq⟩ := mem_map.mp ((hkeys group).mp hkey)
    exact ⟨a, ha, heq⟩
  · intro h e he
    obtain ⟨ch, hch, henabled, hroute⟩ := mem_enabledRoutes.mp he
    obtain ⟨a, ha, heq⟩ := h ch hch henabled e.1 (mem_routes.mp hroute).1
    exact (hkeys e.1).mpr (mem_map.mpr ⟨a, ha, heq⟩)

def ChannelDb.builtCache : ChannelCache :=
  (initChannelCache true db .empty).getD .empty

theorem init_builtCache {db : ChannelDb} (h : db.GroupsListed) :
    initChannelCache true db .empty = some db.builtCache := by
  obtain ⟨c, hc⟩ := Option.isSome_iff_exists.mp ((initChannelCache_isSome_iff db .empty).mpr h)
  rw [ChannelDb.builtCache, hc]
  rfl

/-! ### `FixAbility` -/

/-- `FixAbility` on one chunk of channels. -/
def fixChunk (chunk : List Channel) :
    List (Table Ability Ability.key → Table Ability Ability.key) :=
  (fun t => t.filter fun a => a.channelId ∉ chunk.map Channel.id) ::
    chunk.flatMap fun ch => (chunks 50 ch.abilities).map fun rows t => rows.foldl .insertIgnore t

/-- **The statements of `FixAbility`**: the table is emptied, then written, not in a transaction. -/
def fixStatements (chs : List Channel) :
    List (Table Ability Ability.key → Table Ability Ability.key) :=
  (fun _ => .empty) :: (chunks 50 chs).flatMap fixChunk

def ChannelDb.fixAbilityStates : List ChannelDb :=
  ((fixStatements db.channels.rows).scanl (fun t statement => statement t) db.abilities).map
    fun abilities => { db with abilities }

theorem truncated_mem_fixAbilityStates : { db with abilities := .empty } ∈ db.fixAbilityStates := by
  refine mem_map.mpr ⟨.empty, ?_, rfl⟩
  rw [fixStatements, scanl_cons]
  refine mem_cons_of_mem _ ?_
  cases (chunks 50 db.channels.rows).flatMap fixChunk with
  | nil => simp
  | cons statement statements => simp [scanl_cons]

/-- **Whether the cache can be built**: iff every group of every enabled channel occurs in
`abilities`; in all states of `FixAbility`, which empties `abilities` first, iff no channel is
enabled. -/
theorem init_succeeds_iff (db : ChannelDb) (old : ChannelCache) :
    ((initChannelCache true db old).isSome ↔ db.GroupsListed) ∧
      ((∀ s ∈ db.fixAbilityStates, (initChannelCache true s old).isSome) ↔
        ∀ ch ∈ db.channels, ch.status ≠ enabled) := by
  refine ⟨initChannelCache_isSome_iff db old, ?_⟩
  simp only [initChannelCache_isSome_iff]
  constructor
  · intro h ch hch henabled
    obtain ⟨group, hgroup⟩ := exists_mem_of_ne_nil _ (split_ne_nil ch.group ',')
    have htruncated := h _ (truncated_mem_fixAbilityStates db)
    obtain ⟨a, ha, -⟩ := htruncated ch hch henabled group hgroup
    exact absurd ha not_mem_nil
  · intro h s hs ch hch henabled
    obtain ⟨t, -, rfl⟩ := mem_map.mp hs
    exact absurd henabled (h ch hch)

def oneChannelDb : ChannelDb :=
  ChannelDb.empty.step (fun _ => none) (.insert (.first { models := "gpt-4" }))

/-- **`FixAbility` lets a rebuild of the cache panic.** -/
theorem rebuild_panics_during_fixAbility :
    (initChannelCache true oneChannelDb .empty).isSome = true ∧
      ∃ s ∈ oneChannelDb.fixAbilityStates, (initChannelCache true s .empty).isNone = true := by
  decide +kernel

/-! ### What a cache that was just built holds -/

theorem count_routes (group model : String) :
    ch.routes.count (group, model, ch.id) = ch.groups.count group * ch.modelNames.count model := by
  rw [Channel.routes]
  induction ch.groups with
  | nil => simp
  | cons group' groups ih =>
    have hmodels : (ch.modelNames.map fun model' => (group', model', ch.id)).count
        (group, model, ch.id) = if group' = group then ch.modelNames.count model else 0 := by
      split
      · rename_i hgroup
        rw [hgroup]
        refine count_map_of_injective _ (fun model' => (group, model', ch.id)) ?_ model
        intro a b hab
        simpa using hab
      · rename_i hgroup
        rw [count_eq_zero]
        intro hmem
        obtain ⟨model', -, heq⟩ := mem_map.mp hmem
        exact hgroup (congrArg Prod.fst heq)
    rw [flatMap_cons, count_append, ih, hmodels, count_cons, Nat.add_mul, Nat.add_comm]
    by_cases hgroup : group' = group <;> simp [hgroup]

theorem count_flatMap_routes {chs : List Channel} (hids : (chs.map Channel.id).Nodup) {ch : Channel}
    (hch : ch ∈ chs) (group model : String) :
    (chs.flatMap Channel.routes).count (group, model, ch.id) =
      ch.routes.count (group, model, ch.id) := by
  have hother : ∀ ch' : Channel, ch'.id ≠ ch.id → ch'.routes.count (group, model, ch.id) = 0 := by
    intro ch' hne
    rw [count_eq_zero]
    intro hmem
    exact hne (mem_routes.mp hmem).2.2.symm
  induction chs with
  | nil => cases hch
  | cons c chs ih =>
    rw [map_cons, nodup_cons] at hids
    rw [flatMap_cons, count_append]
    rcases mem_cons.mp hch with rfl | hch
    · have hrest : (chs.flatMap Channel.routes).count (group, model, ch.id) = 0 := by
        rw [count_eq_zero]
        intro hmem
        obtain ⟨ch', hch', hroute⟩ := mem_flatMap.mp hmem
        exact hids.1 (mem_map.mpr ⟨ch', hch', (mem_routes.mp hroute).2.2.symm⟩)
      rw [hrest, Nat.add_zero]
    · have hne : c.id ≠ ch.id := fun heq => hids.1 (heq ▸ mem_map_of_mem hch)
      rw [hother c hne, ih hids.2 hch, Nat.zero_add]

theorem init_spec {db : ChannelDb} {old c : ChannelCache}
    (h : initChannelCache true db old = some c) :
    (∀ x, x ∈ c.channelsIDM ↔ ∃ ch ∈ db.channels, keepPollingIndex old.channelsIDM ch = x) ∧
      ∀ group model id, (c.list group model).count id =
        (enabledRoutes db.channels.rows).count (group, model, id) := by
  rw [initChannelCache, if_pos rfl] at h
  obtain ⟨b, hb, rfl⟩ := Option.map_eq_some_iff.mp h
  refine ⟨fun x => ?_, fun group model id => ?_⟩
  · have hrows : x ∈ db.channels.updateWhere (fun _ => true) (keepPollingIndex old.channelsIDM)
        (keepPollingIndex_id old.channelsIDM) ↔
        ∃ ch ∈ db.channels, keepPollingIndex old.channelsIDM ch = x := Table.mem_updateWhere
    exact hrows
  · have hsort : (sortByPriority db.channels []) = [] := rfl
    rw [ChannelCache.list, list_mapLists hsort, sortByPriority,
      (perm_insertionSort _ _).count_eq, count_list_appendAll? hb,
      (ofKeys_spec _).2, count_nil, Nat.zero_add]

end NomoApi
