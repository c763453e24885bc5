import NomoApi.Channels.AbilityRuns
import NomoApi.Channels.Select

/-! # The two selectors compared

A cache just built offers the channels that the database offers. The selectors still differ: the
cache never returns a channel of weight `0` beside one with a weight, while the database adds `10`
to every weight; and the cache looks a model without channels up by a second name. -/

namespace NomoApi

open List ChannelDb

/-- **The condition of agreement**: the channels of the attempt all have a weight or all have none;
where there are none, there are none under the second name either. -/
def ChannelDb.SelectorsAgree (db : ChannelDb) (group model : String) (retry : Nat) : Prop :=
  if db.candidates group model = [] then
    db.candidates group (formatMatchingModelName model) = []
  else
    (∀ a ∈ db.tier group model retry, a.weight = 0) ∨ ∀ a ∈ db.tier group model retry, 0 < a.weight
deriving Decidable

section

variable {db : ChannelDb} {old c : ChannelCache} {group model : String} {channels : List Channel}

/-! ### What the cache and the database offer -/

theorem mem_candidates_iff (h : db.Consistent) {a : Ability} :
    a ∈ db.candidates group model ↔ ∃ ch ∈ db.channels, ch.status = ChannelStatus.enabled ∧
      group ∈ ch.groups ∧ model ∈ ch.modelNames ∧ ch.ability (group, model) = a := by
  rw [candidates, mem_filter, ← Table.mem_iff, h a, decide_eq_true_eq]
  constructor
  · rintro ⟨⟨ch, hch, hprovides⟩, rfl, rfl, henabled⟩
    obtain ⟨p, hp, rfl⟩ := Channel.provides_iff.mp hprovides
    obtain ⟨hgroup, hmodel⟩ := Channel.mem_pairs.mp hp
    exact ⟨ch, hch, of_decide_eq_true henabled, hgroup, hmodel, rfl⟩
  · rintro ⟨ch, hch, henabled, hgroup, hmodel, rfl⟩
    refine ⟨⟨ch, hch, Channel.provides_iff.mpr ?_⟩, rfl, rfl, decide_eq_true henabled⟩
    exact ⟨(group, model), Channel.mem_pairs.mpr ⟨hgroup, hmodel⟩, rfl⟩

def Offers (ch : Channel) (a : Ability) : Prop :=
  ch.id = a.channelId ∧ ch.getPriority = a.priority ∧ ch.getWeight = a.weight

/-- The channels `channels` offer what the rows `rows` offer. -/
structure SameOffers (channels : List Channel) (rows : List Ability) : Prop where
  row_of_channel : ∀ ch ∈ channels, ∃ a ∈ rows, Offers ch a
  channel_of_row : ∀ a ∈ rows, ∃ ch ∈ channels, Offers ch a

section

variable (hinit : initChannelCache true db old = some c)

include hinit

theorem sameOffers_of_init (h : db.Consistent)
    (hmem : ∀ ch, ch ∈ channels ↔ ch ∈ c.channelsIDM ∧ ch.id ∈ c.list group model) :
    SameOffers channels (db.candidates group model) := by
  obtain ⟨hrows, -⟩ := init_spec hinit
  have hrouted := ChannelCache.routed_of_init hinit
  refine ⟨fun ch hch => ?_, fun a ha => ?_⟩
  · obtain ⟨hloaded, hlisted⟩ := (hmem ch).mp hch
    obtain ⟨ch', hch', hid, henabled, hgroup, hmodel⟩ := (hrouted group model ch.id).mp hlisted
    obtain rfl : ch' = ch := Table.eq_of_key_eq hch' hloaded hid
    obtain ⟨row, hrow, rfl⟩ := (hrows ch').mp hch'
    obtain ⟨info, hinfo⟩ := keepPollingIndex_eq old.channelsIDM row
    rw [hinfo] at henabled hgroup hmodel ⊢
    exact ⟨row.ability (group, model), (mem_candidates_iff h).mpr
      ⟨row, hrow, henabled, hgroup, hmodel, rfl⟩, rfl, rfl, rfl⟩
  · obtain ⟨row, hrow, henabled, hgroup, hmodel, rfl⟩ := (mem_candidates_iff h).mp ha
    obtain ⟨info, hinfo⟩ := keepPollingIndex_eq old.channelsIDM row
    have hloaded := (hrows _).mpr ⟨row, hrow, hinfo⟩
    refine ⟨_, (hmem _).mpr ⟨hloaded, (hrouted group model _).mpr ?_⟩, rfl, rfl, rfl⟩
    exact ⟨_, hloaded, rfl, henabled, hgroup, hmodel⟩

theorem exists_loaded_of_init {id : Int} (hid : id ∈ c.list group model) :
    ∃ ch, c.channelsIDM.find? id = some ch := by
  obtain ⟨ch, hch, hcid, -⟩ := (ChannelCache.routed_of_init hinit group model id).mp hid
  exact ⟨ch, Table.find?_eq_some.mpr ⟨hch, hcid⟩⟩

theorem list_eq_nil_iff (h : db.Consistent) (group model : String) :
    c.list group model = [] ↔ db.candidates group model = [] := by
  have hloaded : ∀ id ∈ c.list group model, ∃ ch, c.channelsIDM.find? id = some ch :=
    fun id hid => exists_loaded_of_init hinit hid
  obtain ⟨-, -, hmem⟩ := ChannelCache.load_eq hloaded
  have hsame := sameOffers_of_init hinit h hmem
  rw [eq_nil_iff_forall_not_mem, eq_nil_iff_forall_not_mem]
  constructor
  · intro hnil a ha
    obtain ⟨ch, hch, -⟩ := hsame.channel_of_row a ha
    exact hnil ch.id ((hmem ch).mp hch).2
  · intro hnil id hid
    obtain ⟨ch, hfind⟩ := hloaded id hid
    obtain ⟨hch, hcid⟩ := Table.find?_eq_some.mp hfind
    obtain ⟨a, ha, -⟩ := hsame.row_of_channel ch ((hmem ch).mpr ⟨hch, hcid ▸ hid⟩)
    exact hnil a ha

end

theorem mem_tier_iff {retry : Nat} {a : Ability} :
    a ∈ db.tier group model retry ↔ a ∈ db.candidates group model ∧
      rank ((db.candidates group model).map Ability.priority) retry = some a.priority := by
  rw [tier, mem_filter, decide_eq_true_eq]

theorem SameOffers.rank_eq {rows : List Ability} (hsame : SameOffers channels rows) (retry : Nat) :
    rank (channels.map Channel.getPriority) retry = rank (rows.map Ability.priority) retry := by
  refine rank_congr (fun x => ?_) retry
  rw [mem_map, mem_map]
  constructor
  · rintro ⟨ch, hch, rfl⟩
    obtain ⟨a, ha, -, hpriority, -⟩ := hsame.row_of_channel ch hch
    exact ⟨a, ha, hpriority.symm⟩
  · rintro ⟨a, ha, rfl⟩
    obtain ⟨ch, hch, -, hpriority, -⟩ := hsame.channel_of_row a ha
    exact ⟨ch, hch, hpriority⟩

section

variable (hsame : SameOffers channels (db.candidates group model)) (retry : Nat)

include hsame

theorem SameOffers.weightless_iff :
    (∀ ch ∈ channels, rank (channels.map Channel.getPriority) retry = some ch.getPriority →
        ch.getWeight = 0) ↔ ∀ a ∈ db.tier group model retry, a.weight = 0 := by
  rw [hsame.rank_eq]
  constructor
  · intro hall a ha
    obtain ⟨hrow, hp⟩ := mem_tier_iff.mp ha
    obtain ⟨ch, hch, -, hpriority, hweight⟩ := hsame.channel_of_row a hrow
    rw [← hweight]
    exact hall ch hch (hpriority ▸ hp)
  · intro hall ch hch hp
    obtain ⟨a, ha, -, hpriority, hweight⟩ := hsame.row_of_channel ch hch
    rw [hweight]
    exact hall a (mem_tier_iff.mpr ⟨ha, hpriority ▸ hp⟩)

theorem inReach_iff (id : Int) :
    (∃ ch, ChannelCache.InReach channels retry ch ∧ ch.id = id) ↔
      ∃ a ∈ db.tier group model retry, a.channelId = id ∧
        (0 < a.weight ∨ ∀ a' ∈ db.tier group model retry, a'.weight = 0) := by
  unfold ChannelCache.InReach
  rw [hsame.weightless_iff, hsame.rank_eq]
  constructor
  · rintro ⟨ch, ⟨hch, hp, hreach⟩, rfl⟩
    obtain ⟨a, ha, hid, hpriority, hweight⟩ := hsame.row_of_channel ch hch
    exact ⟨a, mem_tier_iff.mpr ⟨ha, hpriority ▸ hp⟩, hid.symm, hweight ▸ hreach⟩
  · rintro ⟨a, ha, rfl, hreach⟩
    obtain ⟨hrow, hp⟩ := mem_tier_iff.mp ha
    obtain ⟨ch, hch, hid, hpriority, hweight⟩ := hsame.channel_of_row a hrow
    exact ⟨ch, ⟨hch, hpriority ▸ hp, hweight ▸ hreach⟩, hid⟩

end

theorem cache_selects_iff (hinit : initChannelCache true db old = some c) (h : db.Consistent)
    {name : String} (hname : c.candidates group model = c.list group name)
    (hne : c.list group name ≠ []) (retry : Nat) :
    (∀ id, Selects (fun intn => c.getRandomSatisfiedChannel intn group model retry) id ↔
        ∃ a ∈ db.tier group name retry, a.channelId = id ∧
          (0 < a.weight ∨ ∀ a' ∈ db.tier group name retry, a'.weight = 0)) ∧
      ∀ intn, IsDraw intn → ¬ NoChannel (c.getRandomSatisfiedChannel intn group model retry) := by
  have hloaded : ∀ id ∈ c.candidates group model, ∃ ch, c.channelsIDM.find? id = some ch := by
    rw [hname]
    exact fun id hid => exists_loaded_of_init hinit hid
  obtain ⟨channels, hmem, hdraws⟩ :=
    ChannelCache.getRandomSatisfiedChannel_draws hloaded (hname ▸ hne) retry
  rw [hname] at hmem
  have hsame := sameOffers_of_init hinit h hmem
  exact ⟨fun id => (hdraws.selects_iff id).trans (inReach_iff hsame retry id),
    fun intn hintn => hdraws.not_noChannel hintn⟩

theorem db_selects_iff (h : db.Consistent) (hne : db.candidates group model ≠ []) (retry : Nat) :
    (∀ id, Selects (fun intn => db.getChannel intn group model retry) id ↔
        ∃ a ∈ db.tier group model retry, a.channelId = id) ∧
      ∀ intn, IsDraw intn → ¬ NoChannel (db.getChannel intn group model retry) := by
  have hrows : ∀ a ∈ db.tier group model retry, ∃ ch, db.channels.find? a.channelId = some ch := by
    intro a ha
    obtain ⟨ch, hch, -, -, -, rfl⟩ := (mem_candidates_iff h).mp (mem_filter.mp ha).1
    exact ⟨ch, Table.find?_key hch⟩
  have hdraws := getChannel_draws hne retry hrows
  refine ⟨fun id => (hdraws.selects_iff id).trans ?_, fun intn hintn => hdraws.not_noChannel hintn⟩
  constructor
  · rintro ⟨ch, ⟨a, ha, hfind⟩, rfl⟩
    exact ⟨a, ha, (Table.find?_eq_some.mp hfind).2.symm⟩
  · rintro ⟨a, ha, rfl⟩
    obtain ⟨ch, hfind⟩ := hrows a ha
    exact ⟨ch, ⟨a, ha, hfind⟩, (Table.find?_eq_some.mp hfind).2⟩

theorem not_selects_of_noChannel {f : (Nat → Nat) → Selection} (h : ∀ intn, NoChannel (f intn))
    (id : Int) : ¬ Selects f id := by
  rintro ⟨intn, -, ch, hch, -⟩
  exact h intn ch hch

section

variable (hinit : initChannelCache true db old = some c) (h : db.Consistent)

include hinit h

theorem sameSelection_no_rows_iff (hnil : db.candidates group model = []) (retry : Nat) :
    SameSelection c db group model retry ↔
      db.candidates group (formatMatchingModelName model) = [] := by
  have hlist := (list_eq_nil_iff hinit h group model).mpr hnil
  have hname : c.candidates group model = c.list group (formatMatchingModelName model) :=
    if_pos hlist
  have hdb := fun intn => noChannel_getChannel hnil intn retry
  by_cases hother : db.candidates group (formatMatchingModelName model) = []
  · have hnone : c.candidates group model = [] :=
      hname.trans ((list_eq_nil_iff hinit h group _).mpr hother)
    have hcache : ∀ intn, NoChannel (c.getRandomSatisfiedChannel intn group model retry) := by
      intro intn ch
      rw [ChannelCache.getRandomSatisfiedChannel, hnone]
      simp
    refine iff_of_true ⟨fun id => ?_, fun intn intn' _ _ => ?_⟩ hother
    · exact iff_of_false (not_selects_of_noChannel hcache id) (not_selects_of_noChannel hdb id)
    · exact iff_of_true (hcache intn) (hdb intn')
  · have hne := mt (list_eq_nil_iff hinit h group (formatMatchingModelName model)).mp hother
    obtain ⟨-, hcache⟩ := cache_selects_iff hinit h hname hne retry
    refine iff_of_false ?_ hother
    rintro ⟨-, hnone⟩
    have hdraw : IsDraw fun _ => 0 := fun n hn => hn
    exact hcache _ hdraw ((hnone _ _ hdraw hdraw).mpr (hdb _))

theorem sameSelection_rows_iff (hne : db.candidates group model ≠ []) (retry : Nat) :
    SameSelection c db group model retry ↔
      (∀ a ∈ db.tier group model retry, a.weight = 0) ∨
        ∀ a ∈ db.tier group model retry, 0 < a.weight := by
  have hlist := mt (list_eq_nil_iff hinit h group model).mp hne
  have hname : c.candidates group model = c.list group model := if_neg hlist
  obtain ⟨hcache, hcache'⟩ := cache_selects_iff hinit h hname hlist retry
  obtain ⟨hdb, hdb'⟩ := db_selects_iff h hne retry
  unfold SameSelection
  simp only [hcache, hdb]
  constructor
  · rintro ⟨hsame, -⟩
    by_cases hzero : ∀ a ∈ db.tier group model retry, a.weight = 0
    · exact .inl hzero
    · -- a row that the database reaches is reached by the cache, so it has a weight
      refine .inr fun a ha => ?_
      obtain ⟨b, hb, hid, hreach⟩ := (hsame a.channelId).mpr ⟨a, ha, rfl⟩
      obtain rfl := inj_on_of_nodup_map (nodup_tier db group model retry) hb ha hid
      exact hreach.resolve_right hzero
  · intro hweights
    refine ⟨fun id => ⟨?_, ?_⟩, fun intn intn' hintn hintn' => ?_⟩
    · rintro ⟨a, ha, hid, -⟩
      exact ⟨a, ha, hid⟩
    · rintro ⟨a, ha, hid⟩
      exact ⟨a, ha, hid, hweights.symm.imp_left fun hpos => hpos a ha⟩
    · exact iff_of_false (hcache' intn hintn) (hdb' intn' hintn')

end

/-- **The selectors agree** for a cache just built from a consistent database iff the condition
holds. -/
theorem sameSelection_iff (hinit : initChannelCache true db old = some c) (h : db.Consistent)
    (group model : String) (retry : Nat) :
    SameSelection c db group model retry ↔ db.SelectorsAgree group model retry := by
  unfold SelectorsAgree
  split
  · rename_i hnil
    exact sameSelection_no_rows_iff hinit h hnil retry
  · rename_i hnil
    exact sameSelection_rows_iff hinit h hnil retry

end

def weightedDb : ChannelDb :=
  ChannelDb.empty.step (fun _ => none)
    (.batchInsert [.first { models := "gpt-4", weight := some 5 }, .second { models := "gpt-4" }])

theorem consistent_first_batch {cs : List NewChannel} (h : ∀ c ∈ cs, c.row.Distinguishable) :
    (ChannelDb.empty.step (fun _ => none) (.batchInsert cs)).Consistent :=
  (batchInsertChannels_keeps_iff consistent_empty cs).mpr fun _ => h

/-- Two channels without a weight can both be selected by both. -/
theorem sameSelection_two_channels : SameSelection ChannelCache.twoChannelsDb.builtCache
    ChannelCache.twoChannelsDb "default" "gpt-4" 1 :=
  (sameSelection_iff (init_builtCache (by decide +kernel))
    (consistent_first_batch (by decide +kernel)) _ _ _).mpr (by decide +kernel)

/-- **A channel of weight `0` beside one with a weight**: the cache cannot return it. -/
theorem weightless_channel_not_selected :
    initChannelCache true weightedDb .empty = some weightedDb.builtCache ∧ weightedDb.Consistent ∧
      ¬ SameSelection weightedDb.builtCache weightedDb "default" "gpt-4" 0 := by
  have hinit : initChannelCache true weightedDb .empty = some weightedDb.builtCache :=
    init_builtCache (by decide +kernel)
  have hconsistent : weightedDb.Consistent := consistent_first_batch (by decide +kernel)
  refine ⟨hinit, hconsistent, ?_⟩
  rintro ⟨hsame, -⟩
  have hname : weightedDb.builtCache.candidates "default" "gpt-4" =
      weightedDb.builtCache.list "default" "gpt-4" := by decide +kernel
  have hcache := (cache_selects_iff hinit hconsistent hname (by decide +kernel) 0).1 2
  have hne : weightedDb.candidates "default" "gpt-4" ≠ [] := by decide +kernel
  have hdb := (db_selects_iff hconsistent hne 0).1 2
  have hrow : ∃ a ∈ weightedDb.tier "default" "gpt-4" 0, a.channelId = 2 := by decide +kernel
  have hreach := hcache.mp ((hsame 2).mpr (hdb.mpr hrow))
  revert hreach
  decide +kernel

end NomoApi
