import NomoApi.Channels.Operations
import NomoApi.Lib.DerivedView
import NomoApi.Lib.Run

/-! # The abilities as a view of the channels

Requests are routed by the table `abilities` alone, which should hold one row for each channel,
group and model, with the channel's status, priority, weight and tag. Ten operations maintain it by
hand. -/

namespace NomoApi

open Channel Table Ability

/-! ### Rows and the columns that they repeat -/

namespace Channel

def columns (ch : Channel) : Bool × Int × Nat × Option String :=
  (ch.status = ChannelStatus.enabled, ch.getPriority, ch.getWeight, ch.tag)

theorem ability_eq_ability {c ch : Channel} (hid : c.id = ch.id) {p q : String × String} :
    c.ability p = ch.ability q ↔ p = q ∧ c.columns = ch.columns := by
  simp only [ability, columns, hid, Ability.mk.injEq, Prod.ext_iff, true_and]
  exact and_assoc.symm

theorem built_eq_provides_iff {c ch : Channel} (hid : c.id = ch.id) {P : List (String × String)}
    (hP : P ≠ []) : {a | ∃ p ∈ P, c.ability p = a} = {a | ch.Provides a} ↔
      (∀ p, p ∈ P ↔ p ∈ ch.pairs) ∧ c.columns = ch.columns := by
  constructor
  · intro h
    have hrow : ∀ a, (∃ p ∈ P, c.ability p = a) ↔ ∃ p ∈ ch.pairs, ch.ability p = a := fun a =>
      (Set.ext_iff.mp h a).trans provides_iff
    have hsub : ∀ p ∈ P, p ∈ ch.pairs ∧ c.columns = ch.columns := by
      intro p hp
      obtain ⟨q, hq, heq⟩ := (hrow (c.ability p)).mp ⟨p, hp, rfl⟩
      obtain ⟨rfl, hcolumns⟩ := (ability_eq_ability hid.symm).mp heq
      exact ⟨hq, hcolumns.symm⟩
    obtain ⟨p₀, hp₀⟩ := List.exists_mem_of_ne_nil P hP
    refine ⟨fun p => ⟨fun hp => (hsub p hp).1, fun hp => ?_⟩, (hsub p₀ hp₀).2⟩
    obtain ⟨q, hq, heq⟩ := (hrow (ch.ability p)).mpr ⟨p, hp, rfl⟩
    obtain ⟨rfl, -⟩ := (ability_eq_ability hid).mp heq
    exact hq
  · rintro ⟨hpairs, hcolumns⟩
    ext a
    simp only [Set.mem_ofPred_eq, provides_iff, hpairs]
    refine exists_congr fun p => and_congr_right fun _ => ?_
    rw [(ability_eq_ability hid).mpr ⟨rfl, hcolumns⟩]

end Channel

/-! ### The view -/

namespace ChannelDb

variable {db : ChannelDb}

/-- **The abilities are the view of the channels**; the primary key of the table excludes doubles.
-/
def Consistent (db : ChannelDb) : Prop :=
  ∀ a, a ∈ db.abilities ↔ ∃ ch ∈ db.channels, ch.Provides a

theorem consistent_empty : ChannelDb.empty.Consistent := by
  intro a
  constructor
  · intro ha
    cases ha
  · rintro ⟨ch, hch, -⟩
    cases hch

theorem consistent_iff_owned : db.Consistent ↔
    (∀ a ∈ db.abilities, ∃ ch ∈ db.channels, ch.id = a.channelId) ∧ ∀ ch ∈ db.channels,
        ownedBy channelId {a | a ∈ db.abilities} ch.id = {a | ch.Provides a} := by
  have hkey : Set.InjOn Channel.id {ch | ch ∈ db.channels} :=
    fun _ hch _ hch' hid => eq_of_key_eq hch hch' hid
  have howner : ∀ ch : Channel, ∀ a ∈ {a | ch.Provides a}, channelId a = ch.id :=
    fun _ _ ha => ha.2.2.1
  exact isView_iff_ownedBy hkey howner

/-- The rows of the channel `ch` are those built from `c` for the pairs `P`. -/
structure Carries (db : ChannelDb) (ch c : Channel) (P : List (String × String)) : Prop where
  id_eq : c.id = ch.id
  ne_nil : P ≠ []
  mem_iff : ∀ a : Ability, a.channelId = ch.id → (a ∈ db.abilities ↔ ∃ p ∈ P, c.ability p = a)

theorem consistent_iff_of_carries (olds : List Channel) (row carried : Channel → Channel)
    (P : Channel → List (String × String)) (hrows : ∀ x, x ∈ db.channels ↔ ∃ ch ∈ olds, row ch = x)
    (hcarries : ∀ ch ∈ olds, db.Carries (row ch) (carried ch) (P ch))
    (hstray : ∀ a ∈ db.abilities, ∃ ch ∈ olds, (row ch).id = a.channelId) :
    db.Consistent ↔ ∀ ch ∈ olds,
      (∀ p, p ∈ P ch ↔ p ∈ (row ch).pairs) ∧ (carried ch).columns = (row ch).columns := by
  have howned : ∀ ch ∈ olds, ownedBy channelId {a | a ∈ db.abilities} (row ch).id =
      {a | ∃ p ∈ P ch, (carried ch).ability p = a} := by
    intro ch hch
    ext a
    constructor
    · rintro ⟨ha, hid⟩
      exact ((hcarries ch hch).mem_iff a hid).mp ha
    · rintro ⟨p, hp, rfl⟩
      have hid := (hcarries ch hch).id_eq
      exact ⟨((hcarries ch hch).mem_iff _ hid).mpr ⟨p, hp, rfl⟩, hid⟩
  have hnone : ∀ a ∈ db.abilities, ∃ x ∈ db.channels, x.id = a.channelId := by
    intro a ha
    obtain ⟨ch, hch, hid⟩ := hstray a ha
    exact ⟨row ch, (hrows _).mpr ⟨ch, hch, rfl⟩, hid⟩
  rw [consistent_iff_owned, and_iff_right hnone]
  constructor
  · intro h ch hch
    rw [← Channel.built_eq_provides_iff (hcarries ch hch).id_eq (hcarries ch hch).ne_nil,
      ← howned ch hch]
    exact h _ ((hrows _).mpr ⟨ch, hch, rfl⟩)
  · intro h x hx
    obtain ⟨ch, hch, rfl⟩ := (hrows x).mp hx
    rw [howned ch hch, built_eq_provides_iff (hcarries ch hch).id_eq (hcarries ch hch).ne_nil]
    exact h ch hch

variable {ch : Channel}

theorem Consistent.carries (h : db.Consistent) (hch : ch ∈ db.channels) :
    db.Carries ch ch ch.pairs where
  id_eq := rfl
  ne_nil := ch.pairs_ne_nil
  mem_iff := by
    intro a hid
    rw [h a]
    constructor
    · rintro ⟨ch', hch', hprovides⟩
      obtain rfl : ch' = ch := eq_of_key_eq hch' hch (hprovides.2.2.1.symm.trans hid)
      exact provides_iff.mp hprovides
    · intro hrow
      exact ⟨ch, hch, provides_iff.mpr hrow⟩

variable {a : Ability}

theorem Consistent.exists_channel (h : db.Consistent) (ha : a ∈ db.abilities) :
    ∃ ch ∈ db.channels, ch.id = a.channelId := (consistent_iff_owned.mp h).1 a ha

variable {g : Ability → Ability}

theorem channelId_updated (q : Ability → Bool) (hg : ∀ a, (g a).key = a.key) (a : Ability) :
    (if q a then g a else a).channelId = a.channelId := by
  have hkey : (g a).channelId = a.channelId := congrArg (fun k => k.2.2) (hg a)
  by_cases hq : q a = true <;> simp [hq, hkey]

variable {db' : ChannelDb}

section

variable (h : db.Consistent) {q : Ability → Bool} {hg : ∀ a, (g a).key = a.key}

include h

theorem Consistent.carries_of_updated {c : Channel} (hch : ch ∈ db.channels) (hid : c.id = ch.id)
    (hrow : ∀ x, (if q (ch.ability x) then g (ch.ability x) else ch.ability x) = c.ability x) :
    Carries ⟨db.channels, db.abilities.updateWhere q g hg⟩ ch c ch.pairs where
  id_eq := hid
  ne_nil := ch.pairs_ne_nil
  mem_iff := by
    intro a ha
    have hmem := (h.carries hch).mem_iff
    have hupdated : a ∈ db.abilities.updateWhere q g hg ↔
        ∃ b ∈ db.abilities, (if q b then g b else b) = a := mem_updateWhere
    refine hupdated.trans ?_
    constructor
    · rintro ⟨b, hb, rfl⟩
      rw [channelId_updated q hg] at ha
      obtain ⟨x, hx, rfl⟩ := (hmem b ha).mp hb
      exact ⟨x, hx, (hrow x).symm⟩
    · rintro ⟨x, hx, rfl⟩
      exact ⟨ch.ability x, (hmem _ rfl).mpr ⟨x, hx, rfl⟩, hrow x⟩

theorem Consistent.exists_channel_of_updated (ha : a ∈ db.abilities.updateWhere q g hg) :
    ∃ ch ∈ db.channels, ch.id = a.channelId := by
  obtain ⟨b, hb, rfl⟩ := mem_updateWhere.mp ha
  rw [channelId_updated q hg]
  exact h.exists_channel hb

end

/-! ### What the operations do to the view -/

theorem exists_mem_abilities_iff {chs : List Channel} (hids : (chs.map Channel.id).Nodup)
    (hch : ch ∈ chs) (hid : a.channelId = ch.id) :
    (∃ ch' ∈ chs, a ∈ ch'.abilities) ↔ a ∈ ch.abilities := by
  constructor
  · rintro ⟨ch', hch', ha⟩
    have hsame : ch'.id = ch.id := (channelId_of_mem_abilities ha).symm.trans hid
    obtain rfl : ch' = ch := List.inj_on_of_nodup_map hids hch' hch hsame
    exact ha
  · intro ha
    exact ⟨ch, hch, ha⟩

/-- **The rows of the channels `built` were built anew**, no others touched. -/
def Rebuilt (t t' : Table Ability key) (built : List Channel) : Prop :=
  ∀ a, a ∈ t' ↔ (a ∈ t ∧ ∀ ch ∈ built, a.channelId ≠ ch.id) ∨ ∃ ch ∈ built, a ∈ ch.abilities

section

variable {built : List Channel} {ch : Channel}

theorem Rebuilt.carries_built {t : Table Ability key}
    (hrebuilt : Rebuilt t db'.abilities built) (hids : (built.map Channel.id).Nodup) {b : Channel}
    (hb : b ∈ built) (hid : b.id = ch.id) : db'.Carries ch b b.distinctPairs := by
  refine ⟨hid, b.distinctPairs_ne_nil, fun a ha => ?_⟩
  have hab : a.channelId = b.id := ha.trans hid.symm
  rw [← Channel.mem_abilities, hrebuilt a, exists_mem_abilities_iff hids hb hab, or_iff_right]
  rintro ⟨-, hne⟩
  exact hne b hb hab

section

variable (hrebuilt : Rebuilt db.abilities db'.abilities built) (h : db.Consistent)

include hrebuilt h

theorem Rebuilt.carries_other (hch : ch ∈ db.channels) (hother : ∀ b ∈ built, b.id ≠ ch.id) :
    db'.Carries ch ch ch.pairs := by
  refine ⟨rfl, ch.pairs_ne_nil, fun a ha => ?_⟩
  rw [← (h.carries hch).mem_iff a ha, hrebuilt a, or_iff_left, and_iff_left]
  · intro b hb hab
    exact hother b hb (hab.symm.trans ha)
  · rintro ⟨b, hb, hab⟩
    exact hother b hb ((channelId_of_mem_abilities hab).symm.trans ha)

theorem Rebuilt.exists_channel {a : Ability} (ha : a ∈ db'.abilities) :
    (∃ ch ∈ db.channels, ch.id = a.channelId) ∨ ∃ b ∈ built, b.id = a.channelId := by
  rcases (hrebuilt a).mp ha with ⟨ha, -⟩ | ⟨b, hb, ha⟩
  · exact .inl (h.exists_channel ha)
  · exact .inr ⟨b, hb, (channelId_of_mem_abilities ha).symm⟩

end

end

theorem consistent_created_iff (h : db.Consistent) {created : List Channel}
    (hchannels : db'.channels.rows = db.channels.rows ++ created)
    (habilities : db'.abilities = created.foldl (fun t ch => ch.addAbilities t) db.abilities) :
    db'.Consistent ↔ ∀ ch ∈ created, ch.Distinguishable := by
  have hnodup : ((db.channels.rows ++ created).map Channel.id).Nodup :=
    hchannels ▸ db'.channels.nodup
  rw [List.map_append, List.nodup_append] at hnodup
  obtain ⟨-, hids, hnew⟩ := hnodup
  have hold : ∀ ch ∈ created, ∀ ch' ∈ db.channels, ch'.id ≠ ch.id := fun ch hch ch' hch' =>
    hnew _ (List.mem_map_of_mem hch') _ (List.mem_map_of_mem hch)
  have hfree : ∀ a ∈ db.abilities, ∀ ch ∈ created, a.channelId ≠ ch.id := by
    intro a ha ch hch hid
    obtain ⟨ch', hch', hid'⟩ := h.exists_channel ha
    exact hold ch hch ch' hch' (hid'.trans hid)
  have hrebuilt : Rebuilt db.abilities db'.abilities created := by
    intro a
    rw [habilities, Channel.mem_foldl_addAbilities hids hfree, and_iff_left_of_imp (hfree a)]
  have hrows : ∀ x, x ∈ db'.channels ↔ x ∈ db.channels ∨ x ∈ created := fun x => by
    rw [mem_iff, hchannels, List.mem_append, mem_iff]
  -- the rows of a new channel are built from its pairs without repetition, the others are old
  rw [consistent_iff_of_carries db'.channels.rows id id
    (fun ch => if ch ∈ created then ch.distinctPairs else ch.pairs) (by simp [mem_iff])]
  · constructor
    · intro hall ch hch
      have hpairs := (hall ch ((hrows ch).mpr (.inr hch))).1
      simp only [if_pos hch] at hpairs
      exact ch.mem_distinctPairs_iff.mp hpairs
    · intro hall ch hch
      refine ⟨?_, rfl⟩
      by_cases hc : ch ∈ created
      · simp only [if_pos hc]
        exact ch.mem_distinctPairs_iff.mpr (hall ch hc)
      · simp only [if_neg hc]
        exact fun _ => Iff.rfl
  · intro ch hch
    split
    · rename_i hc
      exact hrebuilt.carries_built hids hc rfl
    · rename_i hc
      have hch' : ch ∈ db.channels := ((hrows ch).mp hch).resolve_right hc
      exact hrebuilt.carries_other h hch' fun b hb => (hold b hb ch hch').symm
  · intro a ha
    rcases hrebuilt.exists_channel h ha with ⟨ch, hch, hid⟩ | ⟨ch, hch, hid⟩
    · exact ⟨ch, (hrows ch).mpr (.inl hch), hid⟩
    · exact ⟨ch, (hrows ch).mpr (.inr hch), hid⟩

variable {f : Channel → Channel}

theorem id_updated (p : Channel → Bool) (hf : ∀ ch, (f ch).id = ch.id) (ch : Channel) :
    (if p ch then f ch else ch).id = ch.id := by
  by_cases hp : p ch = true <;> simp [hp, hf]

/-- **Columns updated in both tables**: the rows must show what the channels have become. -/
theorem consistent_updated_iff {p : Channel → Bool} {hf : ∀ ch, (f ch).id = ch.id}
    {t : Table Ability key} (carried : Channel → Channel)
    (hpairs : ∀ ch ∈ db.channels, p ch = true → (f ch).pairs = ch.pairs)
    (hcarries : ∀ ch ∈ db.channels, Carries ⟨db.channels, t⟩ ch (carried ch) ch.pairs)
    (hstray : ∀ a ∈ t, ∃ ch ∈ db.channels, ch.id = a.channelId) :
    Consistent ⟨db.channels.updateWhere p f hf, t⟩ ↔
      ∀ ch ∈ db.channels, (carried ch).columns = (if p ch then f ch else ch).columns := by
  have hid := id_updated p hf
  have hrows : ∀ x, x ∈ db.channels.updateWhere p f hf ↔
      ∃ ch ∈ db.channels.rows, (if p ch then f ch else ch) = x := fun _ => mem_updateWhere
  have hpairs' : ∀ ch ∈ db.channels, (if p ch then f ch else ch).pairs = ch.pairs := by
    intro ch hch
    by_cases hp : p ch = true
    · rw [if_pos hp, hpairs ch hch hp]
    · rw [if_neg hp]
  rw [consistent_iff_of_carries db.channels.rows (fun ch => if p ch then f ch else ch) carried
    Channel.pairs hrows]
  · refine forall_congr' fun ch => imp_congr_right fun hch => and_iff_right fun x => ?_
    rw [hpairs' ch hch]
  · intro ch hch
    obtain ⟨hc, hne, hmem⟩ := hcarries ch hch
    exact ⟨hc.trans (hid ch).symm, hne, fun a ha => hmem a (ha.trans (hid ch))⟩
  · intro a ha
    obtain ⟨ch, hch, hcid⟩ := hstray a ha
    exact ⟨ch, hch, (hid ch).trans hcid⟩

variable {r : Channel → Bool}

theorem mem_map_filter_iff {src : Channel → Channel} {b : Channel} :
    b ∈ (db.channels.filter r).rows.map src ↔ ∃ ch ∈ db.channels, r ch = true ∧ src ch = b := by
  rw [List.mem_map]
  refine exists_congr fun ch => ?_
  rw [← mem_iff, mem_filter, and_assoc]

theorem nodup_map_filter {src : Channel → Channel} (hsrc : ∀ ch, (src ch).id = ch.id) :
    (((db.channels.filter r).rows.map src).map Channel.id).Nodup := by
  have hcomp : Channel.id ∘ src = Channel.id := funext hsrc
  rw [List.map_map, hcomp]
  exact (db.channels.filter r).nodup

/-- **Rows built anew** from `src ch`: this must be what the channel `ch` has become. -/
theorem consistent_rebuilt_iff (h : db.Consistent) {p : Channel → Bool}
    {hf : ∀ ch, (f ch).id = ch.id} (src : Channel → Channel) (hsrc : ∀ ch, (src ch).id = ch.id)
    {built : List Channel} (hbuilt : built = (db.channels.filter r).rows.map src)
    (hr : ∀ ch ∈ db.channels, p ch = true → r ch = true) :
    Consistent ⟨db.channels.updateWhere p f hf, Channel.updateAllAbilities built db.abilities⟩ ↔
      ∀ ch ∈ db.channels, r ch = true →
        (∀ x, x ∈ (src ch).distinctPairs ↔ x ∈ (if p ch then f ch else ch).pairs) ∧
          (src ch).columns = (if p ch then f ch else ch).columns := by
  subst hbuilt
  have hid := id_updated p hf
  have hrows : ∀ x, x ∈ db.channels.updateWhere p f hf ↔
      ∃ ch ∈ db.channels.rows, (if p ch then f ch else ch) = x := fun _ => mem_updateWhere
  have hids : (((db.channels.filter r).rows.map src).map Channel.id).Nodup := nodup_map_filter hsrc
  have hrebuilt : Rebuilt db.abilities
      (updateAllAbilities ((db.channels.filter r).rows.map src) db.abilities)
      ((db.channels.filter r).rows.map src) := fun a => mem_updateAllAbilities hids
  rw [consistent_iff_of_carries db.channels.rows (fun ch => if p ch then f ch else ch)
    (fun ch => if r ch then src ch else ch)
    (fun ch => if r ch then (src ch).distinctPairs else ch.pairs) hrows]
  · refine forall_congr' fun ch => imp_congr_right fun hch => ?_
    by_cases hrc : r ch = true
    · simp only [hrc, if_true, forall_const]
    · -- a channel whose rows are left alone is left alone itself
      have hpc : ¬ p ch = true := fun hp => hrc (hr ch hch hp)
      simp [hrc, hpc]
  · intro ch hch
    by_cases hrc : r ch = true
    · simp only [hrc, if_true]
      exact hrebuilt.carries_built hids (mem_map_filter_iff.mpr ⟨ch, hch, hrc, rfl⟩)
        ((hsrc ch).trans (hid ch).symm)
    · have hpc : ¬ p ch = true := fun hp => hrc (hr ch hch hp)
      simp only [hrc, hpc, if_false, Bool.false_eq_true]
      refine hrebuilt.carries_other h hch fun b hb hbid => ?_
      obtain ⟨ch', hch', hrc', rfl⟩ := mem_map_filter_iff.mp hb
      obtain rfl : ch' = ch := eq_of_key_eq hch' hch ((hsrc ch').symm.trans hbid)
      exact hrc hrc'
  · intro a ha
    rcases hrebuilt.exists_channel h ha with ⟨ch, hch, hcid⟩ | ⟨b, hb, hbid⟩
    · exact ⟨ch, hch, (hid ch).trans hcid⟩
    · obtain ⟨ch, hch, -, rfl⟩ := mem_map_filter_iff.mp hb
      exact ⟨ch, hch, (hid ch).trans ((hsrc ch).symm.trans hbid)⟩

theorem consistent_deleteIds (h : db.Consistent) (ids : List Int) :
    (db.deleteIds ids).Consistent := by
  intro a
  simp only [deleteIds, mem_filter, h a, decide_eq_true_eq]
  constructor
  · rintro ⟨⟨ch, hch, ha⟩, hid⟩
    exact ⟨ch, ⟨hch, ha.2.2.1 ▸ hid⟩, ha⟩
  · rintro ⟨ch, ⟨hch, hid⟩, ha⟩
    exact ⟨⟨ch, hch, ha⟩, ha.2.2.1.symm ▸ hid⟩

end ChannelDb

end NomoApi
