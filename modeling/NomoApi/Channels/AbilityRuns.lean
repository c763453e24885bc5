import NomoApi.Channels.AbilityView

/-! # When the operations keep the abilities in line

For every operation on channels, the exact condition under which it keeps the table `abilities` the
view of `channels`. -/

namespace NomoApi

open List Table ChannelStatus NewChannel ChannelDb

namespace Channel

section

variable {ch ch' : Channel} (hgroup : ch.group = ch'.group) (hmodels : ch.models = ch'.models)

include hgroup hmodels

theorem pairs_congr : ch.pairs = ch'.pairs := by
  rw [pairs, pairs, groups, groups, modelNames, modelNames, hgroup, hmodels]

theorem distinguishable_congr : ch.Distinguishable ↔ ch'.Distinguishable := by
  rw [Distinguishable, Distinguishable, pairs_congr hgroup hmodels]

end

end Channel

namespace ChannelDb

variable (jsonArray : String → Option (List String)) {db : ChannelDb}

/-! ### New channels -/

theorem rows_create {t t' : Table Channel Channel.id} {cs : List NewChannel}
    (h : create t cs = some t') : t'.rows = t.rows ++ cs.map row := by
  induction cs generalizing t with
  | nil => cases h; simp
  | cons c cs ih =>
    rw [create, foldlM_cons] at h
    obtain ⟨t₁, h₁, h₂⟩ := Option.bind_eq_some_iff.mp h
    rw [ih h₂, (insert?_eq_some h₁).1, map_cons, append_assoc]
    rfl

theorem exists_create_iff {t : Table Channel Channel.id} {cs : List NewChannel} :
    (∃ t', create t cs = some t') ↔ ((t.rows ++ cs.map row).map Channel.id).Nodup := by
  constructor
  · rintro ⟨t', h⟩
    exact rows_create h ▸ t'.nodup
  · intro h
    induction cs generalizing t with
    | nil => exact ⟨t, rfl⟩
    | cons c cs ih =>
      have hfree : t.find? c.row.id = none := by
        refine Table.find?_eq_none.mpr fun ch hch => ?_
        rw [map_append, nodup_append] at h
        exact h.2.2 _ (mem_map_of_mem hch) _ (by simp)
      obtain ⟨t₁, h₁⟩ := exists_insert? hfree
      obtain ⟨t', h'⟩ := ih (t := t₁) (by
        rw [(insert?_eq_some h₁).1]
        simpa using h)
      refine ⟨t', ?_⟩
      rw [create, foldlM_cons, h₁]
      exact h'

theorem foldlM_insertChunk (chs : List (List NewChannel)) (db : ChannelDb) :
    chs.foldlM insertChunk db = insertChunk db chs.flatten := by
  induction chs generalizing db with
  | nil => rfl
  | cons chunk chs ih =>
    rw [foldlM_cons, flatten_cons]
    simp only [insertChunk, create, foldlM_append, map_append, foldl_append]
    cases hcreate : chunk.foldlM (fun t c => Table.insert? t c.row) db.channels with
    | none => rfl
    | some channels =>
      simp only [Option.map_some, Option.bind_eq_bind, Option.bind_some, ih]
      rfl

theorem insertChunk_keeps_iff (h : db.Consistent) (cs : List NewChannel) :
    ((db.insertChunk cs).getD db).Consistent ↔
      (((db.channels.rows ++ cs.map row).map Channel.id).Nodup →
        ∀ c ∈ cs, c.row.Distinguishable) := by
  rw [insertChunk, ← exists_create_iff]
  cases hcreate : create db.channels cs with
  | none => simpa using h
  | some channels =>
    have hrows := rows_create hcreate
    simp only [Option.map_some, Option.getD_some, Option.some.injEq, exists_eq', forall_const]
    rw [consistent_created_iff h hrows rfl, forall_mem_map]

theorem batchInsertChannels_keeps_iff (h : db.Consistent) (cs : List NewChannel) :
    ((db.batchInsertChannels cs).getD db).Consistent ↔
      (((db.channels.rows ++ cs.map row).map Channel.id).Nodup →
        ∀ c ∈ cs, c.row.Distinguishable) := by
  rw [batchInsertChannels, foldlM_insertChunk, flatten_chunks (by omega)]
  exact insertChunk_keeps_iff h cs

theorem insert_eq_insertChunk (db : ChannelDb) (c : NewChannel) :
    db.insert c = db.insertChunk [c] := by
  simp [insert, insertChunk, create]

theorem insert_keeps_iff (h : db.Consistent) (c : NewChannel) : ((db.insert c).getD db).Consistent ↔
      (db.channels.find? c.row.id = none → c.row.Distinguishable) := by
  have hfree : ((db.channels.rows ++ [c].map row).map Channel.id).Nodup ↔
      db.channels.find? c.row.id = none := by
    rw [Table.find?_eq_none, map_append, nodup_append]
    simp [db.channels.nodup, mem_iff]
  rw [insert_eq_insertChunk, insertChunk_keeps_iff h, hfree, forall_mem_singleton]

/-! ### Updated channels -/

theorem fixMultiKey_frame (db : ChannelDb) (channel : Channel) :
    (db.fixMultiKey jsonArray channel).id = channel.id ∧
      (db.fixMultiKey jsonArray channel).group = channel.group ∧
      (db.fixMultiKey jsonArray channel).models = channel.models ∧
      (db.fixMultiKey jsonArray channel).hasValues = channel.hasValues := by
  unfold fixMultiKey
  by_cases hmulti : channel.channelInfo.isMultiKey = true
  · -- a multi-key struct has something to write, before and after
    have hvalues : ∀ ch : Channel, ch.channelInfo.isMultiKey = true → ch.hasValues = true := by
      intro ch hch
      refine decide_eq_true fun hzero => ?_
      have hinfo : ch.channelInfo = {} := congrArg Channel.channelInfo hzero
      rw [hinfo] at hch
      cases hch
    rw [if_pos hmulti]
    refine ⟨rfl, rfl, rfl, Eq.trans ?_ (hvalues channel hmulti).symm⟩
    apply hvalues
    exact hmulti
  · rw [if_neg hmulti]
    exact ⟨rfl, rfl, rfl, rfl⟩

theorem not_consistent_of_stray {ch : Channel} {t : Table Channel Channel.id}
    (hnone : t.find? ch.id = none) : ¬ Consistent ⟨t, ch.updateAbilities db.abilities⟩ := by
  intro h
  obtain ⟨x, hx⟩ := exists_mem_of_ne_nil _ ch.distinctPairs_ne_nil
  have hrow : ch.ability x ∈ ch.updateAbilities db.abilities :=
    Channel.mem_updateAbilities.mpr (.inr (Channel.mem_abilities.mpr ⟨x, hx, rfl⟩))
  obtain ⟨ch', hch', hid⟩ := h.exists_channel hrow
  have hfind : t.find? ch.id = some ch' := find?_eq_some.mpr ⟨hch', hid⟩
  rw [hnone] at hfind
  cases hfind

theorem writeUpdate_keeps_iff (h : db.Consistent) (ch : Channel) : (db.writeUpdate ch).Consistent ↔
      ∃ row, db.channels.find? ch.id = some row ∧ (row.updates ch).Distinguishable := by
  have hread := db.channels.find?_updateWhere (fun row => decide (row.id = ch.id))
    (fun row => row.updates ch) (fun _ => rfl) ch.id
  unfold writeUpdate
  cases hfind : db.channels.find? ch.id with
  | none =>
    rw [hfind] at hread
    simp only [hread]
    refine iff_of_false (not_consistent_of_stray hread) ?_
    rintro ⟨row, hrow, -⟩
    cases hrow
  | some row =>
    obtain ⟨hrow, hid⟩ := find?_eq_some.mp hfind
    rw [hfind, Option.map_some, if_pos (decide_eq_true hid)] at hread
    simp only [hread, Option.getD_some, Option.some.injEq, exists_eq_left']
    have hbuilt : [row.updates ch] =
        (db.channels.filter fun ch' => ch'.id = ch.id).rows.map fun row => row.updates ch := by
      rw [rows_filter_key hfind]
      rfl
    rw [← Channel.updateAllAbilities_singleton]
    refine (consistent_rebuilt_iff h (fun row => row.updates ch) (fun _ => rfl) hbuilt
      fun _ _ hp => hp).trans ?_
    constructor
    · intro hall
      have hpairs := (hall row hrow (decide_eq_true hid)).1
      rw [if_pos (decide_eq_true hid)] at hpairs
      exact (row.updates ch).mem_distinctPairs_iff.mp hpairs
    · intro hdist row' hrow' hid'
      obtain rfl : row' = row := eq_of_find? hrow' (of_decide_eq_true hid') hfind
      rw [if_pos hid']
      exact ⟨(row'.updates ch).mem_distinctPairs_iff.mpr hdist, rfl⟩

def UpdateKeeps (db : ChannelDb) (channel : Channel) : Prop :=
  (channel.id = 0 ∧ channel.hasValues) ∨
    ∃ row, db.channels.find? channel.id = some row ∧ (row.updates channel).Distinguishable

theorem update_keeps_iff (h : db.Consistent) (channel : Channel) :
    ((db.update jsonArray channel).getD db).Consistent ↔ db.UpdateKeeps channel := by
  obtain ⟨hid, hgroup, hmodels, hvalues⟩ := db.fixMultiKey_frame jsonArray channel
  unfold update UpdateKeeps
  simp only [hid, hvalues]
  split
  · rename_i hrefused
    exact iff_of_true h (.inl hrefused)
  · rename_i hrefused
    rw [Option.getD_some, or_iff_right hrefused, writeUpdate_keeps_iff h, hid]
    refine exists_congr fun row => and_congr_right fun _ => ?_
    apply Channel.distinguishable_congr
    · simp [Channel.updates, hgroup]
    · simp [Channel.updates, hmodels]

/-! ### Statuses -/

/-- **The trap of the multi-key status**: one key is enabled of a channel that is disabled, though
not automatically, and whose status list has enough entries without it. -/
def EnablesDisabled (ch : Channel) (usingKey : String) (status : Int) : Prop :=
  ch.channelInfo.isMultiKey = true ∧ ch.getKeys jsonArray ≠ [] ∧ status = enabled ∧
    ch.status ≠ enabled ∧ ch.status ≠ autoDisabled ∧
    ch.channelInfo.multiKeySize ≤
      (((ch.channelInfo.multiKeyStatusList.getD .empty).erase
        (ch.keyIndex jsonArray usingKey)).rows.length : Nat)
deriving Decidable

theorem withStatus_eq (ch : Channel) (usingKey : String) (status : Int) (reason : String)
    (now : Int) : ∃ info, withStatus jsonArray ch usingKey status reason now = { ch with
        channelInfo := info
        status := (withStatus jsonArray ch usingKey status reason now).status } := by
  unfold withStatus
  split
  · exact ch.handlerMultiKeyUpdate_eq jsonArray usingKey status reason now
  · exact ⟨_, rfl⟩

/-- **The rows follow the new status of their channel**, except in the trap. -/
theorem withStatus_agrees_iff {ch : Channel} {status : Int} (hne : ch.status ≠ status)
    (usingKey reason : String) (now : Int) : ((ch.channelInfo.isMultiKey = false ∨
        ch.status ≠ (withStatus jsonArray ch usingKey status reason now).status) →
      decide (status = enabled) =
        decide ((withStatus jsonArray ch usingKey status reason now).status =
          enabled)) ↔ ¬ EnablesDisabled jsonArray ch usingKey status := by
  unfold withStatus
  by_cases hmulti : ch.channelInfo.isMultiKey = true
  swap
  · rw [if_neg hmulti]
    exact iff_of_true (fun _ => rfl) fun htrap => hmulti htrap.1
  rw [if_pos hmulti, Channel.status_handlerMultiKeyUpdate]
  by_cases hkeys : ch.getKeys jsonArray = []
  · rw [if_pos hkeys]
    exact iff_of_true (fun _ => rfl) fun htrap => htrap.2.1 hkeys
  rw [if_neg hkeys]
  by_cases henabled : status = enabled
  · -- the entries of the list that are left are counted
    subst henabled
    have hcount : (ch.channelInfo.setKeyStatus (ch.keyIndex jsonArray usingKey)
        enabled reason now).disabledKeys =
        (((ch.channelInfo.multiKeyStatusList.getD .empty).erase
          (ch.keyIndex jsonArray usingKey)).rows.length : Nat) := rfl
    rw [hcount]
    split
    · rename_i hfull
      have hauto : autoDisabled ≠ enabled := by decide
      simp [EnablesDisabled, hmulti, hkeys, hne, hauto, hfull]
    · rename_i hfull
      simp [EnablesDisabled, hmulti, hfull]
  · have htrap : ¬ EnablesDisabled jsonArray ch usingKey status := fun htrap => henabled htrap.2.2.1
    refine iff_of_true (fun hupdated => ?_) htrap
    split
    · rw [decide_eq_false henabled, decide_eq_false (by decide)]
    · rename_i hfull
      simp [hmulti, hfull] at hupdated

section

variable (h : db.Consistent) {ch : Channel} (hch : ch ∈ db.channels) (info : ChannelInfo)

include h hch

theorem consistent_saved_iff (status status' : Int) :
    Consistent ⟨writeWithoutKey db.channels { ch with channelInfo := info, status := status' },
        updateAbilityStatus ch.id (status = enabled) db.abilities⟩ ↔
      decide (status = enabled) = decide (status' = enabled) := by
  have honly : ∀ row ∈ db.channels, row.id = ch.id → row = ch := fun row hrow hid =>
    eq_of_key_eq hrow hch hid
  refine (consistent_updated_iff
    (fun row => if row.id = ch.id then { row with status := status } else row) ?_ ?_ ?_).trans ?_
  · intro row hrow hid
    obtain rfl := honly row hrow (of_decide_eq_true hid)
    rfl
  · intro row hrow
    refine h.carries_of_updated hrow ?_ ?_
    · split <;> rfl
    · intro x
      by_cases hid : row.id = ch.id <;>
        simp [Channel.ability, hid, Channel.getPriority, Channel.getWeight]
  · exact fun a ha => h.exists_channel_of_updated ha
  · constructor
    · intro hall
      have hcolumns := hall ch hch
      rw [if_pos rfl, if_pos (decide_eq_true rfl)] at hcolumns
      exact congrArg Prod.fst hcolumns
    · intro hstatus row hrow
      by_cases hid : row.id = ch.id
      · obtain rfl := honly row hrow hid
        rw [if_pos hid, if_pos (decide_eq_true hid)]
        exact congrArg (fun b => (b, row.getPriority, row.getWeight, row.tag)) hstatus
      · rw [if_neg hid, if_neg (by simpa using hid)]

theorem consistent_saved :
    Consistent ⟨writeWithoutKey db.channels { ch with channelInfo := info }, db.abilities⟩ := by
  have honly : ∀ row ∈ db.channels, row.id = ch.id → row = ch := fun row hrow hid =>
    eq_of_key_eq hrow hch hid
  refine (consistent_updated_iff id ?_ (fun row hrow => h.carries hrow)
    fun a ha => h.exists_channel ha).mpr fun row hrow => ?_
  · intro row hrow hid
    obtain rfl := honly row hrow (of_decide_eq_true hid)
    rfl
  · by_cases hid : row.id = ch.id
    · obtain rfl := honly row hrow hid
      rw [if_pos (decide_eq_true hid)]
      rfl
    · rw [if_neg (by simpa using hid)]
      rfl

end

def StatusKeeps (db : ChannelDb) (cached : CachedChannel) (channelId : Int) (usingKey : String)
    (status : Int) : Prop :=
  cached.stops status = true ∨
    ∀ ch, db.channels.find? channelId = some ch → ¬ EnablesDisabled jsonArray ch usingKey status

theorem updateChannelStatus_keeps_iff (h : db.Consistent)
    (hnumbered : ∀ ch ∈ db.channels, ch.id ≠ 0) (cached : CachedChannel) (channelId : Int)
    (usingKey : String) (status : Int) (reason : String) (now : Int) :
    (db.updateChannelStatus jsonArray cached channelId usingKey status reason now).2.Consistent ↔
      db.StatusKeeps jsonArray cached channelId usingKey status := by
  unfold updateChannelStatus StatusKeeps
  by_cases hstops : cached.stops status = true
  · rw [if_pos hstops]
    exact iff_of_true h (.inl hstops)
  rw [if_neg hstops, or_iff_right hstops]
  cases hfind : db.channels.find? channelId with
  | none => exact iff_of_true h fun ch hch => by cases hch
  | some ch =>
    obtain ⟨hch, rfl⟩ := find?_eq_some.mp hfind
    simp only [Option.some.injEq, forall_eq']
    by_cases hsame : ch.status = status
    · rw [if_pos hsame]
      exact iff_of_true h fun htrap => htrap.2.2.2.1 (hsame.trans htrap.2.2.1)
    rw [if_neg hsame, ← withStatus_agrees_iff jsonArray hsame usingKey reason now]
    obtain ⟨info, hwith⟩ := withStatus_eq jsonArray ch usingKey status reason now
    generalize (withStatus jsonArray ch usingKey status reason now).status = status' at hwith ⊢
    rw [hwith]
    have hsave : saveWithoutKey db.channels { ch with channelInfo := info, status := status' } =
        some (writeWithoutKey db.channels { ch with channelInfo := info, status := status' }) :=
      if_neg (hnumbered ch hch)
    rw [hsave]
    by_cases hupdated : ch.channelInfo.isMultiKey = false ∨ ch.status ≠ status'
    · have hshould : (!ch.channelInfo.isMultiKey || decide (ch.status ≠ status')) = true := by
        simpa using hupdated
      simp only [hshould, if_true, hupdated, forall_const]
      exact consistent_saved_iff h hch info status status'
    · -- the status has stayed, and so have the rows
      obtain ⟨hmulti, rfl⟩ : ch.channelInfo.isMultiKey = true ∧ ch.status = status' := by
        simpa using hupdated
      have hshould : (!ch.channelInfo.isMultiKey || decide (ch.status ≠ ch.status)) = false := by
        simp [hmulti]
      simp only [hshould, Bool.false_eq_true, if_false]
      exact iff_of_true (consistent_saved h hch info) fun hno => absurd hno hupdated

theorem setStatusByTag_keeps (h : db.Consistent) (tag : String) (status : Int) :
    (db.setStatusByTag tag status).Consistent := by
  refine (consistent_updated_iff
    (fun row => if row.tag = some tag then { row with status } else row) ?_ ?_ ?_).mpr ?_
  · exact fun _ _ _ => rfl
  · intro row hrow
    refine h.carries_of_updated hrow ?_ ?_
    · split <;> rfl
    · intro x
      by_cases htag : row.tag = some tag <;>
        simp [Channel.ability, htag, Channel.getPriority, Channel.getWeight]
  · exact fun a ha => h.exists_channel_of_updated ha
  · intro row _
    simp

/-! ### Tags -/

end ChannelDb

namespace TagEdit

variable (e : TagEdit) (tag : String)

def applied (row : Channel) : Channel :=
  if row.tag = some tag then row.updates (e.updateData tag) else row

theorem applied_id (row : Channel) : (e.applied tag row).id = row.id := by
  unfold applied
  split <;> rfl

theorem applied_tag_iff (row : Channel) : (e.applied tag row).tag = some (e.updatedTag tag) ↔
      row.tag = some tag ∨ row.tag = some (e.updatedTag tag) := by
  unfold applied
  split
  · rename_i htag
    refine iff_of_true ?_ (.inl htag)
    simp only [Channel.updates, updateData, updatedTag, htag]
    cases hnew : e.newTag with
    | none => rfl
    | some newTag =>
      by_cases heq : newTag = tag
      · simp [Option.filter, heq]
      · simp [Option.filter, heq]
  · rename_i htag
    rw [or_iff_right htag]

/-- The channel that the rows show after `UpdateAbilityByTag`. -/
def shown (row : Channel) : Channel :=
  { row with
    tag := e.newTag.or row.tag
    priority := some (e.priority.getD row.getPriority)
    weight := some (if e.weight.getD 0 = 0 then row.getWeight else e.weight.getD 0) }

theorem pairs_updates (row : Channel) (h : ¬ e.shouldReCreateAbilities = true) :
    (row.updates (e.updateData tag)).pairs = row.pairs := by
  simp only [shouldReCreateAbilities, Bool.or_eq_true, not_or] at h
  have hempty : ∀ s : Option String, ¬ s.any (· ≠ "") = true → s.getD "" = "" := by
    intro s hs
    cases s with
    | none => rfl
    | some s => simpa using hs
  refine Channel.pairs_congr ?_ ?_
  · exact if_pos (hempty e.group h.2)
  · exact if_pos (hempty e.models h.1)

/-- **What the rows show is what the channel has become**, unless the weight is set to `0`. -/
theorem shown_columns_iff {tag : String} {row : Channel} (htag : row.tag = some tag) :
    (e.shown row).columns = (row.updates (e.updateData tag)).columns ↔
      (e.weight = some 0 → row.getWeight = 0) := by
  have hpriority : (e.shown row).getPriority = (row.updates (e.updateData tag)).getPriority := by
    cases hp : e.priority <;> simp [shown, Channel.getPriority, Channel.updates, updateData, hp]
  have hshown : (e.shown row).tag = (row.updates (e.updateData tag)).tag := by
    simp only [shown, Channel.updates, updateData, htag]
    cases hnew : e.newTag with
    | none => rfl
    | some newTag => by_cases heq : newTag = tag <;> simp [Option.filter, heq]
  have hweight : (e.shown row).getWeight = (row.updates (e.updateData tag)).getWeight ↔
      (e.weight = some 0 → row.getWeight = 0) := by
    cases hw : e.weight with
    | none => simp [shown, Channel.getWeight, Channel.updates, updateData, hw]
    | some w => by_cases hzero : w = 0 <;>
        simp [shown, Channel.getWeight, Channel.updates, updateData, hw, hzero]
  have hstatus : (e.shown row).status = (row.updates (e.updateData tag)).status := rfl
  rw [← hweight]
  simp [Channel.columns, hstatus, hpriority, hshown]

end TagEdit

namespace ChannelDb

variable (jsonArray : String → Option (List String)) {db : ChannelDb}

def EditKeeps (db : ChannelDb) (tag : String) (e : TagEdit) : Prop :=
  if e.shouldReCreateAbilities then
    ∀ row ∈ db.channels, row.tag = some tag ∨ row.tag = some (e.updatedTag tag) →
      (e.applied tag row).Distinguishable
  else e.weight = some 0 → ∀ row ∈ db.channels, row.tag = some tag → row.getWeight = 0

section

variable (h : db.Consistent) (tag : String)

include h

theorem editChannelByTag_rebuilt_iff {e : TagEdit} (hcreate : e.shouldReCreateAbilities = true) :
    (db.editChannelByTag tag e).Consistent ↔
      ∀ row ∈ db.channels, row.tag = some tag ∨ row.tag = some (e.updatedTag tag) →
        (e.applied tag row).Distinguishable := by
  unfold editChannelByTag
  rw [if_pos hcreate]
  have hite : ∀ row : Channel, (if decide (row.tag = some tag) = true then
      row.updates (e.updateData tag) else row) = e.applied tag row := fun row => by
    simp [TagEdit.applied]
  have hbuilt : ((db.channels.updateWhere (fun row => row.tag = some tag)
      (fun row => row.updates (e.updateData tag)) fun _ => rfl).filter
        fun row => row.tag = some (e.updatedTag tag)).rows =
      (db.channels.filter fun row =>
        (e.applied tag row).tag = some (e.updatedTag tag)).rows.map (e.applied tag) := by
    simp only [Table.filter, Table.updateWhere, hite, filter_map]
    rfl
  have hr : ∀ row ∈ db.channels, decide (row.tag = some tag) = true →
      decide ((e.applied tag row).tag = some (e.updatedTag tag)) = true := by
    intro row _ htag
    exact decide_eq_true ((e.applied_tag_iff tag row).mpr (.inl (of_decide_eq_true htag)))
  refine (consistent_rebuilt_iff h (e.applied tag) (e.applied_id tag) hbuilt hr).trans ?_
  refine forall_congr' fun row => imp_congr_right fun _ => ?_
  rw [hite, decide_eq_true_eq, e.applied_tag_iff, and_iff_left rfl, Channel.mem_distinctPairs_iff]

theorem editChannelByTag_updated_iff {e : TagEdit} (hcreate : ¬ e.shouldReCreateAbilities = true) :
    (db.editChannelByTag tag e).Consistent ↔
      (e.weight = some 0 → ∀ row ∈ db.channels, row.tag = some tag → row.getWeight = 0) := by
  unfold editChannelByTag
  rw [if_neg hcreate]
  refine (consistent_updated_iff
    (fun row => if row.tag = some tag then e.shown row else row) ?_ ?_ ?_).trans ?_
  · exact fun row _ _ => e.pairs_updates tag row hcreate
  · intro row hrow
    refine h.carries_of_updated hrow ?_ ?_
    · split <;> rfl
    · intro x
      by_cases htag : row.tag = some tag
      · simp [Channel.ability, TagEdit.shown, htag, Channel.getPriority, Channel.getWeight]
      · simp [Channel.ability, htag]
  · exact fun a ha => h.exists_channel_of_updated ha
  · constructor
    · intro hall hzero row hrow htag
      have hcolumns := hall row hrow
      rw [if_pos htag, if_pos (decide_eq_true htag)] at hcolumns
      exact (e.shown_columns_iff htag).mp hcolumns hzero
    · intro hall row hrow
      split
      · rename_i htag
        rw [if_pos (decide_eq_true htag)]
        exact (e.shown_columns_iff htag).mpr fun hzero => hall hzero row hrow htag
      · rename_i htag
        rw [if_neg (by simpa using htag)]

theorem editChannelByTag_keeps_iff (e : TagEdit) :
    (db.editChannelByTag tag e).Consistent ↔ db.EditKeeps tag e := by
  unfold EditKeeps
  split
  · rename_i hcreate
    exact editChannelByTag_rebuilt_iff h tag hcreate
  · rename_i hcreate
    exact editChannelByTag_updated_iff h tag hcreate

end

def SetTagKeeps (db : ChannelDb) (ids : List Int) (tag : Option String) : Prop :=
  ∀ row ∈ db.channels, row.id ∈ ids → row.tag = tag ∧ row.Distinguishable

/-- **`BatchSetChannelTag`** keeps the view iff it changes no tag, and the pairs are told apart. -/
theorem batchSetChannelTag_keeps_iff (h : db.Consistent) (ids : List Int) (tag : Option String) :
    (db.batchSetChannelTag ids tag).Consistent ↔ db.SetTagKeeps ids tag := by
  have hbuilt : (db.channels.filter fun row => row.id ∈ ids).rows =
      (db.channels.filter fun row => row.id ∈ ids).rows.map id := (map_id _).symm
  refine (consistent_rebuilt_iff h id (fun _ => rfl) hbuilt fun _ _ hp => hp).trans ?_
  refine forall_congr' fun row => imp_congr_right fun _ => ?_
  simp only [decide_eq_true_eq]
  refine imp_congr_right fun hid => ?_
  rw [if_pos hid]
  have hpairs : (∀ x, x ∈ (id row).distinctPairs ↔ x ∈ Channel.pairs { row with tag }) ↔
      row.Distinguishable := row.mem_distinctPairs_iff
  have hcolumns : (id row).columns = Channel.columns { row with tag } ↔ row.tag = tag := by
    simp [Channel.columns, Channel.getPriority, Channel.getWeight]
  rw [hpairs, hcolumns, and_comm]

/-! ### Deletions -/

theorem delete_keeps (h : db.Consistent) (id : Int) : ((db.delete id).getD db).Consistent := by
  unfold delete
  split
  · exact h
  · exact consistent_deleteIds h [id]

theorem batchDeleteChannels_keeps (h : db.Consistent) (ids : List Int) :
    (db.batchDeleteChannels ids).Consistent := by
  have hrun : (run deleteIds db (chunks 200 ids)).Consistent :=
    run_induction (I := Consistent) (fun _ ids h => consistent_deleteIds h ids) h _
  exact hrun

/-! ### Runs -/

/-- **The condition under which an operation keeps the view.** -/
def Keeps (db : ChannelDb) : ChannelOp → Prop
  | .insert c => db.channels.find? c.row.id = none → c.row.Distinguishable
  | .batchInsert cs => ((db.channels.rows ++ cs.map row).map Channel.id).Nodup →
      ∀ c ∈ cs, c.row.Distinguishable
  | .update channel => db.UpdateKeeps channel
  | .updateStatus cached channelId usingKey status _ _ =>
    db.StatusKeeps jsonArray cached channelId usingKey status
  | .editByTag tag e => db.EditKeeps tag e
  | .batchSetTag ids tag => db.SetTagKeeps ids tag
  | .enableByTag _ | .disableByTag _ | .delete _ | .batchDelete _ => True

def Numbered (db : ChannelDb) : Prop := ∀ ch ∈ db.channels, ch.id ≠ 0

section

variable (h : db.Numbered)

include h

theorem numbered_updateWhere {p : Channel → Bool} {f : Channel → Channel}
    {hf : ∀ ch, (f ch).id = ch.id} {t : Table Ability Ability.key} :
    Numbered ⟨db.channels.updateWhere p f hf, t⟩ := by
  intro ch hch
  change ch ∈ db.channels.updateWhere p f hf at hch
  obtain ⟨row, hrow, rfl⟩ := mem_updateWhere.mp hch
  rw [id_updated p hf]
  exact h row hrow

theorem numbered_insertChunk (cs : List NewChannel) : ((db.insertChunk cs).getD db).Numbered := by
  rw [insertChunk]
  cases hcreate : create db.channels cs with
  | none => exact h
  | some channels =>
    intro ch hch
    rw [Option.map_some, Option.getD_some, Table.mem_iff, rows_create hcreate, mem_append] at hch
    rcases hch with hch | hch
    · exact h ch hch
    · obtain ⟨c, -, rfl⟩ := mem_map.mp hch
      exact c.row_id_ne_zero

theorem numbered_deleteIds (ids : List Int) : (db.deleteIds ids).Numbered :=
  fun ch hch => h ch (Table.mem_filter.mp hch).1

theorem numbered_updateChannelStatus (cached : CachedChannel) (channelId : Int) (usingKey : String)
    (status : Int) (reason : String) (now : Int) :
    (db.updateChannelStatus jsonArray cached channelId usingKey status reason now).2.Numbered := by
  unfold updateChannelStatus
  split
  · exact h
  · split
    · exact h
    · split
      · exact h
      · simp only
        split
        · exact h
        · rename_i channels hsave
          unfold saveWithoutKey at hsave
          split at hsave
          · cases hsave
          · cases hsave
            exact numbered_updateWhere h

theorem step_numbered (op : ChannelOp) : (db.step jsonArray op).Numbered := by
  cases op with
  | insert c =>
    rw [step, insert_eq_insertChunk]
    exact numbered_insertChunk h [c]
  | batchInsert cs =>
    rw [step, batchInsertChannels, foldlM_insertChunk]
    exact numbered_insertChunk h _
  | update channel =>
    simp only [step, update]
    split
    · exact h
    · exact numbered_updateWhere h
  | updateStatus cached channelId usingKey status reason now =>
    exact numbered_updateChannelStatus jsonArray h cached channelId usingKey status reason now
  | enableByTag tag => exact numbered_updateWhere h
  | disableByTag tag => exact numbered_updateWhere h
  | editByTag tag e =>
    simp only [step, editChannelByTag]
    split <;> exact numbered_updateWhere h
  | batchSetTag ids tag => exact numbered_updateWhere h
  | delete id =>
    simp only [step, delete]
    split
    · exact h
    · exact numbered_deleteIds h [id]
  | batchDelete ids =>
    have hrun : (run deleteIds db (chunks 200 ids)).Numbered :=
      run_induction (I := Numbered) (fun _ ids h => numbered_deleteIds h ids) h _
    exact hrun

end

theorem step_consistent_iff (hnumbered : db.Numbered) (h : db.Consistent) (op : ChannelOp) :
    (db.step jsonArray op).Consistent ↔ db.Keeps jsonArray op := by
  cases op with
  | insert c => exact insert_keeps_iff h c
  | batchInsert cs => exact batchInsertChannels_keeps_iff h cs
  | update channel => exact update_keeps_iff jsonArray h channel
  | updateStatus cached channelId usingKey status reason now =>
    exact updateChannelStatus_keeps_iff jsonArray h hnumbered cached channelId usingKey status
      reason now
  | enableByTag tag => exact iff_of_true (setStatusByTag_keeps h tag _) trivial
  | disableByTag tag => exact iff_of_true (setStatusByTag_keeps h tag _) trivial
  | editByTag tag e => exact editChannelByTag_keeps_iff h tag e
  | batchSetTag ids tag => exact batchSetChannelTag_keeps_iff h ids tag
  | delete id => exact iff_of_true (delete_keeps h id) trivial
  | batchDelete ids => exact iff_of_true (batchDeleteChannels_keeps h ids) trivial

/-- **The abilities are the view of the channels** in every state of a run iff every operation meets
its condition. -/
theorem abilities_view_iff (ops : List ChannelOp) : Always Consistent (step jsonArray) empty ops ↔
      AllSteps (Keeps jsonArray) (step jsonArray) empty ops := by
  have hnumbered : empty.Numbered := fun ch hch => by cases hch
  refine always_iff_allSteps (A := fun _ _ => True) ?_ ?_ hnumbered consistent_empty
    (allSteps_of_forall (fun _ _ => trivial) _ ops)
  · exact fun db op hnumbered h _ => step_consistent_iff jsonArray hnumbered h op
  · exact fun db op hnumbered _ _ _ => step_numbered jsonArray hnumbered op

def weightZeroRun : List ChannelOp :=
  [.insert (.first { models := "gpt-4", weight := some 5, tag := some "a" }),
    .editByTag "a" { weight := some 0 }]

/-- **The row keeps the old weight**: the channel has weight `0`. -/
theorem weight_zero_not_written : ¬ (run (step fun _ => none) empty weightZeroRun).Consistent := by
  intro h
  have hrow : (⟨"default", "gpt-4", 1, true, 0, 0, some "a"⟩ : Ability) ∉
      (run (step fun _ => none) empty weightZeroRun).abilities := by decide +kernel
  refine hrow ((h _).mpr ?_)
  have hchannel : ∃ ch ∈ (run (step fun _ => none) empty weightZeroRun).channels.rows,
      ch.Provides ⟨"default", "gpt-4", 1, true, 0, 0, some "a"⟩ := by decide +kernel
  exact hchannel

end ChannelDb

end NomoApi
