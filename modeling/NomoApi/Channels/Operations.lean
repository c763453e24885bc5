import NomoApi.Channels.Channel

/-! # The operations on channels

The operations on the tables `channels` and `abilities` (`model/channel.go`, `model/ability.go`).
Statements succeed, apart from an `INSERT` with an id that is taken and a statement on a struct
without an id, which change nothing. -/

namespace NomoApi

open List ChannelStatus

structure ChannelDb where
  channels : Table Channel Channel.id
  abilities : Table Ability Ability.key

namespace ChannelDb

def empty : ChannelDb := ⟨.empty, .empty⟩

end ChannelDb

/-! ### The rows of a channel -/

namespace Channel

variable (ch : Channel) (t : Table Ability Ability.key)

/-- Rows whose key is taken are left out. -/
def addAbilities : Table Ability Ability.key :=
  (chunks 50 ch.abilities).foldl (fun t chunk => chunk.foldl Table.insertIgnore t) t

def updateAbilities : Table Ability Ability.key :=
  ch.addAbilities (t.filter fun a => a.channelId ≠ ch.id)

def updateAllAbilities (chs : List Channel) (t : Table Ability Ability.key) :
    Table Ability Ability.key := chs.foldl (fun t ch => ch.updateAbilities t) t

theorem updateAllAbilities_singleton : updateAllAbilities [ch] t = ch.updateAbilities t := by
  rw [updateAllAbilities, foldl_cons, foldl_nil]

variable {ch : Channel} {t : Table Ability Ability.key}

theorem rows_addAbilities (h : ∀ a ∈ t, a.channelId ≠ ch.id) :
    (ch.addAbilities t).rows = t.rows ++ ch.abilities := by
  rw [addAbilities, ← foldl_flatten, flatten_chunks (by omega)]
  apply Table.rows_foldl_insertIgnore
  rw [map_append, nodup_append]
  refine ⟨t.nodup, ch.nodup_abilities, ?_⟩
  intro k hk k' hk' heq
  obtain ⟨a, ha, rfl⟩ := mem_map.mp hk
  obtain ⟨b, hb, rfl⟩ := mem_map.mp hk'
  have hid : a.channelId = b.channelId := congrArg (fun k => k.2.2) heq
  exact h a ha (hid.trans (channelId_of_mem_abilities hb))

variable {a : Ability}

theorem mem_addAbilities (h : ∀ a ∈ t, a.channelId ≠ ch.id) :
    a ∈ ch.addAbilities t ↔ a ∈ t ∨ a ∈ ch.abilities := by
  rw [Table.mem_iff, rows_addAbilities h, mem_append, Table.mem_iff]

theorem mem_updateAbilities :
    a ∈ ch.updateAbilities t ↔ (a ∈ t ∧ a.channelId ≠ ch.id) ∨ a ∈ ch.abilities := by
  rw [updateAbilities, mem_addAbilities, Table.mem_filter]
  · simp
  · intro b hb
    simpa using (Table.mem_filter.mp hb).2

theorem mem_updateAllAbilities {chs : List Channel} (hids : (chs.map Channel.id).Nodup) :
    a ∈ updateAllAbilities chs t ↔
      (a ∈ t ∧ ∀ ch ∈ chs, a.channelId ≠ ch.id) ∨ ∃ ch ∈ chs, a ∈ ch.abilities := by
  induction chs generalizing t with
  | nil => simp [updateAllAbilities]
  | cons ch chs ih =>
    rw [map_cons, nodup_cons] at hids
    have hother : a ∈ ch.abilities → ∀ ch' ∈ chs, a.channelId ≠ ch'.id := by
      intro ha ch' hch' hid
      refine hids.1 (mem_map.mpr ⟨ch', hch', ?_⟩)
      rw [← hid, channelId_of_mem_abilities ha]
    have hrest : a ∈ updateAllAbilities (ch :: chs) t ↔
        a ∈ updateAllAbilities chs (ch.updateAbilities t) := Iff.rfl
    rw [hrest, ih hids.2, mem_updateAbilities, forall_mem_cons, exists_mem_cons_iff,
      or_and_right, and_iff_left_of_imp hother, and_assoc, or_assoc]

theorem mem_foldl_addAbilities {chs : List Channel} (hids : (chs.map Channel.id).Nodup)
    (hfree : ∀ a ∈ t, ∀ ch ∈ chs, a.channelId ≠ ch.id) :
    a ∈ chs.foldl (fun t ch => ch.addAbilities t) t ↔ a ∈ t ∨ ∃ ch ∈ chs, a ∈ ch.abilities := by
  induction chs generalizing t with
  | nil => simp
  | cons ch chs ih =>
    rw [map_cons, nodup_cons] at hids
    have hfree' : ∀ b ∈ t, b.channelId ≠ ch.id :=
      fun b hb => hfree b hb ch mem_cons_self
    rw [foldl_cons, ih hids.2, mem_addAbilities hfree']
    · simp only [exists_mem_cons_iff, or_assoc]
    · intro b hb ch' hch'
      rcases (mem_addAbilities hfree').mp hb with hb | hb
      · exact hfree b hb ch' (mem_cons_of_mem _ hch')
      · intro hid
        refine hids.1 (mem_map.mpr ⟨ch', hch', ?_⟩)
        rw [← hid, channelId_of_mem_abilities hb]

/-! ### Updates of columns -/

/-- **gorm's `Updates` by a struct**: the fields that are not zero are written. -/
def updates (row values : Channel) : Channel where
  id := row.id
  key := if values.key = "" then row.key else values.key
  status := if values.status = unknown then row.status else values.status
  models := if values.models = "" then row.models else values.models
  group := if values.group = "" then row.group else values.group
  priority := values.priority.or row.priority
  weight := values.weight.or row.weight
  tag := values.tag.or row.tag
  channelInfo := if values.channelInfo = {} then row.channelInfo else values.channelInfo
  others := values.others ++ row.others.filter fun c => c.1 ∉ values.others.map Prod.fst

theorem id_with_status (status : Int) (ch : Channel) : ({ ch with status } : Channel).id = ch.id :=
  rfl

def hasValues : Bool := decide ({ ch with id := 0 } ≠ ({} : Channel))

end Channel

def updateAbilityStatus (channelId : Int) (status : Bool) (t : Table Ability Ability.key) :
    Table Ability Ability.key :=
  t.updateWhere (fun a => a.channelId = channelId) (fun a => { a with enabled := status })
    fun _ => rfl

def updateAbilityStatusByTag (tag : String) (status : Bool) (t : Table Ability Ability.key) :
    Table Ability Ability.key :=
  t.updateWhere (fun a => a.tag = some tag) (fun a => { a with enabled := status }) fun _ => rfl

/-- A weight `0` is not written. -/
def updateAbilityByTag (tag : String) (newTag : Option String) (priority : Option Int)
    (weight : Option Nat) (t : Table Ability Ability.key) : Table Ability Ability.key :=
  t.updateWhere (fun a => a.tag = some tag)
    (fun a =>
      { a with
        tag := newTag.or a.tag
        priority := priority.getD a.priority
        weight := if weight.getD 0 = 0 then a.weight else weight.getD 0 })
    fun _ => rfl

/-! ### The operations -/

structure NewChannel where
  channel : Channel
  assigned : Int
  assigned_ne_zero : assigned ≠ 0

/-- **The row that is created**: defaults in the place of zero values. -/
def NewChannel.row (c : NewChannel) : Channel :=
  { c.channel with
    id := if c.channel.id = 0 then c.assigned else c.channel.id
    status := if c.channel.status = unknown then enabled
      else c.channel.status
    group := if c.channel.group = "" then "default" else c.channel.group
    priority := some c.channel.getPriority
    weight := some c.channel.getWeight }

def NewChannel.first (channel : Channel) : NewChannel := ⟨channel, 1, by decide⟩

def NewChannel.second (channel : Channel) : NewChannel := ⟨channel, 2, by decide⟩

theorem NewChannel.row_id_ne_zero (c : NewChannel) : c.row.id ≠ 0 := by
  unfold NewChannel.row
  simp only
  split
  · exact c.assigned_ne_zero
  · assumption

structure TagEdit where
  newTag : Option String := none
  modelMapping : Option String := none
  models : Option String := none
  group : Option String := none
  priority : Option Int := none
  weight : Option Nat := none
  paramOverride : Option String := none
  headerOverride : Option String := none

namespace TagEdit

def updatedTag (e : TagEdit) (tag : String) : String := e.newTag.getD tag

def shouldReCreateAbilities (e : TagEdit) : Bool := e.models.any (· ≠ "") || e.group.any (· ≠ "")

def updateData (e : TagEdit) (tag : String) : Channel where
  tag := e.newTag.filter (· ≠ tag)
  models := e.models.getD ""
  group := e.group.getD ""
  priority := e.priority
  weight := e.weight
  others :=
    ((e.modelMapping.filter (· ≠ "")).toList.map fun v => ("model_mapping", v)) ++
      (e.paramOverride.toList.map fun v => ("param_override", v)) ++
      (e.headerOverride.toList.map fun v => ("header_override", v))

end TagEdit

/-- What `UpdateChannelStatus` finds in the memory cache. -/
inductive CachedChannel
  | off
  | absent
  | present (channel : Channel)

/-- `UpdateChannelStatus` ends at the cache: no such channel, or one key and its status already. -/
def CachedChannel.stops (cached : CachedChannel) (status : Int) : Bool :=
  match cached with
  | .off => false
  | .absent => true
  | .present channel => !channel.channelInfo.isMultiKey && channel.status = status

namespace ChannelDb

variable (jsonArray : String → Option (List String)) (db : ChannelDb)

def insert (c : NewChannel) : Option ChannelDb :=
  (db.channels.insert? c.row).map fun channels => ⟨channels, c.row.addAbilities db.abilities⟩

def create (t : Table Channel Channel.id) (cs : List NewChannel) :
    Option (Table Channel Channel.id) := cs.foldlM (fun t c => t.insert? c.row) t

def insertChunk (chunk : List NewChannel) : Option ChannelDb :=
  (create db.channels chunk).map fun channels =>
    ⟨channels, (chunk.map NewChannel.row).foldl (fun t ch => ch.addAbilities t) db.abilities⟩

def batchInsertChannels (cs : List NewChannel) : Option ChannelDb :=
  (chunks 50 cs).foldlM insertChunk db

def keyCount (key : String) : Nat :=
  if key = "" then 0
  else
    -- A text that is not a JSON array after all is split into lines.
    let keys := if hasPrefix (trimSpace key) "[" then (jsonArray (trimSpace key)).getD [] else []
    if keys = [] then (split (trimOf '\n' key) '\n').length else keys.length

def fixMultiKey (ch : Channel) : Channel :=
  if ch.channelInfo.isMultiKey then
    let keyStr :=
      if ch.key = "" then ((db.channels.find? ch.id).map Channel.key).getD "" else ch.key
    let size := keyCount jsonArray keyStr
    { ch with
      channelInfo :=
        { ch.channelInfo with
          multiKeySize := size
          multiKeyStatusList := ch.channelInfo.multiKeyStatusList.map fun list =>
            list.filter fun entry => entry.1 < size } }
  else ch

/-- The non-zero fields are written, the row is read back and its rows are built. -/
def writeUpdate (ch : Channel) : ChannelDb :=
  let channels :=
    db.channels.updateWhere (fun row => row.id = ch.id) (fun row => row.updates ch) fun _ => rfl
  let written := (channels.find? ch.id).getD ch
  ⟨channels, written.updateAbilities db.abilities⟩

def update (channel : Channel) : Option ChannelDb :=
  let ch := db.fixMultiKey jsonArray channel
  if ch.id = 0 ∧ ch.hasValues then none else some (db.writeUpdate ch)

def writeWithoutKey (t : Table Channel Channel.id) (ch : Channel) : Table Channel Channel.id :=
  t.updateWhere (fun row => row.id = ch.id) (fun row => { ch with id := row.id, key := row.key })
    fun _ => rfl

def saveWithoutKey (t : Table Channel Channel.id) (ch : Channel) :
    Option (Table Channel Channel.id) :=
  if ch.id = 0 then none else some (writeWithoutKey t ch)

def withStatus (ch : Channel) (usingKey : String) (status : Int) (reason : String) (now : Int) :
    Channel :=
  if ch.channelInfo.isMultiKey then ch.handlerMultiKeyUpdate jsonArray usingKey status reason now
  else { ch with status := status }

/-- The abilities are updated also when the channel was not saved. -/
def updateChannelStatus (cached : CachedChannel) (channelId : Int)
    (usingKey : String) (status : Int) (reason : String) (now : Int) : Bool × ChannelDb :=
  if cached.stops status then (false, db)
  else
    match db.channels.find? channelId with
    | none => (false, db)
    | some channel =>
      if channel.status = status then (false, db)
      else
        let channel' := withStatus jsonArray channel usingKey status reason now
        let shouldUpdateAbilities :=
          !channel.channelInfo.isMultiKey || channel.status ≠ channel'.status
        -- The rows follow the status that was asked for, not the one that the channel has got.
        let abilities :=
          if shouldUpdateAbilities then
            updateAbilityStatus channelId (status = enabled) db.abilities
          else db.abilities
        match saveWithoutKey db.channels channel' with
        | none => (false, { db with abilities })
        | some channels => (true, { channels, abilities })

def setStatusByTag (tag : String) (status : Int) : ChannelDb where
  channels :=
    db.channels.updateWhere (fun row => row.tag = some tag) (fun row => { row with status })
      (Channel.id_with_status status)
  abilities := updateAbilityStatusByTag tag (status = enabled) db.abilities

def enableChannelByTag (tag : String) : ChannelDb :=
  db.setStatusByTag tag enabled

def disableChannelByTag (tag : String) : ChannelDb :=
  db.setStatusByTag tag manuallyDisabled

def editChannelByTag (tag : String) (e : TagEdit) : ChannelDb :=
  let channels :=
    db.channels.updateWhere (fun row => row.tag = some tag)
      (fun row => row.updates (e.updateData tag)) fun _ => rfl
  if e.shouldReCreateAbilities then
    -- These are also the channels that had the new tag before.
    let tagged := channels.filter fun row => row.tag = some (e.updatedTag tag)
    ⟨channels, Channel.updateAllAbilities tagged.rows db.abilities⟩
  else ⟨channels, updateAbilityByTag tag e.newTag e.priority e.weight db.abilities⟩

/-- The channels are read outside of the transaction that sets their tag. -/
def batchSetChannelTag (ids : List Int) (tag : Option String) : ChannelDb where
  channels :=
    db.channels.updateWhere (fun row => row.id ∈ ids) (fun row => { row with tag }) fun _ => rfl
  abilities :=
    Channel.updateAllAbilities (db.channels.filter fun row => row.id ∈ ids).rows db.abilities

def deleteIds (ids : List Int) : ChannelDb where
  channels := db.channels.filter fun row => row.id ∉ ids
  abilities := db.abilities.filter fun a => a.channelId ∉ ids

def delete (id : Int) : Option ChannelDb :=
  if id = 0 then none else some (db.deleteIds [id])

def batchDeleteChannels (ids : List Int) : ChannelDb :=
  (chunks 200 ids).foldl deleteIds db

end ChannelDb

/-- **An operation on channels**, with what it finds outside of the two tables. -/
inductive ChannelOp
  | insert (c : NewChannel)
  | batchInsert (cs : List NewChannel)
  | update (channel : Channel)
  | updateStatus (cached : CachedChannel) (channelId : Int) (usingKey : String) (status : Int)
      (reason : String) (now : Int)
  | enableByTag (tag : String)
  | disableByTag (tag : String)
  | editByTag (tag : String) (e : TagEdit)
  | batchSetTag (ids : List Int) (tag : Option String)
  | delete (id : Int)
  | batchDelete (ids : List Int)

def ChannelDb.step (jsonArray : String → Option (List String)) (db : ChannelDb) :
    ChannelOp → ChannelDb
  | .insert c => (db.insert c).getD db
  | .batchInsert cs => (db.batchInsertChannels cs).getD db
  | .update channel => (db.update jsonArray channel).getD db
  | .updateStatus cached channelId usingKey status reason now =>
    (db.updateChannelStatus jsonArray cached channelId usingKey status reason now).2
  | .enableByTag tag => db.enableChannelByTag tag
  | .disableByTag tag => db.disableChannelByTag tag
  | .editByTag tag e => db.editChannelByTag tag e
  | .batchSetTag ids tag => db.batchSetChannelTag ids tag
  | .delete id => (db.delete id).getD db
  | .batchDelete ids => db.batchDeleteChannels ids

end NomoApi
