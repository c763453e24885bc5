import NomoApi.Channels.ManageKeys

/-! # Deleting keys

`delete_key` deletes one key, `delete_disabled_keys` all that were disabled automatically. The keys
that are kept are written as lines, whatever the form of the key text was. An empty text is not
written at all: a channel whose keys are all deleted keeps them, without their statuses. And
`delete_disabled_keys` forgets since when and why a key was disabled that is enabled again. -/

namespace NomoApi

open List ChannelStatus Channel ChannelInfo ChannelDb

/-! ### The loop over the keys -/

def KeptKeys.info (kept : KeptKeys) : ChannelInfo where
  multiKeyStatusList := some kept.statusList
  multiKeyDisabledTime := some kept.disabledTime
  multiKeyDisabledReason := some kept.disabledReason

def KeptKeys.records (kept : KeptKeys) : List KeyRecord := kept.keys.zipIdx.map kept.info.record

/-- Nothing is recorded for the keys to come. -/
structure KeptKeys.Fresh (kept : KeptKeys) : Prop where
  status : ∀ j : Nat, kept.keys.length ≤ j → kept.statusList.find? j = none
  time : ∀ j : Nat, kept.keys.length ≤ j → kept.disabledTime.find? j = none
  reason : ∀ j : Nat, kept.keys.length ≤ j → kept.disabledReason.find? j = none

theorem ChannelInfo.record_congr {info info' : ChannelInfo} {p : String × Nat}
    (hentry : info.entry p.2 = info'.entry p.2) (htime : info.keyTime p.2 = info'.keyTime p.2)
    (hreason : info.keyReason p.2 = info'.keyReason p.2) : info.record p = info'.record p := by
  unfold record keyStatus
  rw [hentry, htime, hreason]

/-- **What a loop keeps of a key**: the time and the reason only where it copies them. -/
def ChannelInfo.keptRecord (info : ChannelInfo) (copies : Nat → Bool) (p : String × Nat) :
    KeyRecord where
  key := p.1
  status := info.keyStatus p.2
  disabledTime := if copies p.2 then info.keyTime p.2 else none
  reason := if copies p.2 then info.keyReason p.2 else none

theorem ChannelInfo.keptRecord_eq_record_iff (info : ChannelInfo) (copies : Nat → Bool)
    (p : String × Nat) : info.keptRecord copies p = info.record p ↔
      (copies p.2 = false → (info.record p).disabledTime = none ∧
        (info.record p).reason = none) := by
  unfold keptRecord record
  cases copies p.2 with
  | true => simp
  | false => simp [eq_comm]

theorem find?_copyEntry_self {α : Type} {m : IndexMap α} {n : Nat} (hfree : m.find? n = none)
    (copies : Bool) (o : Option α) :
    ((if copies then copyEntry m n o else m).find? n).map Prod.snd =
      if copies then o else none := by
  split
  · cases o with
    | none => rw [copyEntry, hfree, Option.map_none]
    | some v => rw [copyEntry, Table.find?_put, if_pos rfl, Option.map_some]
  · rw [hfree, Option.map_none]

theorem find?_copyEntry_of_ne {α : Type} {m : IndexMap α} {newIndex : Nat} {o : Option α}
    {idx : Int} (h : idx ≠ newIndex) : (copyEntry m newIndex o).find? idx = m.find? idx := by
  cases o with
  | none => rfl
  | some v => rw [copyEntry, Table.find?_put, if_neg h]

section Add

variable {kept : KeptKeys} {info : ChannelInfo} {copies : Bool} {key : String} {i : Nat}

theorem KeptKeys.find?_add_of_ne {j : Nat} (hj : j ≠ kept.keys.length) :
    (kept.add info copies key i).statusList.find? j = kept.statusList.find? j ∧
      (kept.add info copies key i).disabledTime.find? j = kept.disabledTime.find? j ∧
      (kept.add info copies key i).disabledReason.find? j = kept.disabledReason.find? j := by
  have hj' : (j : Int) ≠ (kept.keys.length : Nat) := fun h => hj (Int.ofNat.inj h)
  unfold add
  refine ⟨?_, ?_, ?_⟩ <;> dsimp only <;> split
  · rfl
  · rw [Table.find?_put, if_neg hj']
  · exact find?_copyEntry_of_ne hj'
  · rfl
  · exact find?_copyEntry_of_ne hj'
  · rfl

section

variable (h : kept.Fresh)

include h

theorem KeptKeys.Fresh.add : (kept.add info copies key i).Fresh := by
  have hlen : (kept.add info copies key i).keys.length = kept.keys.length + 1 := by
    simp [KeptKeys.add]
  refine ⟨fun j hj => ?_, fun j hj => ?_, fun j hj => ?_⟩
  · rw [(find?_add_of_ne (by omega)).1]
    exact h.status j (by omega)
  · rw [(find?_add_of_ne (by omega)).2.1]
    exact h.time j (by omega)
  · rw [(find?_add_of_ne (by omega)).2.2]
    exact h.reason j (by omega)

theorem KeptKeys.entry_add_self :
    (kept.add info copies key i).info.entry (kept.keys.length : Nat) =
      if info.keyStatus i = enabled then none else some (info.keyStatus i) := by
  have hlist : (kept.add info copies key i).info.multiKeyStatusList.getD .empty =
      if info.keyStatus i = enabled then kept.statusList
      else kept.statusList.put ((kept.keys.length : Nat), info.keyStatus i) := rfl
  rw [entry, hlist]
  by_cases henabled : info.keyStatus i = enabled
  · rw [if_pos henabled, if_pos henabled, h.status _ le_rfl, Option.map_none]
  · rw [if_neg henabled, if_neg henabled, Table.find?_put, if_pos rfl, Option.map_some]

theorem KeptKeys.keyTime_add_self :
    (kept.add info copies key i).info.keyTime (kept.keys.length : Nat) =
      if copies then info.keyTime i else none :=
  find?_copyEntry_self (h.time _ le_rfl) copies _

theorem KeptKeys.keyReason_add_self :
    (kept.add info copies key i).info.keyReason (kept.keys.length : Nat) =
      if copies then info.keyReason i else none :=
  find?_copyEntry_self (h.reason _ le_rfl) copies _

theorem KeptKeys.keyStatus_add_self :
    (kept.add info copies key i).info.keyStatus (kept.keys.length : Nat) = info.keyStatus i := by
  rw [ChannelInfo.keyStatus, entry_add_self h]
  split
  · rename_i henabled
    rw [Option.getD_none, henabled]
  · rfl

theorem KeptKeys.records_add {copies : Nat → Bool} : (kept.add info (copies i) key i).records =
    kept.records ++ [info.keptRecord copies (key, i)] := by
  have hkeys : (kept.add info (copies i) key i).keys.zipIdx =
      kept.keys.zipIdx ++ [(key, kept.keys.length)] := by
    have hadd : (kept.add info (copies i) key i).keys = kept.keys ++ [key] := rfl
    rw [hadd, zipIdx_append]
    simp
  have hself : (kept.add info (copies i) key i).info.record (key, kept.keys.length) =
      info.keptRecord copies (key, i) := by
    unfold record keptRecord
    rw [keyStatus_add_self h, keyTime_add_self h, keyReason_add_self h]
  rw [records, hkeys, map_append, map_singleton, records, hself]
  congr 1
  refine map_congr_left fun p hp => ?_
  have hlt : p.2 < kept.keys.length := by
    have := snd_lt_of_mem_zipIdx hp
    omega
  obtain ⟨hstatus, htime, hreason⟩ :=
    @find?_add_of_ne kept info (copies i) key i p.2 (Nat.ne_of_lt hlt)
  exact record_congr (congrArg (Option.map Prod.snd) hstatus)
    (congrArg (Option.map Prod.snd) htime) (congrArg (Option.map Prod.snd) hreason)

end

end Add

section

variable {info : ChannelInfo} {keep copies : Nat → Bool}

theorem records_foldl_add (l : List (String × Nat)) {kept : KeptKeys} (h : kept.Fresh) :
    (l.foldl (fun kept p => if keep p.2 then kept.add info (copies p.2) p.1 p.2 else kept)
        kept).records =
      kept.records ++ (l.filter fun p => keep p.2).map (info.keptRecord copies) := by
  induction l generalizing kept with
  | nil => simp
  | cons p l ih =>
    rw [foldl_cons, filter_cons]
    by_cases hkeep : keep p.2 = true
    · rw [if_pos hkeep, if_pos hkeep, ih h.add, KeptKeys.records_add h,
        map_cons, append_assoc, singleton_append]
    · rw [if_neg hkeep, if_neg hkeep, ih h]

theorem records_keepKeys (keys : List String) : (info.keepKeys keep copies keys).records =
      (keys.zipIdx.filter fun p => keep p.2).map (info.keptRecord copies) := by
  have hfresh : (({} : KeptKeys)).Fresh := ⟨fun _ _ => rfl, fun _ _ => rfl, fun _ _ => rfl⟩
  rw [keepKeys, records_foldl_add _ hfresh]
  rfl

end

/-! ### The deletions -/

inductive KeyDeletion
  | key (keyIndex : Int)
  | disabled

open KeyDeletion

namespace KeyDeletion

def action : KeyDeletion → KeyAction
  | .key keyIndex => .deleteKey (some keyIndex)
  | .disabled => .deleteDisabledKeys

/-- **The keys that a deletion is to leave**, each as it was stored. -/
def remaining (records : List KeyRecord) : KeyDeletion → List KeyRecord
  | .key keyIndex => records.eraseIdx keyIndex.toNat
  | .disabled => records.filter fun r => r.status ≠ autoDisabled

section

variable (jsonArray : String → Option (List String)) (ch : Channel)

def kept : KeyDeletion → KeptKeys
  | .key keyIndex => ch.keptByIndex jsonArray keyIndex
  | .disabled => ch.keptByStatus jsonArray

def remainingKeys (d : KeyDeletion) : List String :=
  (d.remaining (ch.keyRecords jsonArray)).map KeyRecord.key

/-- **The deletion is carried out**: another key is left, or some key was disabled automatically. -/
def Accepted (d : KeyDeletion) : Prop :=
  match d with
  | .key keyIndex =>
    0 ≤ keyIndex ∧ keyIndex < ch.channelInfo.multiKeySize ∧ d.remainingKeys jsonArray ch ≠ []
  | .disabled => ∃ r ∈ ch.keyRecords jsonArray, r.status = autoDisabled

/-- **The keys that are left can be read back** from their lines: no line break in a key, the first
and the last one not empty, and no other reading as a JSON array. -/
def ReadBack (d : KeyDeletion) : Prop :=
  let keys := d.remainingKeys jsonArray ch
  if join keys '\n' = "" then keys = ch.getKeys jsonArray
  else
    (∀ entries ∈ Channel.arrayOf jsonArray (join keys '\n'), entries = keys) ∧
      (Channel.arrayOf jsonArray (join keys '\n') = none →
        (∀ key ∈ keys, '\n' ∉ key.toList) ∧ keys.head? ≠ some "" ∧ keys.getLast? ≠ some "")
deriving Decidable

/-- **No enabled key has a time or a reason**, which `delete_disabled_keys` would not copy. -/
def NothingForgotten (d : KeyDeletion) : Prop :=
  match d with
  | .key _ => True
  | .disabled => ∀ r ∈ ch.keyRecords jsonArray, r.status = enabled →
      r.disabledTime = none ∧ r.reason = none

/-- **A deletion leaves exactly the remaining keys**, in order, each with its status, time and
reason. -/
def LeavesRemaining (db : ChannelDb) (d : KeyDeletion) : Prop :=
  ∀ message db', db.manageMultiKeys jsonArray ch.id d.action = .ok (message, db') →
    ∃ ch', db'.channels.find? ch.id = some ch' ∧
      ch'.keyRecords jsonArray = d.remaining (ch.keyRecords jsonArray)

end

end KeyDeletion

section

variable {jsonArray : String → Option (List String)} {ch : Channel} {d : KeyDeletion}

theorem filter_zipIdx_ne {α : Type} (l : List α) (n i : Nat) :
    (l.zipIdx n).filter (fun p => decide (p.2 ≠ n + i)) = (l.zipIdx n).eraseIdx i := by
  induction l generalizing n i with
  | nil => rfl
  | cons a l ih =>
    rw [zipIdx_cons, filter_cons]
    cases i with
    | zero =>
      rw [if_neg (by simp), eraseIdx_zero, tail_cons, filter_eq_self]
      intro p hp
      have := le_snd_of_mem_zipIdx hp
      exact decide_eq_true (by omega)
    | succ i =>
      have hshift : n + (i + 1) = n + 1 + i := by omega
      rw [if_pos (decide_eq_true (by omega)), eraseIdx_cons_succ, hshift, ih]

theorem map_key_record (info : ChannelInfo) (keys : List String) :
    (keys.zipIdx.map info.record).map KeyRecord.key = keys := by
  rw [map_map]
  exact zipIdx_map_fst 0 keys

/-- **The pairs that the loop of a deletion keeps** are those of the keys that are to be left. -/
theorem filter_ne_record (i : Nat) :
    (((ch.getKeys jsonArray).zipIdx.filter fun p => decide ((p.2 : Int) ≠ (i : Int))).map
      ch.channelInfo.record) = (ch.keyRecords jsonArray).eraseIdx i := by
  have hkeep : ∀ p : String × Nat,
      decide ((p.2 : Int) ≠ (i : Int)) = decide (p.2 ≠ 0 + i) := by
    intro p
    simp
  simp only [hkeep, filter_zipIdx_ne, keyRecords, eraseIdx_map]

theorem filter_status_record :
    (((ch.getKeys jsonArray).zipIdx.filter
      fun p => decide (ch.channelInfo.keyStatus p.2 ≠ autoDisabled)).map ch.channelInfo.record) =
      disabled.remaining (ch.keyRecords jsonArray) := by
  rw [remaining, keyRecords, filter_map]
  rfl

theorem KeyDeletion.keys_kept (h : ∀ i, d = .key i → 0 ≤ i) :
    (d.kept jsonArray ch).keys = d.remainingKeys jsonArray ch := by
  rw [← map_key_record (d.kept jsonArray ch).info (d.kept jsonArray ch).keys, remainingKeys]
  change (d.kept jsonArray ch).records.map KeyRecord.key = _
  cases d with
  | key keyIndex =>
    obtain ⟨i, rfl⟩ := Int.eq_ofNat_of_zero_le (h keyIndex rfl)
    rw [kept, keptByIndex, records_keepKeys, remaining, Int.toNat_natCast, ← filter_ne_record,
      map_map, map_map]
    rfl
  | disabled =>
    rw [kept, keptByStatus, records_keepKeys, ← filter_status_record, map_map, map_map]
    rfl

/-- **What the loops collect** are the keys that are to be left, unless something is forgotten. -/
theorem KeyDeletion.records_kept_iff (h : ∀ i, d = .key i → 0 ≤ i) :
    (d.kept jsonArray ch).records = d.remaining (ch.keyRecords jsonArray) ↔
      d.NothingForgotten jsonArray ch := by
  cases d with
  | key keyIndex =>
    obtain ⟨i, rfl⟩ := Int.eq_ofNat_of_zero_le (h keyIndex rfl)
    rw [kept, keptByIndex, records_keepKeys, remaining, Int.toNat_natCast, ← filter_ne_record]
    simp [NothingForgotten, keptRecord_eq_record_iff]
  | disabled =>
    rw [kept, keptByStatus, records_keepKeys, ← filter_status_record, map_inj_left]
    simp only [keptRecord_eq_record_iff, mem_filter, decide_eq_true_eq, decide_eq_false_iff_not,
      not_not, NothingForgotten, keyRecords, forall_mem_map]
    refine forall_congr' fun p => ?_
    constructor
    · intro hp hmem henabled
      refine hp ⟨hmem, ?_⟩ henabled
      rw [show ch.channelInfo.keyStatus p.2 = enabled from henabled]
      decide
    · exact fun hp hmem henabled => hp hmem.1 henabled

theorem KeyDeletion.Accepted.nonneg (h : d.Accepted jsonArray ch) : ∀ i, d = .key i → 0 ≤ i := by
  rintro i rfl
  exact h.1

theorem deletedCount_eq_zero_iff :
    (ch.getKeys jsonArray).length - (ch.keptByStatus jsonArray).keys.length = 0 ↔
      ¬ disabled.Accepted jsonArray ch := by
  have hkept : (ch.keptByStatus jsonArray).keys.length =
      ((ch.keyRecords jsonArray).filter fun r => r.status ≠ autoDisabled).length := by
    have hkeys := @KeyDeletion.keys_kept jsonArray ch .disabled (fun i h => by cases h)
    have hlen := congrArg length hkeys
    rw [remainingKeys, length_map] at hlen
    exact hlen
  have hall : (ch.getKeys jsonArray).length = (ch.keyRecords jsonArray).length := by
    rw [keyRecords, length_map, length_zipIdx]
  rw [hkept, hall, Nat.sub_eq_zero_iff_le, ← not_lt, length_filter_lt_length_iff_exists]
  simp [KeyDeletion.Accepted]

theorem KeyDeletion.act_eq_ok_iff {ch' : Channel} :
    (∃ message, ch.act jsonArray d.action = .ok (message, ch')) ↔
      d.Accepted jsonArray ch ∧ ch' = ch.withKept (d.kept jsonArray ch) := by
  cases d with
  | key i =>
    simp only [action, act, checkIndex, bind_eq_ok, ite_error_eq_ok]
    constructor
    · rintro ⟨message, j, ⟨hrange, hj⟩, hne, h⟩
      cases hj
      cases h
      rw [not_or, not_lt, not_le] at hrange
      refine ⟨⟨hrange.1, hrange.2, fun hnil => hne ?_⟩, rfl⟩
      have hkeys := @keys_kept jsonArray ch (.key i) (by rintro _ ⟨⟩; exact hrange.1)
      exact hkeys.trans hnil
    · rintro ⟨hacc, rfl⟩
      have hkeys := @keys_kept jsonArray ch (.key i) hacc.nonneg
      obtain ⟨hnonneg, hlt, hne⟩ := hacc
      refine ⟨_, i, ⟨by omega, rfl⟩, fun hnil => hne (hkeys.symm.trans hnil), rfl⟩
  | disabled =>
    simp only [action, act, ite_error_eq_ok, deletedCount_eq_zero_iff, not_not]
    constructor
    · rintro ⟨message, hacc, h⟩
      cases h
      exact ⟨hacc, rfl⟩
    · rintro ⟨hacc, rfl⟩
      exact ⟨_, hacc, rfl⟩

/-! ### Reading back -/

section

variable (row : Channel) (key : String) (info : ChannelInfo)

theorem keyRecords_stored :
    (row.stored jsonArray key info).keyRecords jsonArray =
      ((row.stored jsonArray key info).getKeys jsonArray).zipIdx.map info.record := by
  refine map_congr_left fun p hp => ?_
  have hlt := snd_lt_of_mem_zipIdx hp
  have hle := length_getKeys_le_keyCount jsonArray (row.stored jsonArray key info)
  have hsize : (p.2 : Int) < (keyCount jsonArray (row.keptText key) : Nat) := by
    have hkey : (row.stored jsonArray key info).key = row.keptText key := rfl
    rw [hkey] at hle
    omega
  exact record_congr (info.entry_fit hsize) rfl rfl

theorem getKeys_stored :
    (row.stored jsonArray key info).getKeys jsonArray =
      if key = "" then row.getKeys jsonArray else Channel.splitKeys jsonArray key := by
  split
  · rename_i hkey
    rw [getKeys, getKeys, stored]
    simp [keptText, if_pos hkey]
  · rename_i hkey
    rw [getKeys, stored]
    simp [keptText, if_neg hkey]

end

theorem KeyDeletion.readBack_iff (hacc : d.Accepted jsonArray ch) (info : ChannelInfo) :
    (ch.stored jsonArray (join (d.kept jsonArray ch).keys '\n') info).getKeys jsonArray =
        (d.kept jsonArray ch).keys ↔ d.ReadBack jsonArray ch := by
  rw [getKeys_stored, keys_kept hacc.nonneg, ReadBack]
  by_cases htext : join (d.remainingKeys jsonArray ch) '\n' = ""
  · rw [if_pos htext, if_pos htext]
    exact eq_comm
  · rw [if_neg htext, if_neg htext, splitKeys_eq]
    cases arrayOf jsonArray (join (d.remainingKeys jsonArray ch) '\n') with
    | some entries => simp
    | none =>
      rw [Option.getD_none, split_trimOf_join_iff htext]
      simp

/-- **The keys as they are read back** are the remaining ones iff their texts are, and nothing was
forgotten. -/
theorem KeyDeletion.keyRecords_stored_iff (hacc : d.Accepted jsonArray ch) :
    (ch.stored jsonArray (join (d.kept jsonArray ch).keys '\n')
        (ch.withKept (d.kept jsonArray ch)).channelInfo).keyRecords jsonArray =
        d.remaining (ch.keyRecords jsonArray) ↔
      d.ReadBack jsonArray ch ∧ d.NothingForgotten jsonArray ch := by
  rw [← readBack_iff hacc (ch.withKept (d.kept jsonArray ch)).channelInfo,
    ← records_kept_iff hacc.nonneg, keyRecords_stored]
  constructor
  · intro h
    have hkeys := congrArg (map KeyRecord.key) h
    rw [map_key_record] at hkeys
    have hkept := hkeys.trans (keys_kept hacc.nonneg).symm
    rw [hkept] at h
    exact ⟨hkept, h⟩
  · rintro ⟨hkeys, hrecords⟩
    rw [hkeys, ← hrecords]
    rfl

/-- **A deletion leaves exactly the remaining keys** iff it is refused, or they can be read back and
nothing is forgotten. -/
theorem keys_deleted_iff {db : ChannelDb} {row : Channel}
    (hrow : db.channels.find? row.id = some row) (hmulti : row.channelInfo.isMultiKey = true)
    (d : KeyDeletion) : d.LeavesRemaining jsonArray row db ↔
      (row.id ≠ 0 → d.Accepted jsonArray row →
        d.ReadBack jsonArray row ∧ d.NothingForgotten jsonArray row) := by
  unfold KeyDeletion.LeavesRemaining
  simp only [manageMultiKeys_eq_ok_iff hrow hmulti]
  have hwritten := fun hid => @update_stored db row jsonArray hrow hid
    (join (d.kept jsonArray row).keys '\n') (row.withKept (d.kept jsonArray row)).channelInfo hmulti
  constructor
  · intro h hid hacc
    obtain ⟨message, hact⟩ := act_eq_ok_iff.mpr ⟨hacc, rfl⟩
    obtain ⟨db', hup, hstored⟩ := hwritten hid
    obtain ⟨row', hrow', hrecords⟩ := h message db' ⟨_, hact, hup⟩
    rw [hstored] at hrow'
    cases hrow'
    exact (keyRecords_stored_iff hacc).mp hrecords
  · rintro h message db' ⟨ch', hact, hup⟩
    obtain ⟨hacc, rfl⟩ := act_eq_ok_iff.mp ⟨message, hact⟩
    have hid : row.id ≠ 0 := id_ne_zero_of_update hrow (by exact hmulti) hup
    obtain ⟨db'', hup', hstored⟩ := hwritten hid
    have hdb : db'' = db' := Option.some.inj (hup'.symm.trans hup)
    exact ⟨_, hdb ▸ hstored, (keyRecords_stored_iff hacc).mpr (h hid hacc)⟩

end

/-! ### Examples -/

def threeKeys : Channel where
  id := 1
  key := "a\nb\nc"
  status := enabled
  channelInfo :=
    { isMultiKey := true
      multiKeySize := 3
      multiKeyStatusList :=
        some ((Table.singleton (1, autoDisabled)).put
          (2, manuallyDisabled))
      multiKeyDisabledTime := some (.singleton (1, 100))
      multiKeyDisabledReason := some (.singleton (1, "quota")) }

def bothDisabled : Channel where
  id := 1
  key := "a\nb"
  status := autoDisabled
  channelInfo :=
    { isMultiKey := true
      multiKeySize := 2
      multiKeyStatusList :=
        some ((Table.singleton (0, autoDisabled)).put
          (1, autoDisabled)) }

/-- Key `a` was disabled at 100 and is enabled again. -/
def enabledAgain : Channel where
  id := 1
  key := "a\nb"
  status := enabled
  channelInfo :=
    { isMultiKey := true
      multiKeySize := 2
      multiKeyStatusList := some (.singleton (1, autoDisabled))
      multiKeyDisabledTime := some (.singleton (0, 100)) }

def arrayText : String := "[\x7b\n\x7d,1,2]"

def readArray (text : String) : Option (List String) :=
  if text = arrayText then some ["\x7b\n\x7d", "1", "2"] else none

def arrayKeys : Channel where
  id := 1
  key := arrayText
  status := enabled
  channelInfo := { isMultiKey := true, multiKeySize := 3 }

def ChannelDb.ofChannel (ch : Channel) : ChannelDb := ⟨.singleton ch, .empty⟩

/-- **The key that was disabled automatically is deleted.** -/
theorem keys_deleted_three : (ChannelDb.ofChannel threeKeys).channels.find? 1 = some threeKeys ∧
      threeKeys.channelInfo.isMultiKey = true ∧
      KeyDeletion.disabled.LeavesRemaining readArray threeKeys (.ofChannel threeKeys) ∧
      (KeyDeletion.disabled.remaining (threeKeys.keyRecords readArray)).map KeyRecord.key =
        ["a", "c"] := by
  refine ⟨rfl, rfl, (keys_deleted_iff rfl rfl _).mpr fun _ _ => ⟨?_, ?_⟩, ?_⟩
  · decide +kernel
  · show ∀ r ∈ threeKeys.keyRecords readArray, r.status = enabled →
      r.disabledTime = none ∧ r.reason = none
    decide +kernel
  · decide +kernel

def Channel.listedAfter (ch : Channel) (action : KeyAction) : Option (List KeyRecord) :=
  match (ChannelDb.ofChannel ch).manageMultiKeys readArray ch.id action with
  | .ok (_, db) => (db.channels.find? ch.id).map (Channel.keyRecords readArray)
  | .error _ => none

/-- **Deleting all keys enables them. A key with a line break** is split when another one is
deleted. **A key that was enabled again** loses the time it was disabled at. -/
theorem keys_not_deleted : KeyDeletion.disabled.remaining (bothDisabled.keyRecords readArray) = [] ∧
      bothDisabled.listedAfter .deleteDisabledKeys =
        some [⟨"a", enabled, none, none⟩, ⟨"b", enabled, none, none⟩] ∧
      (arrayKeys.keyRecords readArray).map KeyRecord.key = ["\x7b\n\x7d", "1", "2"] ∧
      (arrayKeys.listedAfter (.deleteKey (some 2))).map (List.map KeyRecord.key) =
        some ["\x7b", "\x7d", "1"] ∧
      KeyDeletion.disabled.remaining (enabledAgain.keyRecords readArray) =
        [⟨"a", enabled, some 100, none⟩] ∧
      enabledAgain.listedAfter .deleteDisabledKeys = some [⟨"a", enabled, none, none⟩] := by
  refine ⟨?_, ?_, ?_, ?_, ?_, ?_⟩ <;> decide +kernel

end NomoApi
