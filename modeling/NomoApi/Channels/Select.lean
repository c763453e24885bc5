import Mathlib.Tactic.Ring
import NomoApi.Channels.AbilityView
import NomoApi.Channels.CacheStatus
import NomoApi.Lib.Choice
import NomoApi.Lib.Transaction

/-! # The selection of a channel

A channel is chosen from those of the priority of the attempt, at random by weight: with the memory
cache on by `GetRandomSatisfiedChannel` (`model/channel_cache.go`), with the cache off by
`GetChannel` (`model/ability.go`). -/

namespace NomoApi

open List Option Ability

/-! ### Model names -/

def handleThinkingBudgetModel (name start wildcard : String) : String :=
  if hasPrefix name start && contains name "-thinking-" then wildcard else name

def formatMatchingModelName (name : String) : String :=
  let name :=
    if hasPrefix name "gemini-2.5-flash-lite" then
      handleThinkingBudgetModel name "gemini-2.5-flash-lite" "gemini-2.5-flash-lite-thinking-*"
    else if hasPrefix name "gemini-2.5-flash" then
      handleThinkingBudgetModel name "gemini-2.5-flash" "gemini-2.5-flash-thinking-*"
    else if hasPrefix name "gemini-2.5-pro" then
      handleThinkingBudgetModel name "gemini-2.5-pro" "gemini-2.5-pro-thinking-*"
    else name
  let name := if hasPrefix name "gpt-4-gizmo" then "gpt-4-gizmo-*" else name
  if hasPrefix name "gpt-4o-gizmo" then "gpt-4o-gizmo-*" else name

/-! ### The selectors -/

inductive SelectError
  /-- `数据库一致性错误，渠道# id 不存在，请联系管理员修复`. -/
  | missingChannel (id : Int)
  | noChannelFound (group model : String) (priority : Int)
  | channelNotFound
  | inconsistent
  | recordNotFound
  deriving DecidableEq

abbrev Selection : Type := Except SelectError (Option Channel)

namespace ChannelCache

def load (c : ChannelCache) (ids : List Int) : Except SelectError (List Channel) :=
  ids.mapM fun id =>
    match c.channelsIDM.find? id with
    | none => .error (.missingChannel id)
    | some ch => .ok ch

/-- **The weights that the cache draws by**: the total, a factor and an adjustment. -/
def smoothing (targets : List Channel) : Nat × Nat × Nat :=
  let sumWeight := (targets.map Channel.getWeight).sum
  if sumWeight = 0 then (targets.length * 100, 1, 100)
  else if sumWeight / targets.length < 10 then (sumWeight * 100, 100, 0)
  else (sumWeight, 1, 0)

def smoothedWeight (targets : List Channel) (ch : Channel) : Nat :=
  ch.getWeight * (smoothing targets).2.1 + (smoothing targets).2.2

def draw (intn : Nat → Nat) (targets : List Channel) : Selection :=
  -- The walk stops below zero, so that a channel without a weight is passed over.
  match pick (smoothedWeight targets) (fun d => d < 0) targets (intn (smoothing targets).1) with
  | none => .error .channelNotFound
  | some ch => .ok (some ch)

def choose (intn : Nat → Nat) (channels : List Channel) (group model : String) (retry : Nat) :
    Selection :=
  let targetPriority := (rank (channels.map Channel.getPriority) retry).getD 0
  let targets := channels.filter fun ch => ch.getPriority = targetPriority
  if targets = [] then .error (.noChannelFound group model targetPriority) else draw intn targets

/-- The ids under the name of the model, or else under the name that it is looked up by. -/
def candidates (c : ChannelCache) (group model : String) : List Int :=
  if c.list group model = [] then c.list group (formatMatchingModelName model)
  else c.list group model

/-- **`GetRandomSatisfiedChannel`** with the cache on; `intn n` is the draw below `n`. -/
def getRandomSatisfiedChannel (c : ChannelCache) (intn : Nat → Nat) (group model : String)
    (retry : Nat) : Selection :=
  match c.candidates group model with
  | [] => .ok none
  | [id] =>
    -- A single channel is returned whatever the number of the attempt.
    match c.channelsIDM.find? id with
    | none => .error (.missingChannel id)
    | some ch => .ok (some ch)
  | ids => do
      let channels ← c.load ids
      choose intn channels group model retry

end ChannelCache

namespace ChannelDb

variable (db : ChannelDb) (group model : String)

def candidates : List Ability :=
  db.abilities.rows.filter fun a => a.group = group ∧ a.model = model ∧ a.enabled

def getPriority (retry : Nat) : Except SelectError Int :=
  match rank ((db.candidates group model).map priority) retry with
  | none => .error .inconsistent
  | some priority => .ok priority

/-- The rows of one priority (`getChannelQuery`): the highest for the first attempt. -/
def channelQuery (retry : Nat) : Except SelectError (List Ability) :=
  let rows := db.candidates group model
  if retry = 0 then
    .ok (rows.filter fun a => (rows.map priority).max? = some a.priority)
  else
    match db.getPriority group model retry with
    | .error e => .error e
    | .ok priority => .ok (rows.filter fun a => a.priority = priority)

/-- The draw among the rows of one priority, with their weight plus `10`. -/
def drawRow (intn : Nat → Nat) (abilities : List Ability) : Selection :=
  let weightSum := (abilities.map fun a => a.weight + 10).sum
  let chosen := pick (fun a : Ability => a.weight + 10) (fun d => d ≤ 0) abilities (intn weightSum)
  match db.channels.find? ((chosen.map channelId).getD 0) with
  | none => .error .recordNotFound
  | some ch => .ok (some ch)

def getChannel (intn : Nat → Nat) (group model : String) (retry : Nat) : Selection :=
  match db.channelQuery group model retry with
  | .error e => .error e
  | .ok rows =>
    let abilities := rows.insertionSort fun a b => b.weight ≤ a.weight
    if abilities = [] then .ok none else db.drawRow intn abilities

def tier (retry : Nat) : List Ability :=
  (db.candidates group model).filter fun a =>
    rank ((db.candidates group model).map priority) retry = some a.priority

end ChannelDb

/-! ### What can be selected -/

/-- A random source: the draw below `n` is below `n`. -/
def IsDraw (intn : Nat → Nat) : Prop := ∀ n, 0 < n → intn n < n

/-- **Some draw makes the selector return the channel.** -/
def Selects (f : (Nat → Nat) → Selection) (id : Int) : Prop :=
  ∃ intn, IsDraw intn ∧ ∃ ch, f intn = .ok (some ch) ∧ ch.id = id

def NoChannel (r : Selection) : Prop := ∀ ch, r ≠ .ok (some ch)

/-- **The two selectors agree**: they can return the same channels, and one returns none exactly
when the other does. -/
def SameSelection (c : ChannelCache) (db : ChannelDb) (group model : String) (retry : Nat) : Prop :=
  (∀ id, Selects (fun intn => c.getRandomSatisfiedChannel intn group model retry) id ↔
      Selects (fun intn => db.getChannel intn group model retry) id) ∧
    ∀ intn intn', IsDraw intn → IsDraw intn' →
      (NoChannel (c.getRandomSatisfiedChannel intn group model retry) ↔
        NoChannel (db.getChannel intn' group model retry))

/-- A selector that returns the channels in `S`: always one of them, each at some time. -/
structure Draws (f : (Nat → Nat) → Selection) (S : Channel → Prop) : Prop where
  sound : ∀ intn, IsDraw intn → ∃ ch, f intn = .ok (some ch) ∧ S ch
  complete : ∀ ch, S ch → ∃ intn, IsDraw intn ∧ f intn = .ok (some ch)

/-- **The draws below `total` for which a selector returns the channel.** -/
def share (f : Nat → Selection) (total : Nat) (id : Int) : Nat :=
  (List.range total).countP fun d =>
    match f d with
    | .ok (some ch) => ch.id = id
    | _ => false

namespace Draws

variable {f : (Nat → Nat) → Selection} {S : Channel → Prop}

theorem selects_iff (h : Draws f S) (id : Int) : Selects f id ↔ ∃ ch, S ch ∧ ch.id = id := by
  constructor
  · rintro ⟨intn, hintn, ch, hch, hid⟩
    obtain ⟨ch', hch', hS⟩ := h.sound intn hintn
    rw [hch'] at hch
    cases hch
    exact ⟨ch, hS, hid⟩
  · rintro ⟨ch, hS, hid⟩
    obtain ⟨intn, hintn, hch⟩ := h.complete ch hS
    exact ⟨intn, hintn, ch, hch, hid⟩

theorem not_noChannel (h : Draws f S) {intn : Nat → Nat} (hintn : IsDraw intn) :
    ¬ NoChannel (f intn) := by
  intro hno
  obtain ⟨ch, hch, -⟩ := h.sound intn hintn
  exact hno ch hch

end Draws

section

variable {α : Type} {f : (Nat → Nat) → Selection} {total : Nat} {l : List α} {channel : α → Channel}

/-- **A selector that draws one of the tickets** `l`. -/
structure DrawsFrom (f : (Nat → Nat) → Selection) (total : Nat) (l : List α)
    (channel : α → Channel) : Prop where
  pos : 0 < total
  length : l.length = total
  drawn : ∀ intn, intn total < total →
    ∃ a, l[intn total]? = some a ∧ f intn = .ok (some (channel a))

theorem DrawsFrom.draws (h : DrawsFrom f total l channel) :
    Draws f fun ch => ∃ a ∈ l, channel a = ch := by
  refine ⟨fun intn hintn => ?_, fun ch ⟨a, ha, hch⟩ => ?_⟩
  · obtain ⟨a, hget, hf⟩ := h.drawn intn (hintn _ h.pos)
    exact ⟨channel a, hf, a, mem_of_getElem? hget, rfl⟩
  · obtain ⟨d, hget⟩ := mem_iff_getElem?.mp ha
    have hlt := (List.getElem?_eq_some_iff.mp hget).1
    rw [h.length] at hlt
    -- a source that gives this draw
    refine ⟨fun n => if n = total then d else 0, fun n hn => ?_, ?_⟩
    · dsimp only
      split <;> omega
    · obtain ⟨b, hb, hf⟩ := h.drawn (fun n => if n = total then d else 0) (by simpa using hlt)
      rw [if_pos rfl, hget] at hb
      cases hb
      rw [hf, hch]

theorem DrawsFrom.share_eq (h : DrawsFrom f total l channel) (id : Int) :
    share (fun d => f fun _ => d) total id = l.countP fun a => (channel a).id = id := by
  rw [← countP_range_getElem?, h.length, share]
  refine countP_congr fun d hd => ?_
  obtain ⟨a, hget, hf⟩ := h.drawn (fun _ => d) (mem_range.mp hd)
  simp [hget, hf]

end

/-! ### The choice from the cache -/

namespace ChannelCache

/-- The channels that an attempt can return: of its priority, and with a weight, unless there are
none. -/
def InReach (channels : List Channel) (retry : Nat) (ch : Channel) : Prop :=
  ch ∈ channels ∧ rank (channels.map Channel.getPriority) retry = some ch.getPriority ∧
    (0 < ch.getWeight ∨ ∀ ch' ∈ channels,
      rank (channels.map Channel.getPriority) retry = some ch'.getPriority → ch'.getWeight = 0)

theorem sum_smoothed (targets : List Channel) (factor adjustment : Nat) :
    (targets.map fun ch => ch.getWeight * factor + adjustment).sum =
      (targets.map Channel.getWeight).sum * factor + targets.length * adjustment := by
  induction targets with
  | nil => simp
  | cons ch targets ih =>
    simp only [map_cons, sum_cons, length_cons, ih]
    ring

/-- **The smoothed weights** sum up to the total and are positive where there is a weight. -/
theorem smoothing_spec {targets : List Channel} (hne : targets ≠ []) :
    (targets.map (smoothedWeight targets)).sum = (smoothing targets).1 ∧ 0 < (smoothing targets).1 ∧
      ∀ ch, 0 < smoothedWeight targets ch ↔
        0 < ch.getWeight ∨ ∀ ch' ∈ targets, ch'.getWeight = 0 := by
  have hpos : 0 < targets.length := List.length_pos_iff.mpr hne
  have hzero : (targets.map Channel.getWeight).sum = 0 ↔ ∀ ch ∈ targets, ch.getWeight = 0 := by
    rw [List.sum_eq_zero_iff_forall_eq_nat]
    exact forall_mem_map
  unfold smoothedWeight
  rw [sum_smoothed]
  unfold smoothing
  simp only
  split
  · rename_i hnone
    refine ⟨by simp [hnone], by simpa using hpos, fun ch => ?_⟩
    exact iff_of_true (by simp) (.inr (hzero.mp hnone))
  · rename_i hnone
    have hsome : ¬ ∀ ch ∈ targets, ch.getWeight = 0 := fun h => hnone (hzero.mpr h)
    split
    · refine ⟨by simp, by omega, fun ch => ?_⟩
      rw [or_iff_left hsome]
      simp
    · refine ⟨by simp, by omega, fun ch => ?_⟩
      rw [or_iff_left hsome]
      simp

/-- **The channels of the priority of an attempt**: as many different priorities are higher as there
were retries, if there are so many others. -/
def targets (channels : List Channel) (retry : Nat) : List Channel :=
  let priorities := (channels.map Channel.getPriority).dedup
  channels.filter fun ch =>
    priorities.countP (ch.getPriority < ·) = min retry (priorities.length - 1)

/-- **These are the channels that the code filters out.** -/
theorem targets_eq_rank (channels : List Channel) (retry : Nat) : targets channels retry =
    channels.filter fun ch =>
      rank (channels.map Channel.getPriority) retry = some ch.getPriority := by
  refine filter_congr fun ch hch => decide_eq_decide.mpr ?_
  rw [rank_eq_some_iff, and_iff_right (mem_map_of_mem hch)]

variable {channels : List Channel} {intn : Nat → Nat} {c : ChannelCache} {group model : String}

theorem targets_ne_nil (hne : channels ≠ []) (retry : Nat) : targets channels retry ≠ [] := by
  obtain ⟨p, hp⟩ := exists_rank (l := channels.map Channel.getPriority) (by simpa using hne) retry
  obtain ⟨ch, hch, hpriority⟩ := mem_map.mp (mem_of_rank hp)
  rw [targets_eq_rank]
  exact ne_nil_of_mem (mem_filter.mpr ⟨hch, decide_eq_true (by rw [hp, hpriority])⟩)

theorem choose_eq (hne : channels ≠ []) (intn : Nat → Nat) (group model : String) (retry : Nat) :
    choose intn channels group model retry = draw intn (targets channels retry) := by
  obtain ⟨p, hp⟩ := exists_rank (l := channels.map Channel.getPriority) (by simpa using hne) retry
  have htargets : channels.filter (fun ch => ch.getPriority = p) = targets channels retry := by
    simp only [targets_eq_rank, hp, some.injEq, eq_comm]
  simp [choose, hp, htargets, if_neg (targets_ne_nil hne retry)]

/-- **Ids that are all known** are loaded in their order. -/
theorem load_eq {c : ChannelCache} {ids : List Int}
    (h : ∀ id ∈ ids, ∃ ch, c.channelsIDM.find? id = some ch) :
    c.load ids = .ok (ids.filterMap c.channelsIDM.find?) ∧
      (ids.filterMap c.channelsIDM.find?).map Channel.id = ids ∧
      ∀ ch, ch ∈ ids.filterMap c.channelsIDM.find? ↔ ch ∈ c.channelsIDM ∧ ch.id ∈ ids := by
  refine ⟨?_, ?_, fun ch => ?_⟩
  · induction ids with
    | nil => rfl
    | cons id ids ih =>
      obtain ⟨ch, hfind⟩ := h id mem_cons_self
      have hload := ih fun id hid => h id (mem_cons_of_mem _ hid)
      rw [load] at hload
      rw [load, mapM_cons, hfind, hload, filterMap_cons, hfind]
      rfl
  · induction ids with
    | nil => rfl
    | cons id ids ih =>
      obtain ⟨ch, hfind⟩ := h id mem_cons_self
      rw [filterMap_cons, hfind, map_cons, ih fun id hid => h id (mem_cons_of_mem _ hid),
        (Table.find?_eq_some.mp hfind).2]
  · simp only [mem_filterMap, Table.find?_eq_some]
    grind

theorem exists_of_load {c : ChannelCache} {ids : List Int} {channels : List Channel}
    (h : c.load ids = .ok channels) : ∀ id ∈ ids, ∃ ch, c.channelsIDM.find? id = some ch := by
  induction ids generalizing channels with
  | nil => simp
  | cons id ids ih =>
    rw [load, mapM_cons] at h
    cases hfind : c.channelsIDM.find? id with
    | none =>
      rw [hfind] at h
      cases h
    | some ch =>
      rw [hfind] at h
      obtain ⟨ch', -, h⟩ := bind_eq_ok.mp h
      obtain ⟨channels', hload, -⟩ := bind_eq_ok.mp h
      exact forall_mem_cons.mpr ⟨⟨ch, hfind⟩, ih hload⟩

theorem draw_drawsFrom {ts : List Channel} (hne : ts ≠ []) :
    DrawsFrom (fun intn => draw intn ts) (smoothing ts).1 (tickets (smoothedWeight ts) ts)
      fun ch => ch := by
  obtain ⟨hsum, hpos, -⟩ := smoothing_spec hne
  have hlen := (length_tickets (smoothedWeight ts) ts).trans hsum
  refine ⟨hpos, hlen, fun intn hlt => ?_⟩
  have hticket := getElem?_eq_getElem (hlt.trans_eq hlen.symm)
  exact ⟨_, hticket, by simp only [draw, pick_neg, hticket]⟩

/-- **The cache draws from the channels of the priority**; a single candidate needs no draw, and
would be drawn. -/
theorem getRandomSatisfiedChannel_drawsFrom
    (hload : c.load (c.candidates group model) = .ok channels) (hne : channels ≠ [])
    (retry : Nat) : let ts := targets channels retry
    DrawsFrom (fun intn => c.getRandomSatisfiedChannel intn group model retry) (smoothing ts).1
      (tickets (smoothedWeight ts) ts) fun ch => ch := by
  obtain ⟨hpos, hlen, hdraw⟩ := draw_drawsFrom (targets_ne_nil hne retry)
  refine ⟨hpos, hlen, fun intn hlt => ?_⟩
  obtain ⟨ch, hticket, hch⟩ := hdraw intn hlt
  refine ⟨ch, hticket, ?_⟩
  rw [← hch]
  unfold getRandomSatisfiedChannel
  match hids : c.candidates group model with
  | [] =>
    rw [hids] at hload
    cases hload
    exact absurd rfl hne
  | [id] =>
    have hmem := (mem_filter.mp (mem_tickets _ |>.mp (mem_of_getElem? hticket)).1).1
    rw [hids, load, mapM_cons] at hload
    cases hfind : c.channelsIDM.find? id with
    | none =>
      rw [hfind] at hload
      cases hload
    | some ch₀ =>
      rw [hfind] at hload
      cases hload
      simp only [hch, hfind, mem_singleton.mp hmem]
  | id :: id' :: ids =>
    rw [hids] at hload
    simp only [hload]
    exact choose_eq hne intn group model retry

/-- **What the cache can return**, from candidates that are all loaded. -/
theorem getRandomSatisfiedChannel_draws
    (hloaded : ∀ id ∈ c.candidates group model, ∃ ch, c.channelsIDM.find? id = some ch)
    (hne : c.candidates group model ≠ []) (retry : Nat) :
    ∃ channels, (∀ ch, ch ∈ channels ↔ ch ∈ c.channelsIDM ∧ ch.id ∈ c.candidates group model) ∧
      Draws (fun intn => c.getRandomSatisfiedChannel intn group model retry)
        (InReach channels retry) := by
  obtain ⟨hload, hids, hmem⟩ := load_eq hloaded
  refine ⟨_, hmem, ?_⟩
  generalize (c.candidates group model).filterMap c.channelsIDM.find? = channels at hload hids ⊢
  have hchannels : channels ≠ [] := by
    rintro rfl
    exact hne hids.symm
  have hreach : InReach channels retry = fun ch =>
      ∃ a ∈ tickets (smoothedWeight (targets channels retry)) (targets channels retry), a = ch := by
    funext ch
    rw [exists_eq_right, mem_tickets, (smoothing_spec (targets_ne_nil hchannels retry)).2.2]
    simp only [InReach, targets_eq_rank, mem_filter, decide_eq_true_eq, and_assoc, and_imp]
  rw [hreach]
  exact (getRandomSatisfiedChannel_drawsFrom hload hchannels retry).draws

/-- The channels that are listed for a model. -/
def listed (c : ChannelCache) (group model : String) : List Channel :=
  (c.candidates group model).filterMap c.channelsIDM.find?

theorem exists_of_selected {ch : Channel} {retry : Nat}
    (h : c.getRandomSatisfiedChannel intn group model retry = .ok (some ch)) :
    ∀ id ∈ c.candidates group model, ∃ ch, c.channelsIDM.find? id = some ch := by
  unfold getRandomSatisfiedChannel at h
  match hids : c.candidates group model with
  | [] => simp
  | [id] =>
    rw [hids] at h
    cases hfind : c.channelsIDM.find? id with
    | none => simp [hfind] at h
    | some ch => simpa using ⟨ch, hfind⟩
  | id :: id' :: ids =>
    rw [hids] at h
    obtain ⟨channels, hload, -⟩ := bind_eq_ok.mp h
    exact exists_of_load hload

/-- **A channel is returned as often as it is listed**, times its smoothed weight. -/
theorem share_eq_mul
    (hloaded : ∀ id ∈ c.candidates group model, ∃ ch, c.channelsIDM.find? id = some ch)
    (hne : c.listed group model ≠ []) {retry : Nat} {ch : Channel}
    (hch : ch ∈ targets (c.listed group model) retry) :
    share (fun d => c.getRandomSatisfiedChannel (fun _ => d) group model retry)
        (smoothing (targets (c.listed group model) retry)).1 ch.id =
      (c.candidates group model).count ch.id *
        smoothedWeight (targets (c.listed group model) retry) ch := by
  obtain ⟨hload, hids, hmem⟩ := load_eq hloaded
  have hmem' (x : Channel) : x ∈ c.listed group model ↔ x ∈ c.channelsIDM ∧ _ := hmem x
  have hlisted := (mem_filter.mp hch).1
  -- the entries with its id are this channel
  have hsame : ∀ x ∈ c.listed group model, x.id = ch.id → x = ch := fun x hx hid =>
    Table.eq_of_key_eq ((hmem' x).mp hx).1 ((hmem' ch).mp hlisted).1 hid
  have hfilter : (targets (c.listed group model) retry).filter (fun x => x.id = ch.id) =
      replicate ((c.candidates group model).count ch.id) ch := by
    refine eq_replicate_iff.mpr ⟨?_, fun x hx => ?_⟩
    · rw [← hids, count_eq_countP, countP_map, targets, List.filter_filter,
        ← countP_eq_length_filter]
      refine countP_congr fun x hx => ?_
      have hpriority := (mem_filter.mp hch).2
      simp only [Bool.and_eq_true, decide_eq_true_eq, Function.comp_apply, beq_iff_eq]
      refine and_iff_left_of_imp fun hid => ?_
      rw [hsame x hx hid]
      exact of_decide_eq_true hpriority
    · obtain ⟨hx, hid⟩ := mem_filter.mp hx
      exact hsame x (mem_filter.mp hx).1 (of_decide_eq_true hid)
  refine ((getRandomSatisfiedChannel_drawsFrom hload hne retry).share_eq ch.id).trans ?_
  rw [countP_tickets]
  change ((filter (fun x => x.id = ch.id) (targets (c.listed group model) retry)).map _).sum = _
  rw [hfilter, map_replicate, sum_replicate_nat]
  rfl

/-- **The shares of the cache**: every draw returns a channel of the priority, and each of them is
returned by as many draws as its smoothed weight, iff the listed ids are known and no channel that
can be drawn is listed twice. -/
theorem getRandomSatisfiedChannel_shares_iff {c : ChannelCache} {group model : String}
    (hne : c.listed group model ≠ []) (retry : Nat) :
    let f := fun d => c.getRandomSatisfiedChannel (fun _ => d) group model retry
    let ts := targets (c.listed group model) retry
    ((∀ d < (smoothing ts).1, ∃ ch ∈ ts, f d = .ok (some ch)) ∧
        ∀ ch ∈ ts, share f (smoothing ts).1 ch.id = smoothedWeight ts ch) ↔
      (∀ id ∈ c.candidates group model, ∃ ch, c.channelsIDM.find? id = some ch) ∧
        ∀ ch ∈ ts, 0 < smoothedWeight ts ch → (c.candidates group model).count ch.id = 1 := by
  intro f ts
  constructor
  · rintro ⟨hreturns, hshares⟩
    obtain ⟨ch₀, -, hf⟩ := hreturns 0 (smoothing_spec (targets_ne_nil hne retry)).2.1
    have hloaded := exists_of_selected hf
    refine ⟨hloaded, fun ch hch hpos => ?_⟩
    have hshare := (share_eq_mul hloaded hne hch).symm.trans (hshares ch hch)
    exact (Nat.mul_eq_right hpos.ne').mp hshare
  · rintro ⟨hloaded, honce⟩
    have hdraws := getRandomSatisfiedChannel_drawsFrom (load_eq hloaded).1 hne retry
    refine ⟨fun d hd => ?_, fun ch hch => (share_eq_mul hloaded hne hch).trans ?_⟩
    · obtain ⟨ch, hticket, hch⟩ := hdraws.drawn (fun _ => d) hd
      exact ⟨ch, ((mem_tickets _).mp (mem_of_getElem? hticket)).1, hch⟩
    · rcases Nat.eq_zero_or_pos (smoothedWeight ts ch) with hzero | hpos
      · rw [hzero, Nat.mul_zero]
      · rw [honce ch hch hpos, Nat.one_mul]

theorem getRandomSatisfiedChannel_shares_two :
    let c := twoChannelsDb.builtCache
    let f := fun d => c.getRandomSatisfiedChannel (fun _ => d) "default" "gpt-4" 1
    let ts := targets (c.listed "default" "gpt-4") 1
    c.listed "default" "gpt-4" ≠ [] ∧ (∀ d < (smoothing ts).1, ∃ ch ∈ ts, f d = .ok (some ch)) ∧
      ∀ ch ∈ ts, share f (smoothing ts).1 ch.id = smoothedWeight ts ch := by
  have hne : twoChannelsDb.builtCache.listed "default" "gpt-4" ≠ [] := by decide +kernel
  exact ⟨hne, (getRandomSatisfiedChannel_shares_iff hne 1).mpr
    ⟨by simp only [← isSome_iff_exists]; decide +kernel, by decide +kernel⟩⟩

def repeatedModelDb : ChannelDb :=
  ChannelDb.empty.step (fun _ => none) (.batchInsert
    [.first { models := "gpt-4,gpt-4", weight := some 10 },
      .second { models := "gpt-4", weight := some 10 }])

/-- **A model named twice** lists the channel twice and doubles its share. -/
theorem model_twice_doubles_share :
    initChannelCache true repeatedModelDb .empty = some repeatedModelDb.builtCache ∧
      let c := repeatedModelDb.builtCache
      let ts := targets (c.listed "default" "gpt-4") 0
      ∃ ch ∈ ts, share (fun d => c.getRandomSatisfiedChannel (fun _ => d) "default" "gpt-4" 0)
          (smoothing ts).1 ch.id = 20 ∧ smoothedWeight ts ch = 10 := by
  refine ⟨init_builtCache (by decide +kernel), ?_⟩
  decide +kernel

end ChannelCache

/-! ### The choice from the database -/

namespace ChannelDb

variable {db : ChannelDb} {group model : String}

theorem channelQuery_eq (hne : db.candidates group model ≠ []) (retry : Nat) :
    db.channelQuery group model retry = .ok (db.tier group model retry) := by
  obtain ⟨p, hp⟩ := exists_rank (l := (db.candidates group model).map priority)
    (by simpa using hne) retry
  unfold channelQuery tier
  by_cases hretry : retry = 0
  · subst hretry
    rw [if_pos rfl]
    simp [rank_zero]
  · rw [if_neg hretry, getPriority, hp]
    simp only [some.injEq, eq_comm]

theorem tier_ne_nil (hne : db.candidates group model ≠ []) (retry : Nat) :
    db.tier group model retry ≠ [] := by
  obtain ⟨p, hp⟩ := exists_rank (l := (db.candidates group model).map priority)
    (by simpa using hne) retry
  obtain ⟨a, ha, hpriority⟩ := mem_map.mp (mem_of_rank hp)
  refine ne_nil_of_mem (mem_filter.mpr ⟨ha, decide_eq_true ?_⟩)
  rw [hp, hpriority]

theorem nodup_tier (db : ChannelDb) (group model : String) (retry : Nat) :
    ((db.tier group model retry).map channelId).Nodup := by
  have hkeys : ((db.tier group model retry).map key).Nodup :=
    db.abilities.nodup.sublist ((filter_sublist.trans filter_sublist).map _)
  have hmap : (db.tier group model retry).map key =
      ((db.tier group model retry).map channelId).map fun id => (group, model, id) := by
    rw [List.map_map]
    refine map_congr_left fun a ha => ?_
    obtain ⟨hgroup, hmodel, -⟩ :=
      of_decide_eq_true (mem_filter.mp (mem_filter.mp ha).1).2
    rw [key, hgroup, hmodel]
    rfl
  rw [hmap] at hkeys
  exact hkeys.of_map

/-- The weights that the database draws by. -/
abbrev rowWeight (a : Ability) : Nat := a.weight + 10

theorem mem_dropLast {a b : Ability} {rows : List Ability} :
    b ∈ (a :: tickets rowWeight (a :: rows)).dropLast ↔ b ∈ a :: rows :=
  mem_dropLast_tickets rowWeight fun _ => Nat.lt_add_left _ (by decide)

def rowChannel (db : ChannelDb) (a : Ability) : Channel :=
  (db.channels.find? a.channelId).getD {}

section

variable (hne : db.candidates group model ≠ []) (retry : Nat)
  (hrows : ∀ a ∈ db.tier group model retry, ∃ ch, db.channels.find? a.channelId = some ch)
include hne hrows

/-- **The database draws one behind**: from the first row and all tickets but the last. -/
theorem getChannel_drawsFrom : ∃ a rows, (a :: rows).Perm (db.tier group model retry) ∧
    DrawsFrom (fun intn => db.getChannel intn group model retry)
      ((db.tier group model retry).map rowWeight).sum
      (a :: tickets rowWeight (a :: rows)).dropLast db.rowChannel := by
  have hperm := perm_insertionSort (fun a b : Ability => b.weight ≤ a.weight)
    (db.tier group model retry)
  obtain ⟨a, rows, hsorted⟩ := exists_cons_of_ne_nil (l :=
    (db.tier group model retry).insertionSort fun a b => b.weight ≤ a.weight) fun hnil =>
      tier_ne_nil hne retry (hnil ▸ hperm).symm.eq_nil
  rw [hsorted] at hperm
  have hsum := (hperm.map rowWeight).sum_eq
  have hlen : (a :: tickets rowWeight (a :: rows)).dropLast.length =
      ((db.tier group model retry).map rowWeight).sum := by
    rw [length_dropLast, length_cons, length_tickets, Nat.add_sub_cancel, hsum]
  refine ⟨a, rows, hperm, by simp [← hsum], hlen, fun intn hlt => ?_⟩
  have hlt := hlt.trans_eq hlen.symm
  have hticket := getElem?_eq_getElem hlt
  obtain ⟨ch, hch⟩ := hrows _ (hperm.mem_iff.mp (mem_dropLast.mp (getElem_mem hlt)))
  refine ⟨_, hticket, ?_⟩
  rw [getElem?_dropLast, if_pos (length_dropLast ▸ hlt), ← pick_nonpos] at hticket
  simp only [getChannel, channelQuery_eq hne retry, hsorted, if_neg (cons_ne_nil a rows), drawRow,
    hsum, hticket, map_some, getD_some, rowChannel, hch]

/-- **What the database can return**: the channels of the rows of the attempt. -/
theorem getChannel_draws : Draws (fun intn => db.getChannel intn group model retry) fun ch =>
    ∃ a ∈ db.tier group model retry, db.channels.find? a.channelId = some ch := by
  obtain ⟨a, rows, hperm, hdraws⟩ := getChannel_drawsFrom hne retry hrows
  have hreach : (fun ch => ∃ a ∈ db.tier group model retry,
      db.channels.find? a.channelId = some ch) = fun ch =>
        ∃ b ∈ (a :: tickets rowWeight (a :: rows)).dropLast, db.rowChannel b = ch := by
    funext ch
    simp only [mem_dropLast, hperm.mem_iff]
    refine propext (exists_congr fun b => and_congr_right fun hb => ?_)
    obtain ⟨ch', hch'⟩ := hrows b hb
    rw [rowChannel, hch', getD_some, some.injEq]
  rw [hreach]
  exact hdraws.draws

end

theorem noChannel_getChannel (hnil : db.candidates group model = []) (intn : Nat → Nat)
    (retry : Nat) : NoChannel (db.getChannel intn group model retry) := by
  intro ch
  unfold getChannel channelQuery
  simp only [hnil, filter_nil]
  by_cases hretry : retry = 0
  · rw [if_pos hretry]
    simp
  · rw [if_neg hretry, getPriority, hnil]
    simp [rank, descending]

/-- **The shares of the database** are right for a single row only: the first row has one draw more
than its weight and the last one less. -/
theorem getChannel_shares_iff {db : ChannelDb} {group model : String}
    (hne : db.candidates group model ≠ []) (retry : Nat)
    (hrows : ∀ a ∈ db.tier group model retry, ∃ ch, db.channels.find? a.channelId = some ch) :
    (∀ a ∈ db.tier group model retry, share (fun d => db.getChannel (fun _ => d) group model retry)
        ((db.tier group model retry).map rowWeight).sum a.channelId = a.weight + 10) ↔
      (db.tier group model retry).length = 1 := by
  obtain ⟨a, rows, hperm, hdraws⟩ := getChannel_drawsFrom hne retry hrows
  have hkeys := (hperm.map channelId).nodup_iff.mpr (nodup_tier db group model retry)
  have hid : ∀ b ∈ (a :: tickets rowWeight (a :: rows)).dropLast,
      (db.rowChannel b).id = b.channelId := by
    intro b hb
    obtain ⟨ch, hch⟩ := hrows b (hperm.mem_iff.mp (mem_dropLast.mp hb))
    rw [rowChannel, hch, getD_some, (Table.find?_eq_some.mp hch).2]
  have hshare : ∀ b ∈ a :: rows, share (fun d => db.getChannel (fun _ => d) group model retry)
      ((db.tier group model retry).map rowWeight).sum b.channelId +
        (if (a :: rows).getLast?.any fun x => x.channelId = b.channelId then 1 else 0) =
          b.weight + 10 + if a.channelId = b.channelId then 1 else 0 := by
    intro b hb
    have hcount := countP_dropLast (cons_ne_nil a (tickets rowWeight (a :: rows)))
      fun x => x.channelId = b.channelId
    rw [countP_cons, countP_tickets, filter_key_eq hkeys hb, map_singleton, sum_singleton,
      getLast?_cons, getLast?_tickets rowWeight (fun _ => Nat.succ_pos _),
      getLast?_cons, getD_some, ← getLast?_cons] at hcount
    rw [hdraws.share_eq, countP_congr fun x hx => by rw [hid x hx]]
    simpa using hcount
  rw [← hperm.length_eq]
  simp only [← hperm.mem_iff]
  cases rows with
  | nil =>
    refine iff_of_true (fun b hb => ?_) rfl
    simpa [mem_singleton.mp hb] using hshare b hb
  | cons b rows =>
    refine iff_of_false (fun h => ?_) (by simp)
    have hfirst := hshare a mem_cons_self
    rw [h a mem_cons_self, if_pos rfl, getLast?_cons_cons] at hfirst
    have hlast : (b :: rows).getLast?.any (fun x => x.channelId = a.channelId) = true := by
      by_contra hnone
      rw [if_neg hnone] at hfirst
      omega
    obtain ⟨x, hx, hid⟩ := (Option.any_eq_true _ _).mp hlast
    exact (nodup_cons.mp hkeys).1 (of_decide_eq_true hid ▸ mem_map_of_mem (mem_of_getLast? hx))

def oneChannelDb : ChannelDb :=
  ChannelDb.empty.step (fun _ => none) (.batchInsert [.first { models := "gpt-4" }])

theorem getChannel_shares_one : (oneChannelDb.tier "default" "gpt-4" 0).length = 1 ∧
    ∀ a ∈ oneChannelDb.tier "default" "gpt-4" 0,
      share (fun d => oneChannelDb.getChannel (fun _ => d) "default" "gpt-4" 0)
        ((oneChannelDb.tier "default" "gpt-4" 0).map rowWeight).sum a.channelId = a.weight + 10 :=
  ⟨by decide +kernel, (getChannel_shares_iff (by decide +kernel) 0
    (by simp only [← isSome_iff_exists]; decide +kernel)).mpr (by decide +kernel)⟩

/-- Of two channels without a weight, the first is returned for `11` draws of `20`. -/
theorem getChannel_shares_two : ∃ a ∈ ChannelCache.twoChannelsDb.tier "default" "gpt-4" 0,
    share (fun d => ChannelCache.twoChannelsDb.getChannel (fun _ => d) "default" "gpt-4" 0)
        ((ChannelCache.twoChannelsDb.tier "default" "gpt-4" 0).map rowWeight).sum a.channelId = 11 ∧
      a.weight + 10 = 10 := by
  decide +kernel

end ChannelDb

end NomoApi
