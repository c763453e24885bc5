import NomoApi.Lib.Run
import NomoApi.Lib.Window

/-! # The rate limiter in memory

`InMemoryRateLimiter` (`common/rate-limit.go`) keeps, for each key, the times of the admitted
requests. A cleaner deletes the queues whose last request is older than the key expiration of the
first `Init`, also while they are still in the window of their own limiter. -/

namespace NomoApi

open List Function Option

/-- **The limiter.** Times are in seconds. -/
structure InMemoryRateLimiter where
  store : String → Option (List Int)
  expirationDuration : Int

namespace InMemoryRateLimiter

def init (expirationDuration : Int) : Option InMemoryRateLimiter → InMemoryRateLimiter
  | none => ⟨fun _ => none, expirationDuration⟩
  | some l => l

def clearExpiredItems (l : InMemoryRateLimiter) (now : Int) : InMemoryRateLimiter :=
  { l with
    store := fun key => (l.store key).filter fun queue =>
      ¬ (queue.length = 0 ∨ now - queue.getLastD 0 > l.expirationDuration) }

end InMemoryRateLimiter

/-- **What `Request` makes of the queue of a key**; `none` if it refuses. -/
def requestQueue (maxRequestNum : Nat) (duration now : Int) :
    Option (List Int) → Option (List Int)
  | none => some [now]
  | some queue =>
    if queue.length < maxRequestNum then some (queue ++ [now])
    else
      match queue with
      -- An index out of range; no queue in the store is empty.
      | [] => none
      | oldest :: rest => if now - oldest ≥ duration then some (rest ++ [now]) else none

open InMemoryRateLimiter

namespace InMemoryRateLimiter

def request (l : InMemoryRateLimiter) (key : String) (maxRequestNum : Nat) (duration now : Int) :
    Bool × InMemoryRateLimiter :=
  match requestQueue maxRequestNum duration now (l.store key) with
  | none => (false, l)
  | some queue => (true, { l with store := Function.update l.store key (some queue) })

end InMemoryRateLimiter

/-- A request is admitted if there is room, and the last `n` stay. -/
theorem requestQueue_eq {n : Nat} {d now : Int} {queue : Option (List Int)} (hn : 0 < n)
    (hlen : (queue.getD []).length ≤ n) : requestQueue n d now queue =
      if Room n d now (queue.getD []).reverse then
        some ((now :: (queue.getD []).reverse).take n).reverse else none := by
  cases queue with
  | none =>
    rw [if_pos (.inl hn), take_of_length_le (Nat.succ_le_of_lt hn)]
    rfl
  | some queue =>
    rw [getD_some] at hlen ⊢
    unfold requestQueue
    dsimp only
    split
    · rename_i hlt
      rw [if_pos (.inl (by rwa [length_reverse])), take_of_length_le]
      · rw [reverse_cons, reverse_reverse]
      · rw [length_cons, length_reverse]
        exact Nat.succ_le_of_lt hlt
    · rename_i hlt
      cases queue with
      | nil => exact absurd hn hlt
      | cons oldest rest =>
        have hroom : Room n d now (oldest :: rest).reverse ↔ now - oldest ≥ d := by
          rw [Room, length_reverse, or_iff_right hlt, getLast?_reverse, head?_cons]
          simp only [mem_def, some.injEq, exists_eq_left']
          omega
        have htake : (now :: (oldest :: rest).reverse).take n = now :: rest.reverse := by
          rw [reverse_cons, ← cons_append]
          refine take_left' ?_
          rw [length_cons] at hlen hlt ⊢
          rw [length_reverse]
          omega
        have hrev : (now :: rest.reverse).reverse = rest ++ [now] := by
          rw [reverse_cons, reverse_reverse]
        rw [htake, hrev]
        simp only [hroom]

namespace InMemoryRateLimiter

variable {l : InMemoryRateLimiter} {key : String} {n : Nat} {d now : Int} {admitted : List Int}

theorem request_expirationDuration :
    (l.request key n d now).2.expirationDuration = l.expirationDuration := by
  unfold request
  split <;> rfl

theorem request_store_of_ne {other : String} (h : other ≠ key) :
    (l.request key n d now).2.store other = l.store other := by
  unfold request
  split
  · rfl
  · exact update_of_ne h ..

/-- **`Request` admits iff fewer than `n` requests are recent**, and goes on tracking. -/
theorem request_spec (hn : 0 < n) (h : Tracks n d now ((l.store key).getD []).reverse admitted) :
    ((l.request key n d now).1 = true ↔ recent d now admitted < n) ∧
      Tracks n d now (((l.request key n d now).2.store key).getD []).reverse
        (if (l.request key n d now).1 then now :: admitted else admitted) := by
  have hlen := h.length_le
  rw [length_reverse] at hlen
  unfold request
  rw [requestQueue_eq hn hlen, ← h.room_iff]
  by_cases hroom : Room n d now ((l.store key).getD []).reverse
  · rw [if_pos hroom]
    refine ⟨iff_of_true rfl hroom, ?_⟩
    simp only [update_self, getD_some, reverse_reverse, if_true]
    exact h.push hroom
  · rw [if_neg hroom]
    exact ⟨iff_of_false Bool.false_ne_true hroom, h⟩

/-- **A round of the cleaner forgets nothing recent** if the window is not longer than the
expiration. -/
theorem tracks_clear {clock : Int} (h : Tracks n d clock ((l.store key).getD []).reverse admitted)
    (hd : d ≤ l.expirationDuration + 1) (hnow : clock ≤ now) :
    Tracks n d now (((l.clearExpiredItems now).store key).getD []).reverse admitted := by
  have htracks := h.mono hnow
  unfold clearExpiredItems
  dsimp only
  cases hq : l.store key with
  | none =>
    rw [hq] at htracks
    exact htracks
  | some queue =>
    rw [hq] at htracks
    rw [filter_some]
    split
    · exact htracks
    · rename_i hexpired
      rw [decide_eq_true_eq, not_not] at hexpired
      refine htracks.forget fun b hb => ?_
      rw [getD_some] at hb htracks
      -- no request of the queue is younger than its last one
      obtain ⟨last, rest, hlast⟩ : ∃ last rest, queue.reverse = last :: rest :=
        exists_cons_of_ne_nil (ne_nil_of_mem hb)
      have hsorted := htracks.sorted
      rw [reverse_eq_cons_iff.mp hlast, length_append, getLastD_concat] at hexpired
      rw [hlast] at hb hsorted
      have hle : b ≤ last := by
        rcases mem_cons.mp hb with rfl | hb
        · exact le_rfl
        · exact (pairwise_cons.mp hsorted).1 b hb
      simp only [length_singleton] at hexpired
      omega

end InMemoryRateLimiter

/-! ### Whole runs -/

structure KeyLimit where
  maxRequestNum : Nat
  duration : Int

/-- **The limiter in use**, with what it has admitted, newest first, the last time read and the last
time the cleaner went to sleep. -/
structure LimiterRun where
  limiter : InMemoryRateLimiter
  admitted : String → List Int := fun _ => []
  clock : Int
  asleepSince : Int

inductive LimiterEvent
  | init (expirationDuration : Int)
  | clearExpiredItems (now : Int)
  | request (key : String) (now : Int)

/-- **One step.** The cleaner runs only if the expiration is positive. -/
def limiterStep (limits : String → KeyLimit) (s : LimiterRun) : LimiterEvent → LimiterRun
  | .init expirationDuration =>
    { s with limiter := .init expirationDuration (some s.limiter) }
  | .clearExpiredItems now =>
    if s.limiter.expirationDuration > 0 then
      { s with limiter := s.limiter.clearExpiredItems now, clock := now, asleepSince := now }
    else s
  | .request key now =>
    let r := s.limiter.request key (limits key).maxRequestNum (limits key).duration now
    { s with
      limiter := r.2
      admitted :=
        if r.1 then Function.update s.admitted key (now :: s.admitted key) else s.admitted
      clock := now }

/-- **What can happen**: times do not decrease, and the cleaner sleeps between its rounds. -/
def LimiterEvent.Possible (s : LimiterRun) : LimiterEvent → Prop
  | .init _ => True
  | .clearExpiredItems now =>
    s.clock ≤ now ∧ s.asleepSince + s.limiter.expirationDuration ≤ now
  | .request _ now => s.clock ≤ now

instance (s : LimiterRun) (e : LimiterEvent) : Decidable (e.Possible s) := by
  cases e <;> unfold LimiterEvent.Possible <;> infer_instance

def limiterStart (expirationDuration now : Int) : LimiterRun where
  limiter := .init expirationDuration none
  clock := now
  asleepSince := now

section Window

variable {limits : String → KeyLimit} {expirationDuration : Int} {key : String} {s : LimiterRun}

/-- **The queue of the key tracks what was admitted for it.** -/
structure LimiterRun.Tracked (limits : String → KeyLimit) (expirationDuration : Int) (key : String)
    (s : LimiterRun) : Prop where
  expiration : s.limiter.expirationDuration = expirationDuration
  tracks : Tracks (limits key).maxRequestNum (limits key).duration s.clock
    ((s.limiter.store key).getD []).reverse (s.admitted key)
  limited : Limited (limits key).maxRequestNum (limits key).duration (s.admitted key)

/-- **No event loses track**, if the sweep spares what still counts. -/
theorem LimiterRun.Tracked.step (h : s.Tracked limits expirationDuration key)
    (hn : 1 ≤ (limits key).maxRequestNum)
    (hd : expirationDuration ≤ 0 ∨ (limits key).duration ≤ expirationDuration + 1)
    {e : LimiterEvent} (he : e.Possible s) :
    (limiterStep limits s e).Tracked limits expirationDuration key := by
  cases e with
  | init _ => exact h
  | clearExpiredItems now =>
    unfold limiterStep
    dsimp only
    split
    · rename_i hpos
      rw [h.expiration] at hpos
      have hd := hd.resolve_left (not_le.mpr hpos)
      rw [← h.expiration] at hd
      exact ⟨h.expiration, tracks_clear h.tracks hd he.1, h.limited⟩
    · exact h
  | request k now =>
    have htracks := h.tracks.mono he
    have hexp : (limiterStep limits s (.request k now)).limiter.expirationDuration =
        expirationDuration := request_expirationDuration.trans h.expiration
    unfold limiterStep at hexp ⊢
    dsimp only
    by_cases hk : key = k
    · subst hk
      obtain ⟨hadmits, htracks⟩ := request_spec hn htracks
      cases hr : (s.limiter.request key (limits key).maxRequestNum (limits key).duration now).1 with
      | false =>
        rw [hr] at htracks
        exact ⟨hexp, htracks, h.limited⟩
      | true =>
        rw [hr] at htracks
        refine ⟨hexp, ?_, ?_⟩ <;> simp only [if_true, update_self]
        · exact htracks
        · exact ⟨hadmits.mp hr, h.limited⟩
    -- a request of another key
    · have hother : ∀ b : Bool, (if b then update s.admitted k (now :: s.admitted k)
          else s.admitted) key = s.admitted key := by
        intro b
        cases b
        · rfl
        · exact update_of_ne hk ..
      refine ⟨hexp, ?_, ?_⟩ <;> simp only [hother]
      · rw [request_store_of_ne hk]
        exact htracks
      · exact h.limited

/-- **No window holds more requests of a key than its limit**, for a limiter without a cleaner, or
whose expiration is not shorter than the duration of the key. -/
theorem limiter_window (hn : 1 ≤ (limits key).maxRequestNum)
    (hd : expirationDuration ≤ 0 ∨ (limits key).duration ≤ expirationDuration + 1) {start : Int}
    {events : List LimiterEvent} (hevents : AllSteps (fun s e => e.Possible s) (limiterStep limits)
      (limiterStart expirationDuration start) events) (t : Int) : inWindow (limits key).duration t
        ((run (limiterStep limits) (limiterStart expirationDuration start) events).admitted key) ≤
      (limits key).maxRequestNum := by
  have hstart : (limiterStart expirationDuration start).Tracked limits expirationDuration key :=
    ⟨rfl, Tracks.nil .., trivial⟩
  have htracked := always_of_allSteps (I := LimiterRun.Tracked limits expirationDuration key)
    (fun s e h he => h.step hn hd he) hstart hevents
  exact (htracked events prefix_rfl).limited.window t

end Window

def mixedLimits (key : String) : KeyLimit := if key = "MRRLS7" then ⟨2, 3600⟩ else ⟨2, 60⟩

def userRequests : List LimiterEvent :=
  [.init 3600, .request "MRRLS7" 0, .request "MRRLS7" 0, .clearExpiredItems 1201,
    .request "MRRLS7" 1201]

/-- The third request is refused, and the queue is deleted before the fourth. -/
def clientRequests : List LimiterEvent :=
  [.request "GA1.2.3.4" 5, .request "GA1.2.3.4" 6, .request "GA1.2.3.4" 7, .init 3600,
    .request "MRRLS7" 8, .clearExpiredItems 1300, .request "GA1.2.3.4" 1300]

theorem limiter_window_minute :
    (run (limiterStep mixedLimits) (limiterStart 1200 0) clientRequests).admitted "GA1.2.3.4" =
        [1300, 6, 5] ∧
      inWindow 60 5 ((run (limiterStep mixedLimits) (limiterStart 1200 0) clientRequests).admitted
        "GA1.2.3.4") ≤ 2 :=
  ⟨by decide, @limiter_window mixedLimits 1200 "GA1.2.3.4" (by decide) (.inr (by decide)) 0 _
    (by decide) 5⟩

/-- **The limit of an hour is broken**: the cleaner keeps to the twenty minutes of the first `Init`.
-/
theorem limiter_window_broken :
    AllSteps (fun s e => e.Possible s) (limiterStep mixedLimits) (limiterStart 1200 0)
        userRequests ∧ inWindow 3600 0 ((run (limiterStep mixedLimits) (limiterStart 1200 0)
        userRequests).admitted "MRRLS7") = 3 := by
  decide

end NomoApi
