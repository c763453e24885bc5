import NomoApi.RateLimit.Memory
import NomoApi.RateLimit.Redis

/-! # The limit on successful requests

`ModelRequestRateLimit` (`middleware/model-rate-limit.go`) limits the successful requests of a user.
With Redis it looks at the list of successes before a request, and adds to it after a success. In
memory the look itself is a `Request` to the limiter, which records every request that it lets
through, and takes zero for a limit. -/

namespace NomoApi

open List

/-- **A request of a user**: when it comes and is answered, in milliseconds, and whether it
succeeds. The cleaner of the limiter in memory runs at the times `before` and `during` the request.
The duration is in seconds. -/
structure ModelRequest where
  arrive : Int
  finish : Int
  ok : Bool
  before : List Int := []
  during : List Int := []

/-- Whether the request is allowed, `none` for an error. -/
def checkRedisRateLimit (maxCount : Nat) (duration now : Int) (l : RedisList) :
    Option Bool × RedisList :=
  if maxCount = 0 then (some true, l)
  else if l.values.length < maxCount then (some true, l)
  else
    match l.values.getLast? with
    | none => (none, l)
    | some oldTime =>
      if (now - oldTime).tdiv 1000 < duration then
        (some false, l.expire (now + 1000 * duration))
      else (some true, l)

def recordRedisRequest (maxCount : Nat) (duration now : Int) (l : RedisList) : RedisList :=
  if maxCount = 0 then l
  else ((l.lpush now).ltrim maxCount).expire (now + 1000 * duration)

def redisRateLimitHandler (successMaxCount : Nat) (duration : Int) (l : RedisList)
    (r : ModelRequest) : Bool × RedisList :=
  match checkRedisRateLimit successMaxCount duration r.arrive (l.live r.arrive) with
  | (some true, l) =>
    (true, if r.ok then recordRedisRequest successMaxCount duration r.finish (l.live r.finish)
      else l)
  | (_, l) => (false, l)

/-- **Rounds of the cleaner**, which was started only for a positive expiration. -/
def InMemoryRateLimiter.clean (l : InMemoryRateLimiter) (rounds : List Int) :
    InMemoryRateLimiter :=
  if l.expirationDuration > 0 then rounds.foldl (fun l t => l.clearExpiredItems (t / 1000)) l else l

def memoryRateLimitHandler (userId : String) (successMaxCount : Nat) (duration : Int)
    (l : InMemoryRateLimiter) (r : ModelRequest) : Bool × InMemoryRateLimiter :=
  let successKey := "MRRLS" ++ userId
  match (l.clean r.before).request (successKey ++ "_check") successMaxCount duration
    (r.arrive / 1000) with
  | (false, l) => (false, l.clean r.during)
  | (true, l) =>
    (true, if r.ok then
      ((l.clean r.during).request successKey successMaxCount duration (r.finish / 1000)).2
      else l.clean r.during)

/-- **What the limit is for**: a request is refused iff there is a limit and that many have
succeeded lately. -/
def successPolicy (successMaxCount : Nat) (duration : Int) (successes : List Int)
    (r : ModelRequest) : Bool × List Int :=
  let allowed := successMaxCount = 0 ∨ recent (1000 * duration) r.arrive successes < successMaxCount
  (allowed, if allowed ∧ r.ok then r.finish :: successes else successes)

section

variable {σ τ : Type} {n : Nat} {duration clock : Int} {r : ModelRequest} {rs : List ModelRequest}
  {successes : List Int}

def verdicts (handler : σ → ModelRequest → Bool × σ) : σ → List ModelRequest → List Bool
  | _, [] => []
  | s, r :: rs => (handler s r).1 :: verdicts handler (handler s r).2 rs

/-- Times in order, between two others. -/
def Between (low high : Int) (times : List Int) : Prop :=
  (low :: (times ++ [high])).Pairwise (· ≤ ·)
deriving Decidable

/-- **One request after the other**, with the rounds of the cleaner between and during them. -/
def Sequential : Int → List ModelRequest → Prop
  | _, [] => True
  | clock, r :: rs =>
    Between clock r.arrive r.before ∧ Between r.arrive r.finish r.during ∧ Sequential r.finish rs

theorem Between.le {low high : Int} {times : List Int} (h : Between low high times) :
    low ≤ high := by
  simp only [Between, pairwise_cons, mem_append, mem_singleton] at h
  exact h.1 high (.inr rfl)

theorem verdicts_eq {h₁ : σ → ModelRequest → Bool × σ} {h₂ : τ → ModelRequest → Bool × τ}
    {C : ModelRequest → Prop} {R : Int → σ → τ → Prop}
    (hstep : ∀ clock s t r, R clock s t → C r → Between clock r.arrive r.before →
      Between r.arrive r.finish r.during →
      (h₁ s r).1 = (h₂ t r).1 ∧ R r.finish (h₁ s r).2 (h₂ t r).2)
    {s : σ} {t : τ} (hR : R clock s t) (hC : ∀ r ∈ rs, C r) (hrs : Sequential clock rs) :
    verdicts h₁ s rs = verdicts h₂ t rs := by
  induction rs generalizing clock s t with
  | nil => rfl
  | cons r rs ih =>
    obtain ⟨harrive, hfinish, hrest⟩ := hrs
    obtain ⟨hr, hC⟩ := forall_mem_cons.mp hC
    obtain ⟨hsame, hnext⟩ := hstep clock s t r hR hr harrive hfinish
    rw [verdicts, verdicts, hsame, ih hnext hC hrest]

theorem checkRedisRateLimit_eq (hn : 0 < n) {l : RedisList}
    (h : Tracks n (1000 * duration) clock l.values successes) :
    checkRedisRateLimit n duration clock l =
      if Room n (1000 * duration) clock l.values then (some true, l)
      else (some false, l.expire (clock + 1000 * duration)) := by
  unfold checkRedisRateLimit
  rw [if_neg hn.ne']
  split
  · rename_i hlt
    rw [if_pos (.inl hlt)]
  · rename_i hlt
    cases hold : l.values.getLast? with
    | none =>
      rw [getLast?_eq_none_iff.mp hold] at hlt
      exact absurd hn hlt
    | some oldTime =>
      have hroom : Room n (1000 * duration) clock l.values ↔ oldTime + 1000 * duration ≤ clock := by
        simp [Room, hlt, hold]
      simp only [hroom, RedisList.oldest_iff h hold, ite_not]

theorem redis_step (hn : 0 < n) {l : RedisList}
    (h : l.Keeps n (1000 * duration) clock successes) (harrive : clock ≤ r.arrive)
    (hfinish : r.arrive ≤ r.finish) :
    (redisRateLimitHandler n duration l r).1 = (successPolicy n duration successes r).1 ∧
      (redisRateLimitHandler n duration l r).2.Keeps n (1000 * duration) r.finish
        (successPolicy n duration successes r).2 := by
  have hlive := h.live harrive
  unfold redisRateLimitHandler successPolicy
  rw [checkRedisRateLimit_eq hn hlive.tracks]
  simp only [hn.ne', false_or]
  by_cases hroom : Room n (1000 * duration) r.arrive (l.live r.arrive).values
  · have hrecent := hlive.tracks.room_iff.mp hroom
    simp only [if_pos hroom, hrecent, decide_true, true_and]
    cases r.ok with
    | false => exact hlive.mono hfinish
    | true =>
      -- what was recent when the request came is all that can be when it ends
      have hlater := (hlive.live hfinish).tracks
      have hroom' := hlater.room_iff.mpr
        ((hlive.mono hfinish).tracks.room_iff.mp (hroom.mono hfinish))
      simp only [if_true, recordRedisRequest, if_neg hn.ne']
      exact RedisList.keeps_expire
        (l := ((l.live r.arrive).live r.finish |>.lpush r.finish).ltrim n)
        (hlater.push hroom') le_rfl
  · have hrecent : ¬ recent (1000 * duration) r.arrive successes < n :=
      fun hlt => hroom (hlive.tracks.room_iff.mpr hlt)
    simp only [if_neg hroom, hrecent, decide_false, false_and, if_false, true_and]
    exact (RedisList.keeps_expire hlive.tracks le_rfl).mono hfinish

/-- **A request that succeeds at once**, at a whole second. -/
def ModelRequest.Prompt (r : ModelRequest) : Prop :=
  r.ok = true ∧ r.finish = r.arrive ∧ 1000 ∣ r.arrive

theorem recent_seconds {now : Int} {times : List Int} (htimes : ∀ b ∈ times, 1000 ∣ b)
    (hnow : 1000 ∣ now) :
    recent duration (now / 1000) (times.map (· / 1000)) = recent (1000 * duration) now times := by
  rw [recent, recent, countP_map]
  refine countP_congr fun b hb => ?_
  have hb := htimes b hb
  simp only [Function.comp_apply, decide_eq_true_eq]
  omega

section Memory

variable {userId : String} {l : InMemoryRateLimiter} {expiration : Int}

/-- **The queue of the check tracks the successes**, in whole seconds. -/
structure MemoryTracks (n : Nat) (duration expiration : Int) (userId : String) (clock : Int)
    (l : InMemoryRateLimiter) (successes : List Int) : Prop where
  expiration : l.expirationDuration = expiration
  whole : ∀ b ∈ successes, 1000 ∣ b
  tracks : Tracks n duration (clock / 1000)
    ((l.store ("MRRLS" ++ userId ++ "_check")).getD []).reverse (successes.map (· / 1000))

theorem MemoryTracks.clean (h : MemoryTracks n duration expiration userId clock l successes)
    (hd : expiration ≤ 0 ∨ duration ≤ expiration + 1) {high : Int} {rounds : List Int}
    (hrounds : Between clock high rounds) :
    MemoryTracks n duration expiration userId high (l.clean rounds) successes := by
  have hhigh := Int.ediv_le_ediv (show (0 : Int) < 1000 by decide) hrounds.le
  unfold InMemoryRateLimiter.clean
  split
  · rename_i hpos
    rw [h.expiration] at hpos
    have hd := hd.resolve_left (not_le.mpr hpos)
    clear hhigh
    -- round after round, the clock moves on
    induction rounds generalizing l clock with
    | nil => exact ⟨h.expiration, h.whole, h.tracks.mono (Int.ediv_le_ediv (by decide) hrounds.le)⟩
    | cons t rounds ih =>
      simp only [Between, cons_append, pairwise_cons, mem_cons] at hrounds
      refine ih ⟨h.expiration, h.whole, ?_⟩ (by simpa [Between] using hrounds.2)
      refine InMemoryRateLimiter.tracks_clear h.tracks (by rwa [h.expiration]) ?_
      exact Int.ediv_le_ediv (by decide) (hrounds.1 t (.inl rfl))
  · exact ⟨h.expiration, h.whole, h.tracks.mono hhigh⟩

theorem memory_step (hn : 0 < n) (hd : expiration ≤ 0 ∨ duration ≤ expiration + 1)
    (h : MemoryTracks n duration expiration userId clock l successes) (hr : r.Prompt)
    (hbefore : Between clock r.arrive r.before) (hduring : Between r.arrive r.finish r.during) :
    (memoryRateLimitHandler userId n duration l r).1 = (successPolicy n duration successes r).1 ∧
      MemoryTracks n duration expiration userId r.finish
        (memoryRateLimitHandler userId n duration l r).2
        (successPolicy n duration successes r).2 := by
  obtain ⟨hok, hfinish, hdvd⟩ := hr
  have hkey : "MRRLS" ++ userId ++ "_check" ≠ "MRRLS" ++ userId := by simp
  have hclean := h.clean hd hbefore
  obtain ⟨hadmits, htracks⟩ := InMemoryRateLimiter.request_spec hn hclean.tracks
  rw [recent_seconds hclean.whole hdvd] at hadmits
  have hexp := (@InMemoryRateLimiter.request_expirationDuration (l.clean r.before)
    ("MRRLS" ++ userId ++ "_check") n duration (r.arrive / 1000)).trans hclean.expiration
  unfold memoryRateLimitHandler successPolicy
  simp only [hn.ne', false_or, hok, and_true, if_true, ← hadmits]
  generalize (l.clean r.before).request ("MRRLS" ++ userId ++ "_check") n duration
    (r.arrive / 1000) = out at *
  obtain ⟨allowed, l'⟩ := out
  cases allowed with
  | false =>
    have hnext : MemoryTracks n duration expiration userId r.arrive l' successes :=
      ⟨hexp, hclean.whole, by simpa using htracks⟩
    exact ⟨rfl, by simpa using hnext.clean hd hduring⟩
  | true =>
    have hnext : MemoryTracks n duration expiration userId r.arrive l' (r.arrive :: successes) :=
      ⟨hexp, by simpa using ⟨hdvd, hclean.whole⟩, by simpa using htracks⟩
    obtain ⟨hexp', hwhole, htracks'⟩ := hnext.clean hd hduring
    refine ⟨rfl, InMemoryRateLimiter.request_expirationDuration.trans hexp', ?_, ?_⟩
    · simpa [hfinish] using hwhole
    · simp only [InMemoryRateLimiter.request_store_of_ne hkey, if_true, hfinish]
      rwa [hfinish] at htracks'

end Memory

/-- **The limit on successful requests** is kept with Redis. In memory it is kept if there is a
limit, every request succeeds at once, and the cleaner, started by the first `Init`, does not forget
earlier than the limit. -/
theorem success_limits (userId : String) (expiration : Int) (hrs : Sequential clock rs) :
    verdicts (redisRateLimitHandler n duration) {} rs = verdicts (successPolicy n duration) [] rs ∧
      (0 < n → (expiration ≤ 0 ∨ duration ≤ expiration + 1) → (∀ r ∈ rs, r.Prompt) →
        verdicts (memoryRateLimitHandler userId n duration) (.init expiration none) rs =
          verdicts (successPolicy n duration) [] rs) := by
  constructor
  · rcases Nat.eq_zero_or_pos n with rfl | hn
    · -- without a limit, nothing is recorded and nothing is refused
      refine verdicts_eq (C := fun _ => True) (R := fun _ _ _ => True) ?_ trivial
        (fun _ _ => trivial) hrs
      intro _ s t r _ _ _ _
      exact ⟨by simp [redisRateLimitHandler, checkRedisRateLimit, successPolicy], trivial⟩
    · exact verdicts_eq (C := fun _ => True)
        (fun _ _ _ _ h _ hbefore hduring => redis_step hn h hbefore.le hduring.le)
        ⟨Tracks.nil .., nofun⟩ (fun _ _ => trivial) hrs
  · intro hn hd hprompt
    refine verdicts_eq (C := ModelRequest.Prompt) (R := MemoryTracks n duration expiration userId)
      ?_ ⟨rfl, nofun, Tracks.nil ..⟩ hprompt hrs
    exact fun _ _ _ _ h hr hbefore hduring => memory_step hn hd h hr hbefore hduring

end

/-- Two requests, with a round of the cleaner right before the second. -/
def twoRequests (ok : Bool) (second : Int) : List ModelRequest :=
  [⟨0, 0, ok, [], []⟩, ⟨second, second, true, [second], []⟩]

theorem success_limits_prompt :
    verdicts (memoryRateLimitHandler "7" 1 60) (.init 60 none) (twoRequests true 1000) =
      verdicts (successPolicy 1 60) [] (twoRequests true 1000) :=
  (@success_limits 1 60 0 (twoRequests true 1000) "7" 60 ⟨by decide, by decide, by decide,
    by decide, trivial⟩).2 (by decide) (by decide) (by simp [twoRequests, ModelRequest.Prompt])

/-- **A failed request counts in memory; zero is a limit** of one; **a limit of an hour is
forgotten** by a cleaner that keeps to twenty minutes. -/
theorem success_limits_differ :
    verdicts (memoryRateLimitHandler "7" 1 60) (.init 60 none) (twoRequests false 1000) =
        [true, false] ∧
      verdicts (redisRateLimitHandler 1 60) {} (twoRequests false 1000) = [true, true] ∧
      verdicts (memoryRateLimitHandler "7" 0 60) (.init 60 none) (twoRequests true 1000) =
        [true, false] ∧
      verdicts (redisRateLimitHandler 0 60) {} (twoRequests true 1000) = [true, true] ∧
      verdicts (memoryRateLimitHandler "7" 1 3600) (.init 1200 none) (twoRequests true 2400000) =
        [true, true] ∧
      verdicts (redisRateLimitHandler 1 3600) {} (twoRequests true 2400000) = [true, false] := by
  decide

end NomoApi
