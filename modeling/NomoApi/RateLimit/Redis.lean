import NomoApi.Lib.Interleave
import NomoApi.Lib.Window

/-! # Rate limits kept in Redis

`redisRateLimiter` and `userRedisRateLimiter` (`middleware/rate-limit.go`) ask a Redis list for its
length, then for its oldest entry, and then push, in commands of their own, so that requests side by
side can all find room. A push to a list that is about to expire can be lost. -/

namespace NomoApi

universe u

/-- **A list in Redis**, newest entry first, and when it expires, in milliseconds. -/
structure RedisList where
  values : List Int := []
  expireAt : Option Int := none
  deriving DecidableEq

namespace RedisList

def live (l : RedisList) (now : Int) : RedisList :=
  match l.expireAt with
  | none => l
  | some x => if x ≤ now then {} else l

def lpush (l : RedisList) (value : Int) : RedisList := { l with values := value :: l.values }

def ltrim (l : RedisList) (n : Nat) : RedisList := { l with values := l.values.take n }

def expire (l : RedisList) (x : Int) : RedisList :=
  if l.values = [] then l else { l with expireAt := some x }

variable {n : Nat} {d clock now : Int} {l : RedisList} {admitted : List Int}

/-- **The list tracks what was admitted**, and outlasts its entries. -/
structure Keeps (n : Nat) (d clock : Int) (l : RedisList) (admitted : List Int) : Prop where
  tracks : Tracks n d clock l.values admitted
  outlasts : ∀ x ∈ l.expireAt, ∀ b ∈ l.values, b + d ≤ x

theorem Keeps.mono (h : l.Keeps n d clock admitted) (hnow : clock ≤ now) :
    l.Keeps n d now admitted := ⟨h.tracks.mono hnow, h.outlasts⟩

theorem Keeps.live (h : l.Keeps n d clock admitted) (hnow : clock ≤ now) :
    (l.live now).Keeps n d now admitted := by
  have htracks := h.tracks.mono hnow
  unfold RedisList.live
  cases hx : l.expireAt with
  | none => exact ⟨htracks, h.outlasts⟩
  | some x =>
    dsimp only
    split
    · rename_i hexpired
      exact ⟨htracks.forget fun b hb => (h.outlasts x hx b hb).trans hexpired, nofun⟩
    · exact ⟨htracks, h.outlasts⟩

theorem length_live_le (l : RedisList) (now : Int) :
    (l.live now).values.length ≤ l.values.length := by
  unfold RedisList.live
  split
  · exact le_rfl
  · split
    · exact Nat.zero_le _
    · exact le_rfl

theorem keeps_expire (h : Tracks n d clock l.values admitted) {expiration : Int}
    (hd : d ≤ expiration) : (l.expire (clock + expiration)).Keeps n d clock admitted := by
  unfold RedisList.expire
  split
  · rename_i hnil
    refine ⟨h, fun x _ b hb => ?_⟩
    rw [hnil] at hb
    cases hb
  · refine ⟨h, ?_⟩
    rintro x ⟨⟩ b hb
    have hle := h.le b hb
    omega

theorem oldest_iff (h : Tracks n (1000 * d) clock l.values admitted) {oldTime : Int}
    (hold : l.values.getLast? = some oldTime) :
    (clock - oldTime).tdiv 1000 < d ↔ ¬ oldTime + 1000 * d ≤ clock := by
  have hpast := h.le oldTime (List.mem_of_getLast? hold)
  rw [Int.tdiv_eq_ediv_of_nonneg (by omega)]
  omega

end RedisList

/-- **A rate limit**: the number, the duration in seconds, and `RateLimitKeyExpirationDuration` in
milliseconds. -/
structure RedisLimit where
  maxRequestNum : Nat
  duration : Int
  expiration : Int

/-- **The list of a key**, with the times of the admitted requests, and of the last command. -/
structure LimitDb where
  list : RedisList := {}
  admitted : List Int := []
  clock : Int

open LimitDb

inductive LimitPhase
  | start
  | full
  | push (slide : Bool)
  | trim
  | renew (admitted : Bool)
  | done (status : Option Nat)
  deriving DecidableEq

namespace LimitPhase

def busy : LimitPhase → Bool
  | .start | .done _ => false
  | _ => true

/-- **The next command of a request**, on the list that it finds. -/
def command (limit : RedisLimit) (now : Int) (s : LimitDb) : LimitPhase → LimitDb × LimitPhase
  | .start => (s, if s.list.values.length < limit.maxRequestNum then .push false else .full)
  | .full =>
    match s.list.values.getLast? with
    -- no time can be read from an entry that is not there
    | none => (s, .done (some 500))
    | some oldTime =>
      if (now - oldTime).tdiv 1000 < limit.duration then (s, .renew false) else (s, .push true)
  | .push slide =>
    ({ s with list := s.list.lpush now, admitted := now :: s.admitted },
      if slide then .trim else .renew true)
  | .trim => ({ s with list := s.list.ltrim limit.maxRequestNum }, .renew true)
  | .renew admitted =>
    ({ s with list := s.list.expire (now + limit.expiration) },
      .done (if admitted then none else some 429))
  | .done status => (s, .done status)

/-- **`redisRateLimiter`**, command by command. -/
def redisRateLimiter (limit : RedisLimit) (now : Int) (s : LimitDb) :
    LimitPhase → LimitDb × LimitPhase
  | .done status => (s, .done status)
  | phase => command limit now { s with list := s.list.live now, clock := now } phase

/-- The same commands, on the list of a user instead of an address. -/
def userRedisRateLimiter : RedisLimit → Int → LimitDb → LimitPhase → LimitDb × LimitPhase :=
  redisRateLimiter

def pushed : LimitPhase → Bool
  | .trim | .renew true => true
  | _ => false

end LimitPhase

/-! ### What one command keeps -/

open LimitPhase

section Command

variable {limit : RedisLimit} {s : LimitDb} {phase : LimitPhase} {now : Int}

/-- Between two calls, the list tells what was admitted. -/
structure LimitDb.Rests (limit : RedisLimit) (s : LimitDb) : Prop where
  limited : Limited limit.maxRequestNum (1000 * limit.duration) s.admitted
  keeps : s.list.Keeps limit.maxRequestNum (1000 * limit.duration) s.clock s.admitted

def LimitDb.Fits (limit : RedisLimit) (s : LimitDb) (phase : LimitPhase) : Prop :=
  Limited limit.maxRequestNum (1000 * limit.duration) s.admitted ∧
    match phase with
    | .push slide => s.Rests limit ∧
        Room limit.maxRequestNum (1000 * limit.duration) s.clock s.list.values ∧
        (slide = false → s.list.values.length < limit.maxRequestNum)
    | .trim => Tracks limit.maxRequestNum (1000 * limit.duration) s.clock
        (s.list.values.take limit.maxRequestNum) s.admitted
    | .renew true => Tracks limit.maxRequestNum (1000 * limit.duration) s.clock s.list.values
        s.admitted
    | _ => s.Rests limit

theorem settles_command (hd : 1000 * limit.duration ≤ limit.expiration) (h : s.Fits limit phase) :
    Settles busy (Rests limit) (LimitDb.Fits limit) (phase.command limit s.clock s) := by
  obtain ⟨hlimited, hfits⟩ := h
  unfold command
  cases phase with
  | start =>
    dsimp only
    split
    · rename_i hlt
      exact .inr ⟨rfl, hlimited, hfits, .inl hlt, fun _ => hlt⟩
    · exact .inr ⟨rfl, hlimited, hfits⟩
  | full =>
    dsimp only
    split
    · exact .inl ⟨rfl, hfits⟩
    · rename_i oldTime hold
      have hiff := RedisList.oldest_iff hfits.keeps.tracks hold
      split
      · exact .inr ⟨rfl, hlimited, hfits⟩
      · rename_i hover
        exact .inr ⟨rfl, hlimited, hfits, .inr ⟨oldTime, hold, not_not.mp (hover ∘ hiff.mpr)⟩,
          nofun⟩
  | push slide =>
    obtain ⟨⟨-, hkeeps⟩, hroom, hlen⟩ := hfits
    have hpush := hkeeps.tracks.push hroom
    have hlimited' := And.intro (hkeeps.tracks.room_iff.mp hroom) hlimited
    cases slide with
    | false =>
      rw [List.take_of_length_le (Nat.succ_le_of_lt (hlen rfl))] at hpush
      exact .inr ⟨rfl, hlimited', hpush⟩
    | true => exact .inr ⟨rfl, hlimited', hpush⟩
  | trim => exact .inr ⟨rfl, hlimited, hfits⟩
  | renew admitted =>
    cases admitted with
    | false => exact .inl ⟨rfl, hlimited, RedisList.keeps_expire hfits.keeps.tracks hd⟩
    | true => exact .inl ⟨rfl, hlimited, RedisList.keeps_expire hfits hd⟩
  | done status => exact .inl ⟨rfl, hfits⟩

theorem LimitDb.Fits.live (h : s.Fits limit phase) (hnow : s.clock ≤ now)
    (hpushed : phase.pushed = true → s.list.live now = s.list) :
    Fits limit { s with list := s.list.live now, clock := now } phase := by
  obtain ⟨hlimited, hfits⟩ := h
  have hlive : s.Rests limit → Rests limit { s with list := s.list.live now, clock := now } :=
    fun h => ⟨hlimited, h.keeps.live hnow⟩
  refine ⟨hlimited, ?_⟩
  cases phase with
  | push slide =>
    obtain ⟨hrests, hroom, hlen⟩ := hfits
    refine ⟨hlive hrests, ?_, fun hs => (s.list.length_live_le now).trans_lt (hlen hs)⟩
    -- what is recent does not depend on what the list has lost
    rw [(hlive hrests).keeps.tracks.room_iff, ← (hrests.keeps.tracks.mono hnow).room_iff]
    exact hroom.mono hnow
  | trim =>
    rw [hpushed rfl]
    exact hfits.mono hnow
  | renew admitted =>
    cases admitted with
    | false => exact hlive hfits
    | true =>
      rw [hpushed rfl]
      exact hfits.mono hnow
  | start => exact hlive hfits
  | full => exact hlive hfits
  | done status => exact hlive hfits

end Command

/-! ### Whole runs -/

section Runs

variable {ι : Type u} [DecidableEq ι] {limit : RedisLimit}

/-- **The requests side by side**: an event is the next command of one of them, at a time. -/
def redisStep (limit : RedisLimit) :
    Processes LimitDb ι LimitPhase → ι × Int → Processes LimitDb ι LimitPhase :=
  interleave Prod.fst fun e => redisRateLimiter limit e.2

def redisStart (clock : Int) : Processes LimitDb ι LimitPhase := ⟨{ clock }, fun _ => .start⟩

/-- **The condition**: times do not decrease, requests do not overlap, and the list does not expire
between a push and its renewal. -/
def InTurn (p : Processes LimitDb ι LimitPhase) (e : ι × Int) : Prop :=
  p.shared.clock ≤ e.2 ∧ (p.phase e.1 = .start → ∀ j, (p.phase j).busy = false) ∧
    ((p.phase e.1).pushed = true → p.shared.list.live e.2 = p.shared.list)

instance [Fintype ι] (p : Processes LimitDb ι LimitPhase) (e : ι × Int) :
    Decidable (InTurn p e) :=
  inferInstanceAs (Decidable (_ ∧ (_ → ∀ j, (p.phase j).busy = false) ∧ _))

/-- **No window holds too many requests** if they come in turn, and the key outlasts the window. -/
theorem redis_window (hd : 1000 * limit.duration ≤ limit.expiration) {start : Int}
    {events : List (ι × Int)}
    (hturn : AllSteps InTurn (redisStep limit) (redisStart start) events) (t : Int) :
    inWindow (1000 * limit.duration) t
        (run (redisStep limit) (redisStart start) events).shared.admitted ≤
      limit.maxRequestNum := by
  have hserial : Always (Serial busy (Rests limit) (LimitDb.Fits limit))
      (redisStep limit) (redisStart start) events := by
    refine always_of_allSteps (C := InTurn) ?_ (.inl ⟨fun _ => rfl, ?_⟩) hturn
    · rintro p e h ⟨hnow, hstart, hpushed⟩
      have hnext : p.shared.Fits limit (p.phase e.1) →
          Settles busy (Rests limit) (LimitDb.Fits limit)
            (redisRateLimiter limit e.2 p.shared (p.phase e.1)) := by
        intro hfits
        have hlive := hfits.live hnow hpushed
        cases hphase : p.phase e.1 with
        | done status =>
          rw [hphase] at hfits
          exact .inl ⟨rfl, hfits.2⟩
        | _ =>
          rw [hphase] at hlive
          exact settles_command hd hlive
      refine serial_interleave (fun hidle hrests => hnext ⟨hrests.limited, ?_⟩)
        (fun _ hfits => hnext hfits) h fun hidle => ?_
      · cases hphase : p.phase e.1 with
        | start => exact hrests
        | done status => exact hrests
        | _ =>
          rw [hphase] at hidle
          cases hidle
      · cases hphase : p.phase e.1 with
        | start => exact .inl (hstart hphase)
        | done status => exact .inr rfl
        | _ =>
          rw [hphase] at hidle
          cases hidle
    · exact ⟨trivial, Tracks.nil .., nofun⟩
  rcases hserial events List.prefix_rfl with ⟨-, hrests⟩ | ⟨i, -, -, hfits⟩
  · exact hrests.limited.window t
  · exact hfits.1.window t

end Runs

def oneInAMinute : RedisLimit := ⟨1, 60, 1200000⟩

theorem redis_window_in_turn : inWindow 60000 5 (run (redisStep oneInAMinute) (redisStart 0)
      [(true, 5), (true, 5), (true, 6), (false, 7), (false, 7), (false, 8)]).shared.admitted ≤ 1 :=
  @redis_window Bool _ oneInAMinute (by decide) 0 _ (by decide) 5

/-- **Two requests ask for the length before one of them pushes.** -/
theorem redis_window_broken : (run (redisStep oneInAMinute) (redisStart 0)
      [(true, 5), (false, 5), (true, 6), (false, 6)]).shared.admitted = [6, 6] ∧
    inWindow 60000 5 [6, 6] = 2 := by
  decide

end NomoApi
