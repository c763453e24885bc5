import NomoApi.Lib.Interleave

/-! # The cached quota of a user

`GetUserCache` (`model/user_cache.go`) reads a user, on a miss from the database, and a routine of
its own then writes it to the cache. `IncreaseUserQuota` and `DecreaseUserQuota` add to the database
and, in another routine, to the cached quota, if the key has a time to live. A quota read before
such a change and written after it stays in the cache. -/

namespace NomoApi

open Option

universe u

/-- **The cached user**, with the time that the key has left, in milliseconds, if any. -/
structure CachedUser where
  quota : Int
  ttl : Option Nat
  deriving DecidableEq

open CachedUser

/-- The answer to `TTL`, in whole seconds, for a key that expires. -/
def CachedUser.ttlSeconds (entry : CachedUser) : Option Nat :=
  entry.ttl.map fun ms => (ms + 500) / 1000

theorem CachedUser.ttlSeconds_of_pos {entry : CachedUser} (h : 0 < entry.ttlSeconds.getD 0) :
    ∃ ttl, entry.ttlSeconds = some (ttl + 1) := by
  cases hseconds : entry.ttlSeconds with
  | none =>
    rw [hseconds] at h
    cases h
  | some ttl =>
    rw [hseconds] at h
    obtain ⟨n, rfl⟩ := Nat.exists_eq_add_one_of_ne_zero (Nat.ne_of_gt h)
    exact ⟨n, rfl⟩

/-- The key after some time; it is gone when its time is up. -/
def CachedUser.elapse (ms : Nat) (entry : CachedUser) : Option CachedUser :=
  match entry.ttl with
  | none => some entry
  | some left => if left ≤ ms then none else some { entry with ttl := some (left - ms) }

theorem CachedUser.quota_of_elapse {ms : Nat} {entry later : CachedUser}
    (h : entry.elapse ms = some later) : later.quota = entry.quota := by
  unfold elapse at h
  split at h
  · rw [← some.inj h]
  · split at h
    · cases h
    · rw [← some.inj h]

/-- **The cache and the database**, as far as one user's quota goes. -/
structure UserStores where
  cache : Option CachedUser
  quota : Int
  deriving DecidableEq

inductive UserCacheCall
  | get
  | increase (quota : Int)
  | decrease (quota : Int)

inductive CachePart
  | unchecked
  | checked (ttl : Nat)
  | finished
  deriving DecidableEq

inductive UserCachePhase
  | start
  | missed
  | holding (quota : Int)
  | returned
  | changing (cache : CachePart) (stored : Bool)
  deriving DecidableEq

open UserCachePhase

namespace UserCacheCall

def delta : UserCacheCall → Int
  | .get => 0
  | .increase quota => quota
  | .decrease quota => -quota

/-- The call before its first step. `quota 不能为负数！`. -/
def begin : UserCacheCall → UserCachePhase
  | .get => .start
  | .increase quota | .decrease quota => if quota < 0 then .returned else .changing .unchecked false

/-- `RedisHSetObj`: all fields, and the time to live, if there is one. -/
def writeCache (expiration : Nat) (quota : Int) (cache : Option CachedUser) : CachedUser where
  quota := quota
  ttl := if expiration > 0 then some (expiration * 1000) else cache.bind ttl

/-- The transaction of `RedisHIncrBy`: a missing key is made anew. -/
def incrCache (delta : Int) (ttl : Nat) (cache : Option CachedUser) : CachedUser where
  quota := (cache.map quota).getD 0 + delta
  ttl := some (ttl * 1000)

/-- **The next step of a call** in the cache, and the read of a load; `expiration` is
`RedisKeyCacheSeconds`. -/
def next (expiration : Nat) (call : UserCacheCall) (s : UserStores) :
    UserCachePhase → UserStores × UserCachePhase
  | .start =>
    match s.cache with
    | some _ => (s, .returned)
    | none => (s, .missed)
  | .missed => (s, .holding s.quota)
  | .holding quota => ({ s with cache := some (writeCache expiration quota s.cache) }, .returned)
  | .returned => (s, .returned)
  | .changing .unchecked stored =>
    -- A key without a time to live, or with less than half a second, is not changed.
    match s.cache.bind ttlSeconds with
    | some (ttl + 1) => (s, .changing (.checked (ttl + 1)) stored)
    | _ => (s, .changing .finished stored)
  | .changing (.checked ttl) stored =>
    ({ s with cache := some (incrCache call.delta ttl s.cache) }, .changing .finished stored)
  | .changing .finished stored => (s, .changing .finished stored)

/-- **The statement of a change** in the database. -/
def store (call : UserCacheCall) (s : UserStores) : UserCachePhase → UserStores × UserCachePhase
  | .changing cache false => ({ s with quota := s.quota + call.delta }, .changing cache true)
  | phase => (s, phase)

end UserCacheCall

namespace UserCachePhase

def settled : UserCachePhase → Bool
  | .start | .returned | .changing .unchecked false | .changing .finished true => true
  | _ => false

def unchanging : UserCachePhase → Bool
  | .changing cache stored => (changing cache stored).settled
  | _ => true

def isHolding : UserCachePhase → Bool
  | .holding _ => true
  | _ => false

def isChecked : UserCachePhase → Bool
  | .changing (.checked _) _ => true
  | _ => false

/-- **What the cache lacks, and the database has**, of a change. -/
def owed (delta : Int) : UserCachePhase → Int
  | .changing cache stored =>
    (if cache = .finished then 0 else delta) - (if stored = true then 0 else delta)
  | _ => 0

end UserCachePhase

/-! ### The calls side by side -/

inductive CallEvent (ι : Type u)
  | next (i : ι)
  | store (i : ι)

def CallEvent.who {ι : Type u} : CallEvent ι → ι
  | .next i | .store i => i

/-- **What happens**: a step of a call, or time passes. -/
inductive UserCacheEvent (ι : Type u)
  | call (e : CallEvent ι)
  | elapse (ms : Nat)

section

variable {ι : Type u} [DecidableEq ι] (expiration : Nat) (calls : ι → UserCacheCall)

def callNext : CallEvent ι → UserStores → UserCachePhase → UserStores × UserCachePhase
  | .next i, s, phase => (calls i).next expiration s phase
  | .store i, s, phase => (calls i).store s phase

variable (p : Processes UserStores ι UserCachePhase)

def userCacheStep : UserCacheEvent ι → Processes UserStores ι UserCachePhase
  | .call e => interleave CallEvent.who (callNext expiration calls) p e
  | .elapse ms =>
    { p with shared := { p.shared with cache := p.shared.cache.bind (elapse ms) } }

def userCacheStart (s : UserStores) : Processes UserStores ι UserCachePhase :=
  ⟨s, fun i => (calls i).begin⟩

/-- **The cached quota is the database's**, if there is one and no call is under way. -/
def CacheAgrees : Prop :=
  (∀ i, (p.phase i).settled = true) → ∀ entry ∈ p.shared.cache, entry.quota = p.shared.quota

/-- **The condition**: a load reads the database only while no change is under way; a change begins
only while no load has a user to write, and meets no key or one with a time to live, which does not
expire before the cached quota is changed. -/
def KeptApart : UserCacheEvent ι → Prop
  | .call (.next i) =>
    (p.phase i = .missed → ∀ j, (p.phase j).unchanging = true) ∧
    (p.phase i = .changing .unchecked false → ∀ j, (p.phase j).isHolding = false) ∧
    ((p.phase i = .changing .unchecked false ∨ p.phase i = .changing .unchecked true) →
      ∀ entry ∈ p.shared.cache, 0 < entry.ttlSeconds.getD 0)
  | .call (.store i) =>
    p.phase i = .changing .unchecked false → ∀ j, (p.phase j).isHolding = false
  | .elapse ms =>
    (∃ i, (p.phase i).isChecked = true) → ∀ entry ∈ p.shared.cache, entry.elapse ms ≠ none

instance [Fintype ι] (p : Processes UserStores ι UserCachePhase) :
    (e : UserCacheEvent ι) → Decidable (KeptApart p e)
  | .call (.next i) => inferInstanceAs (Decidable
      ((p.phase i = .missed → _) ∧ (p.phase i = .changing .unchecked false → _) ∧
        (_ → ∀ entry ∈ p.shared.cache, 0 < entry.ttlSeconds.getD 0)))
  | .call (.store i) => inferInstanceAs (Decidable (p.phase i = .changing .unchecked false → _))
  | .elapse ms => inferInstanceAs (Decidable
      (_ → ∀ entry ∈ p.shared.cache, entry.elapse ms ≠ none))

instance [Fintype ι] (p : Processes UserStores ι UserCachePhase) : Decidable (CacheAgrees p) :=
  inferInstanceAs (Decidable (_ → ∀ entry ∈ p.shared.cache, entry.quota = p.shared.quota))

end

/-! ### What one step keeps -/

section

variable {ι : Type u} [Fintype ι] {expiration : Nat} {calls : ι → UserCacheCall}
  {p : Processes UserStores ι UserCachePhase}

/-- **The cache and the database are in step**: the cached quota lacks what the changes under way
owe it. -/
structure InStep (calls : ι → UserCacheCall) (p : Processes UserStores ι UserCachePhase) :
    Prop where
  balance : ∀ entry ∈ p.shared.cache,
    entry.quota + ∑ i, (p.phase i).owed (calls i).delta = p.shared.quota
  held : ∀ i quota, p.phase i = .holding quota →
    quota = p.shared.quota ∧ ∀ j, (p.phase j).unchanging = true
  live : ∀ i, (p.phase i).isChecked = true → p.shared.cache ≠ none

theorem UserCachePhase.owed_of_unchanging {f : UserCachePhase} (h : f.unchanging = true)
    (delta : Int) : f.owed delta = 0 := by
  cases f with
  | changing cache stored =>
    cases cache with
    | unchecked =>
      cases stored with
      | false => exact sub_self delta
      | true => cases h
    | checked ttl => cases h
    | finished =>
      cases stored with
      | false => cases h
      | true => rfl
  | _ => rfl

theorem UserCachePhase.unchanging_of_settled {f : UserCachePhase} (h : f.settled = true) :
    f.unchanging = true := by
  cases f with
  | changing cache stored => exact h
  | _ => rfl

theorem sum_owed_eq_zero {f : ι → UserCachePhase} (h : ∀ i, (f i).unchanging = true) :
    ∑ i, (f i).owed (calls i).delta = 0 :=
  Finset.sum_eq_zero fun i _ => owed_of_unchanging (h i) _

theorem InStep.agrees (h : InStep calls p) : CacheAgrees p := by
  intro hsettled entry hentry
  have hbalance := h.balance entry hentry
  rwa [sum_owed_eq_zero fun i => unchanging_of_settled (hsettled i), add_zero]
    at hbalance

theorem UserCacheCall.begin_cases (call : UserCacheCall) :
    call.begin = .start ∨ call.begin = .returned ∨ call.begin = .changing .unchecked false := by
  cases call with
  | get => exact .inl rfl
  | _ quota =>
    refine .inr ?_
    by_cases hneg : quota < 0
    · exact .inl (if_pos hneg)
    · exact .inr (if_neg hneg)

theorem inStep_start {s : UserStores} (h : ∀ entry ∈ s.cache, entry.quota = s.quota) :
    InStep calls (userCacheStart calls s) := by
  have hbegin : ∀ i f, (calls i).begin = f →
      f.unchanging = true ∧ f.isHolding = false ∧ f.isChecked = false := by
    rintro i f rfl
    rcases (calls i).begin_cases with hbegin | hbegin | hbegin <;> rw [hbegin] <;> decide
  refine ⟨?_, fun i quota hi => ?_, fun i hi => ?_⟩
  · intro entry hentry
    show entry.quota + ∑ i, (calls i).begin.owed (calls i).delta = s.quota
    rw [sum_owed_eq_zero fun i => (hbegin i _ rfl).1, add_zero]
    exact h entry hentry
  · cases (hbegin i _ hi).2.1
  · exact absurd hi (Bool.eq_false_iff.mp (hbegin i _ rfl).2.2)

variable {i : ι}

theorem InStep.not_holding (h : InStep calls p) (hi : (p.phase i).unchanging = false) :
    ¬∃ j quota, p.phase j = .holding quota := by
  rintro ⟨j, quota, hj⟩
  rw [(h.held j quota hj).2 i] at hi
  cases hi

omit [Fintype ι] in
theorem not_holding_of_forall (h : ∀ j, (p.phase j).isHolding = false) :
    ¬∃ j quota, p.phase j = .holding quota := by
  rintro ⟨j, quota, hj⟩
  have hnot := h j
  rw [hj] at hnot
  cases hnot

variable [DecidableEq ι] {e : CallEvent ι} {f g : UserCachePhase}

section

variable (h : InStep calls p)

include h

theorem inStep_of_call (hphase : p.phase e.who = f) {s : UserStores}
    (hnext : callNext expiration calls e p.shared f = (s, g))
    (hbalance : ∀ entry ∈ s.cache, entry.quota + ∑ i, (p.phase i).owed (calls i).delta +
      (g.owed (calls e.who).delta - f.owed (calls e.who).delta) = s.quota)
    (hholding : ∀ quota, g = .holding quota → quota = s.quota ∧ ∀ j, (p.phase j).unchanging = true)
    (hlive : g.isChecked = true ∨ p.shared.cache ≠ none → s.cache ≠ none)
    (hothers : (∃ j quota, p.phase j = .holding quota) →
      s.quota = p.shared.quota ∧ g.unchanging = true) :
    InStep calls (userCacheStep expiration calls p (.call e)) := by
  rw [← hphase] at hnext hbalance
  have hshared : (userCacheStep expiration calls p (.call e)).shared = s := congrArg Prod.fst hnext
  have hself : (userCacheStep expiration calls p (.call e)).phase e.who = g :=
    phase_interleave_self.trans (congrArg Prod.snd hnext)
  have hne : ∀ j, j ≠ e.who → (userCacheStep expiration calls p (.call e)).phase j = p.phase j :=
    fun j hj => phase_interleave_of_ne hj
  have hsum := @sum_interleave _ _ _ _ _ CallEvent.who (callNext expiration calls) p e _
    fun i (f : UserCachePhase) => f.owed (calls i).delta
  rw [hnext] at hsum
  refine ⟨?_, fun i quota hi => ?_, fun i hi => ?_⟩
  · rw [hshared]
    intro entry hentry
    refine (congrArg (entry.quota + ·) hsum).trans ?_
    rw [← add_assoc]
    exact hbalance entry hentry
  · rw [hshared]
    -- the phase of the call that takes the step, and the others', are unchanging
    have hall : quota = s.quota ∧ g.unchanging = true ∧ ∀ k, (p.phase k).unchanging = true := by
      by_cases hwho : i = e.who
      · rw [hwho, hself] at hi
        obtain ⟨hquota, hall⟩ := hholding quota hi
        exact ⟨hquota, hi ▸ rfl, hall⟩
      · rw [hne i hwho] at hi
        obtain ⟨hquota, hall⟩ := h.held i quota hi
        obtain ⟨hsame, hg⟩ := hothers ⟨i, quota, hi⟩
        exact ⟨hquota.trans hsame.symm, hg, hall⟩
    refine ⟨hall.1, fun j => ?_⟩
    by_cases hj : j = e.who
    · rw [hj, hself]
      exact hall.2.1
    · rw [hne j hj]
      exact hall.2.2 j
  · rw [hshared]
    by_cases hwho : i = e.who
    · rw [hwho, hself] at hi
      exact hlive (.inl hi)
    · rw [hne i hwho] at hi
      exact hlive (.inr (h.live i hi))

theorem inStep_of_moved (hphase : p.phase e.who = f)
    (hnext : callNext expiration calls e p.shared f = (p.shared, g))
    (howed : p.shared.cache ≠ none → g.owed (calls e.who).delta = f.owed (calls e.who).delta)
    (hholding : ∀ quota, g = .holding quota →
      quota = p.shared.quota ∧ ∀ j, (p.phase j).unchanging = true)
    (hchecked : g.isChecked = true → p.shared.cache ≠ none)
    (hothers : (∃ j quota, p.phase j = .holding quota) → g.unchanging = true) :
    InStep calls (userCacheStep expiration calls p (.call e)) := by
  refine inStep_of_call h hphase hnext ?_ hholding (fun h => h.elim hchecked id)
    fun hold => ⟨rfl, hothers hold⟩
  intro entry hentry
  rw [howed (ne_none_iff_exists'.mpr ⟨entry, hentry⟩), sub_self, add_zero]
  exact h.balance entry hentry

theorem inStep_of_idle (hphase : p.phase e.who = f)
    (hnext : callNext expiration calls e p.shared f = (p.shared, f)) :
    InStep calls (userCacheStep expiration calls p (.call e)) := by
  subst hphase
  exact inStep_of_moved h rfl hnext (fun _ => rfl) (h.held e.who) (h.live e.who)
    fun ⟨j, quota, hj⟩ => (h.held j quota hj).2 e.who

theorem inStep_write {quota : Int} (hphase : p.phase i = .holding quota) :
    InStep calls (userCacheStep expiration calls p (.call (.next i))) := by
  obtain ⟨hquota, hall⟩ := h.held i quota hphase
  refine inStep_of_call h hphase (g := .returned) rfl ?_ nofun
    (fun _ => some_ne_none _) fun _ => ⟨rfl, rfl⟩
  intro entry hentry
  obtain rfl := some.inj hentry
  rw [sum_owed_eq_zero hall, add_zero]
  exact (add_zero quota).trans hquota

theorem inStep_check {stored : Bool} (hphase : p.phase i = .changing .unchecked stored)
    (hnone : ¬∃ j quota, p.phase j = .holding quota)
    (hlives : ∀ entry ∈ p.shared.cache, 0 < entry.ttlSeconds.getD 0) :
    InStep calls (userCacheStep expiration calls p (.call (.next i))) := by
  cases hcache : p.shared.cache with
  | none =>
    refine inStep_of_moved h hphase (g := .changing .finished stored) ?_
      (fun hsome => (hsome hcache).elim) nofun nofun fun hold => (hnone hold).elim
    rw [callNext, UserCacheCall.next, hcache]
    rfl
  | some entry =>
    obtain ⟨ttl, httl⟩ := ttlSeconds_of_pos (hlives entry hcache)
    refine inStep_of_moved h hphase (g := .changing (.checked (ttl + 1)) stored) ?_
      (fun _ => rfl) nofun (fun _ => hcache ▸ some_ne_none _)
      fun hold => (hnone hold).elim
    rw [callNext, UserCacheCall.next, hcache, bind_some, httl]

theorem inStep_incr {ttl : Nat} {stored : Bool}
    (hphase : p.phase i = .changing (.checked ttl) stored) :
    InStep calls (userCacheStep expiration calls p (.call (.next i))) := by
  obtain ⟨old, hold⟩ := ne_none_iff_exists'.mp (h.live i (hphase ▸ rfl))
  refine inStep_of_call h hphase (g := .changing .finished stored) rfl ?_ nofun
    (fun _ => some_ne_none _)
    fun hheld => (h.not_holding (i := i) (hphase ▸ rfl) hheld).elim
  intro entry hentry
  obtain rfl := some.inj hentry
  have hbalance := h.balance old hold
  show ((p.shared.cache.map quota).getD 0 + (calls i).delta) + _ +
    (0 - _ - ((calls i).delta - _)) = p.shared.quota
  rw [hold, map_some, getD_some]
  omega

theorem inStep_store {cache : CachePart} (hphase : p.phase i = .changing cache false)
    (hnone : ¬∃ j quota, p.phase j = .holding quota) :
    InStep calls (userCacheStep expiration calls p (.call (.store i))) := by
  refine inStep_of_call h hphase (g := .changing cache true) rfl ?_ nofun (fun hlive => ?_)
    fun hold => (hnone hold).elim
  · intro entry hentry
    have hbalance := h.balance entry hentry
    show entry.quota + _ + (_ - 0 - (_ - (calls i).delta)) = p.shared.quota + (calls i).delta
    omega
  · refine hlive.elim (fun hchecked => h.live i ?_) id
    rw [hphase]
    cases cache with
    | checked ttl => rfl
    | _ => cases hchecked

theorem inStep_next (hapart : KeptApart p (.call (.next i))) :
    InStep calls (userCacheStep expiration calls p (.call (.next i))) := by
  obtain ⟨hreads, hbegins, hlives⟩ := hapart
  cases hphase : p.phase i with
  | start =>
    cases hcache : p.shared.cache with
    | some entry =>
      refine inStep_of_moved h hphase (g := .returned) ?_ (fun _ => rfl) nofun nofun
        fun _ => rfl
      rw [callNext, UserCacheCall.next, hcache]
    | none =>
      refine inStep_of_moved h hphase (g := .missed) ?_ (fun _ => rfl) nofun nofun
        fun _ => rfl
      rw [callNext, UserCacheCall.next, hcache]
  | missed =>
    refine inStep_of_moved h hphase (g := .holding p.shared.quota) rfl (fun _ => rfl) ?_ nofun
      fun _ => rfl
    rintro quota ⟨⟩
    exact ⟨rfl, hreads hphase⟩
  | holding quota => exact inStep_write h hphase
  | returned => exact inStep_of_idle h hphase rfl
  | changing cache stored =>
    cases cache with
    | unchecked =>
      cases stored with
      | false =>
        exact inStep_check h hphase (not_holding_of_forall (hbegins hphase)) (hlives (.inl hphase))
      | true =>
        exact inStep_check h hphase (h.not_holding (i := i) (hphase ▸ rfl)) (hlives (.inr hphase))
    | checked ttl => exact inStep_incr h hphase
    | finished => exact inStep_of_idle h hphase rfl

theorem inStep_statement (hapart : KeptApart p (.call (.store i))) :
    InStep calls (userCacheStep expiration calls p (.call (.store i))) := by
  cases hphase : p.phase i with
  | changing cache stored =>
    cases stored with
    | true => exact inStep_of_idle h hphase rfl
    | false =>
      refine inStep_store h hphase ?_
      cases cache with
      | unchecked => exact not_holding_of_forall (hapart hphase)
      | _ => exact h.not_holding (i := i) (hphase ▸ rfl)
  | _ => exact inStep_of_idle h hphase rfl

theorem inStep_elapse {ms : Nat} (hapart : KeptApart p (.elapse ms)) :
    InStep calls (userCacheStep expiration calls p (.elapse ms)) := by
  refine ⟨?_, h.held, ?_⟩
  · intro later hlater
    obtain ⟨entry, hentry, helapse⟩ := bind_eq_some_iff.mp hlater
    show later.quota + _ = p.shared.quota
    rw [quota_of_elapse helapse]
    exact h.balance entry hentry
  · intro i hi
    obtain ⟨entry, hentry⟩ := ne_none_iff_exists'.mp (h.live i hi)
    show p.shared.cache.bind (elapse ms) ≠ none
    rw [hentry]
    exact hapart ⟨i, hi⟩ entry hentry

theorem InStep.step {e : UserCacheEvent ι} (hapart : KeptApart p e) :
    InStep calls (userCacheStep expiration calls p e) := by
  cases e with
  | call e =>
    cases e with
    | next i => exact inStep_next h hapart
    | store i => exact inStep_statement h hapart
  | elapse ms => exact inStep_elapse h hapart

end

/-! ### Whole runs -/

/-- **The cached quota is the database's** whenever no call is under way, if loads and changes are
kept apart. -/
theorem cache_agrees {s : UserStores} (hstart : ∀ entry ∈ s.cache, entry.quota = s.quota)
    {events : List (UserCacheEvent ι)}
    (hapart : AllSteps KeptApart (userCacheStep expiration calls) (userCacheStart calls s) events) :
    Always CacheAgrees (userCacheStep expiration calls) (userCacheStart calls s) events := by
  have hstep : Always (InStep calls) (userCacheStep expiration calls) (userCacheStart calls s)
      events :=
    always_of_allSteps (fun _ _ h hapart => h.step hapart) (inStep_start hstart) hapart
  exact hstep.mono fun _ h => h.agrees

end

/-! ### A load and a change -/

def loadAndDecrease : Bool → UserCacheCall
  | false => .get
  | true => .decrease 50

def uncachedUser : UserStores := ⟨none, 100⟩

/-- The load misses the key, reads the user and writes it; then the quota is changed in both. -/
theorem cache_agrees_in_turn :
    let events := [.call (.next false), .call (.next false), .call (.next false),
      .elapse 1500, .call (.next true), .call (.store true), .call (.next true)]
    AllSteps KeptApart (userCacheStep 60 loadAndDecrease)
        (userCacheStart loadAndDecrease uncachedUser) events ∧
      Always CacheAgrees (userCacheStep 60 loadAndDecrease)
        (userCacheStart loadAndDecrease uncachedUser) events ∧
      (run (userCacheStep 60 loadAndDecrease) (userCacheStart loadAndDecrease uncachedUser)
        events).shared = ⟨some ⟨50, some 59000⟩, 50⟩ := by
  have hapart : AllSteps KeptApart (userCacheStep 60 loadAndDecrease)
      (userCacheStart loadAndDecrease uncachedUser)
      [.call (.next false), .call (.next false), .call (.next false),
        .elapse 1500, .call (.next true), .call (.store true), .call (.next true)] := by
    decide +kernel
  exact ⟨hapart, cache_agrees (by decide) hapart, by decide +kernel⟩

/-- **A load that overlaps a change leaves the old quota in the cache.** -/
theorem cache_not_agrees :
    let p := run (userCacheStep 60 loadAndDecrease) (userCacheStart loadAndDecrease uncachedUser)
      [.call (.next false), .call (.next false), .call (.next true), .call (.store true),
        .call (.next false)]
    (∀ i, (p.phase i).settled = true) ∧ p.shared = ⟨some ⟨100, some 60000⟩, 50⟩ ∧
      ¬CacheAgrees p := by
  decide +kernel

end NomoApi
