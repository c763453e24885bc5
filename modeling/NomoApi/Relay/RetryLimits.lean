import Mathlib.Algebra.Order.Group.Nat
import NomoApi.Relay.Retry

/-! # The limits of the retry loop

What bounds the loop is the walk through the auto groups: a group is left for good once it has no
channel or its retries are used up. -/

namespace NomoApi

open List RelayState RelayConfig

/-! ### The limits -/

def RelayConfig.maxAttempts (cfg : RelayConfig) : Nat :=
  (cfg.retryTimes + 1) * max 1 cfg.autoGroups.length

/-- **The limits on the attempts of a request.** -/
structure WithinLimits (cfg : RelayConfig) (visited : List (Option Nat)) : Prop where
  perGroup : ∀ g, visited.count (some g) ≤ cfg.retryTimes + 1
  total : visited.length ≤ cfg.maxAttempts
  ordered : (visited.filterMap id).Pairwise (· ≤ ·)

/-- **The request ends, within the limits.** -/
def RunsWithinLimits (cfg : RelayConfig) (w : RelayWorld) : Prop :=
  ∃ visited, WithinLimits cfg visited ∧
    ∀ fuel, cfg.maxAttempts ≤ fuel → relay cfg w fuel = some visited

/-- The channel that affinity prefers serves the first auto group if it serves any. -/
def RelayConfig.AffinityFirst (cfg : RelayConfig) : Prop :=
  ∀ preferred ∈ cfg.preferred, preferred.enabled = true →
    ∀ first ∈ cfg.autoGroups.head?, ∀ group ∈ cfg.autoGroups.tail,
      preferred.serves group = true → preferred.serves first = true

/-- **The condition on the request**: it is not retried after an attempt in a group that affinity
chose further down the list. -/
def RelayConfig.StartsInOrder (cfg : RelayConfig) : Prop :=
  cfg.retryTimes = 0 ∨ cfg.skipRetryAfterAffinity = true ∨ cfg.specificChannel = true ∨
    cfg.tokenGroup ≠ "auto" ∨ cfg.AffinityFirst

variable {cfg : RelayConfig} {w : RelayWorld}

theorem maxAttempts_pos (cfg : RelayConfig) : 1 ≤ cfg.maxAttempts := by
  refine Nat.mul_pos (Nat.succ_pos _) ?_
  exact lt_of_lt_of_le Nat.zero_lt_one (le_max_left _ _)

theorem withinLimits_singleton (g : Option Nat) : WithinLimits cfg [g] := by
  refine ⟨fun p => ?_, maxAttempts_pos cfg, ?_⟩
  · exact le_trans count_le_length (Nat.le_add_left 1 _)
  · cases g with
    | none => exact Pairwise.nil
    | some p => exact pairwise_singleton _ p

/-! ### What a selection does -/

/-- The number of the retry within the group that a selection at `s` finds. -/
def RelayState.priorityRetry (s : RelayState) (g : Nat) : Nat :=
  if s.groupIndex < g then 0 else s.retry

/-- **The state for the next selection** after a channel in the group `g`: the loop stays in the
group, or goes on after it. -/
def Next (cfg : RelayConfig) (s : RelayState) (g : Nat) (s' : RelayState) : Prop :=
  (s'.groupIndex = g ∧ s'.retry = s.priorityRetry g ∧ s'.resetNextTry = s.resetNextTry) ∨
    (cfg.retryTimes ≤ s.priorityRetry g ∧ s'.groupIndex = g + 1 ∧ s'.retry = 0 ∧
      s'.resetNextTry = true)

/-- **A selection that finds a channel** in the group `g`. -/
structure Found (cfg : RelayConfig) (s : RelayState) (g : Nat) (s' : RelayState) : Prop where
  visited : s'.visited = s.visited
  le : s.groupIndex ≤ g
  lt : g < max 1 cfg.autoGroups.length
  single : cfg.tokenGroup ≠ "auto" → s'.groupIndex = 0
  next : Next cfg s g s'

theorem visited_searchGroups (start : Nat) (groups : List String) :
    ∀ (i : Nat) (s : RelayState), (searchGroups cfg w start groups i s).2.visited = s.visited := by
  induction groups with
  | nil => intro i s; rfl
  | cons autoGroup rest ih =>
    intro i s
    rw [searchGroups]
    generalize (if i > start then 0 else s.retry) = priorityRetry
    split
    · split <;> rfl
    · exact ih _ _

theorem searchGroups_available (h : ∀ n group r, w.available n group r = true) (start : Nat)
    (group : String) (rest : List String) (i : Nat) (s : RelayState) :
    (searchGroups cfg w start (group :: rest) i s).1 = some i := by
  rw [searchGroups]
  generalize (if i > start then 0 else s.retry) = priorityRetry
  rw [if_pos (h _ _ _)]
  split <;> rfl

theorem visited_select (cfg : RelayConfig) (w : RelayWorld) (s : RelayState) :
    (cacheGetRandomSatisfiedChannel cfg w s).2.visited = s.visited := by
  rw [cacheGetRandomSatisfiedChannel]
  split
  · split
    · rfl
    · exact visited_searchGroups _ _ _ _
  · rfl

theorem searchGroups_spec {s₀ s' : RelayState} {g : Nat} (groups : List String) :
    ∀ (i : Nat) (s : RelayState), s₀.groupIndex ≤ i → s.retry = s₀.priorityRetry i →
      s.resetNextTry = s₀.resetNextTry →
      searchGroups cfg w s₀.groupIndex groups i s = (some g, s') →
        i ≤ g ∧ g < i + groups.length ∧ Next cfg s₀ g s' := by
  induction groups with
  | nil =>
    intro i s _ _ _ h
    cases h
  | cons autoGroup rest ih =>
    intro i s hle hretry hreset h
    have hpriority : (if i > s₀.groupIndex then 0 else s.retry) = s₀.priorityRetry i := by
      rw [hretry, priorityRetry]
      split <;> rfl
    rw [searchGroups, hpriority] at h
    split at h
    · split at h
      · next hcross =>
        cases h
        refine ⟨le_rfl, by simp, Or.inr ⟨?_, rfl, rfl, rfl⟩⟩
        simpa using (Bool.and_eq_true_iff.mp hcross).2
      · cases h
        exact ⟨le_rfl, by simp, Or.inl ⟨rfl, hretry, hreset⟩⟩
    · have hzero : s₀.priorityRetry (i + 1) = 0 := if_pos (Nat.lt_succ_of_le hle)
      let s₁ := { s with queries := s.queries + 1, groupIndex := i + 1, retry := 0 }
      obtain ⟨hi, hlt, hnext⟩ := ih (i + 1) s₁ (Nat.le_succ_of_le hle) hzero.symm hreset h
      rw [length_cons]
      exact ⟨by omega, by omega, hnext⟩

theorem found_of_select {s s' : RelayState} {g : Nat}
    (hsingle : cfg.tokenGroup ≠ "auto" → s.groupIndex = 0)
    (h : cacheGetRandomSatisfiedChannel cfg w s = (some g, s')) : Found cfg s g s' := by
  have hvisited : s'.visited = s.visited := by rw [← visited_select cfg w s, h]
  have hsame : s.retry = s.priorityRetry s.groupIndex := (if_neg (lt_irrefl _)).symm
  rw [cacheGetRandomSatisfiedChannel] at h
  split at h
  · rename_i hauto
    split at h
    · cases h
    · obtain ⟨hle, hlt, hnext⟩ := searchGroups_spec _ _ s le_rfl hsame rfl h
      rw [List.length_drop] at hlt
      have hg : g < max 1 cfg.autoGroups.length := lt_max_of_lt_right (by omega)
      exact ⟨hvisited, hle, hg, fun hne => absurd hauto hne, hnext⟩
  · rename_i hauto
    have hidx := hsingle hauto
    split at h
    · cases h
      refine ⟨rfl, hidx.le, lt_of_lt_of_le Nat.zero_lt_one (le_max_left _ _), fun _ => hidx, ?_⟩
      exact Or.inl ⟨hidx, hidx ▸ hsame, rfl⟩
    · cases h

/-! ### The invariant of the loop -/

/-- **The invariant** at the head of the loop: no attempt is in a later group, each group before the
current one had at most `RetryTimes + 1` attempts, the current one as many as the retry says. -/
structure RelayState.InOrder (cfg : RelayConfig) (s : RelayState) : Prop where
  limits : WithinLimits cfg s.visited
  started : 1 ≤ s.visited.length
  below : ∀ g, some g ∈ s.visited → g ≤ s.groupIndex
  current : s.visited.count (some s.groupIndex) ≤ s.retry
  length : s.visited.length ≤ (cfg.retryTimes + 1) * s.groupIndex + s.retry
  single : cfg.tokenGroup ≠ "auto" → s.groupIndex = 0
  noReset : s.resetNextTry = false

namespace RelayState.InOrder

variable {s s' : RelayState} {g : Nat}

theorem count_eq_zero (h : s.InOrder cfg) (hlt : s.groupIndex < g) :
    s.visited.count (some g) = 0 := by
  rw [List.count_eq_zero]
  intro hmem
  exact absurd (h.below g hmem) (Nat.not_le_of_lt hlt)

theorem count_le (h : s.InOrder cfg) (hle : s.groupIndex ≤ g) :
    s.visited.count (some g) ≤ s.priorityRetry g := by
  rcases Nat.lt_or_eq_of_le hle with hlt | rfl
  · rw [h.count_eq_zero hlt]
    exact Nat.zero_le _
  · rw [priorityRetry, if_neg (lt_irrefl _)]
    exact h.current

theorem length_le (h : s.InOrder cfg) (hretry : s.retry ≤ cfg.retryTimes) (hle : s.groupIndex ≤ g) :
    s.visited.length ≤ (cfg.retryTimes + 1) * g + s.priorityRetry g := by
  have hlength := h.length
  rcases Nat.lt_or_eq_of_le hle with hlt | rfl
  · -- the group before had its `RetryTimes + 1` attempts at the most
    have hstep : (cfg.retryTimes + 1) * (s.groupIndex + 1) ≤ (cfg.retryTimes + 1) * g :=
      Nat.mul_le_mul_left _ hlt
    rw [Nat.mul_succ] at hstep
    omega
  · rw [priorityRetry, if_neg (lt_irrefl _)]
    exact hlength

theorem priorityRetry_le (hretry : s.retry ≤ cfg.retryTimes) :
    s.priorityRetry g ≤ cfg.retryTimes := by
  rw [priorityRetry]
  split
  · exact Nat.zero_le _
  · exact hretry

theorem withinLimits_append (h : s.InOrder cfg) (hretry : s.retry ≤ cfg.retryTimes)
    (hle : s.groupIndex ≤ g) (hlt : g < max 1 cfg.autoGroups.length) :
    WithinLimits cfg (s.visited ++ [some g]) := by
  have hpriority := priorityRetry_le (g := g) hretry
  refine ⟨fun p => ?_, ?_, ?_⟩
  · by_cases hp : p = g
    · subst hp
      rw [count_append, count_singleton_self]
      exact Nat.succ_le_succ (le_trans (h.count_le hle) hpriority)
    · have hzero : [some g].count (some p) = 0 := by simp [Ne.symm hp]
      rw [count_append, hzero]
      exact h.limits.perGroup p
  · -- every group up to this one has had its share at the most
    have hlength := h.length_le hretry hle
    have hgroups : (cfg.retryTimes + 1) * (g + 1) ≤ cfg.maxAttempts := Nat.mul_le_mul_left _ hlt
    rw [Nat.mul_succ] at hgroups
    rw [length_append, length_singleton]
    omega
  · rw [filterMap_append, pairwise_append]
    refine ⟨h.limits.ordered, pairwise_singleton _ _, ?_⟩
    intro p hp q hq
    have hmem : some p ∈ s.visited := by simpa using hp
    have hqg : q = g := by simpa using hq
    exact hqg ▸ le_trans (h.below p hmem) hle

theorem below_append (h : s.InOrder cfg) (hle : s.groupIndex ≤ g) {p : Nat}
    (hp : some p ∈ s.visited ++ [some g]) : p ≤ g := by
  rcases mem_append.mp hp with hp | hp
  · exact le_trans (h.below p hp) hle
  · exact le_of_eq (by simpa using hp)

section

variable (h : s.InOrder cfg) (hretry : s.retry ≤ cfg.retryTimes) (hf : Found cfg s g s')

include h hretry hf

theorem attempt_stays (hidx : s'.groupIndex = g) (hr : s'.retry = s.priorityRetry g)
    (hreset : s'.resetNextTry = false) :
    ({ s' with visited := s.visited ++ [some g] }).increaseRetry.InOrder cfg := by
  rw [increaseRetry, if_neg (by simp [hreset])]
  refine ⟨h.withinLimits_append hretry hf.le hf.lt, by simp, ?_, ?_, ?_, hf.single, hreset⟩
  · show ∀ p, some p ∈ s.visited ++ [some g] → p ≤ s'.groupIndex
    intro p hp
    rw [hidx]
    exact h.below_append hf.le hp
  · show (s.visited ++ [some g]).count (some s'.groupIndex) ≤ s'.retry + 1
    rw [hidx, hr, count_append, count_singleton_self]
    exact Nat.succ_le_succ (h.count_le hf.le)
  · show (s.visited ++ [some g]).length ≤ (cfg.retryTimes + 1) * s'.groupIndex + (s'.retry + 1)
    rw [hidx, hr, length_append, length_singleton]
    exact Nat.succ_le_succ (h.length_le hretry hf.le)

theorem attempt_leaves (hidx : s'.groupIndex = g + 1) (hr : s'.retry = 0)
    (hreset : s'.resetNextTry = true) :
    ({ s' with visited := s.visited ++ [some g] }).increaseRetry.InOrder cfg := by
  rw [increaseRetry, if_pos hreset]
  refine ⟨h.withinLimits_append hretry hf.le hf.lt, by simp, ?_, ?_, ?_, hf.single, rfl⟩
  · show ∀ p, some p ∈ s.visited ++ [some g] → p ≤ s'.groupIndex
    intro p hp
    rw [hidx]
    exact Nat.le_succ_of_le (h.below_append hf.le hp)
  · show (s.visited ++ [some g]).count (some s'.groupIndex) ≤ s'.retry
    have hzero : (s.visited ++ [some g]).count (some (g + 1)) = 0 := by
      rw [List.count_eq_zero]
      intro hmem
      exact absurd (h.below_append hf.le hmem) (Nat.not_succ_le_self g)
    rw [hidx, hzero]
    exact Nat.zero_le _
  · show (s.visited ++ [some g]).length ≤ (cfg.retryTimes + 1) * s'.groupIndex + s'.retry
    have hlength := h.length_le hretry hf.le
    have hpriority := priorityRetry_le (g := g) hretry
    rw [hidx, hr, List.length_append, length_singleton, Nat.mul_succ]
    omega

theorem attempt : ({ s' with visited := s.visited ++ [some g] }).increaseRetry.InOrder cfg := by
  rcases hf.next with ⟨hidx, hr, hreset⟩ | ⟨-, hidx, hr, hreset⟩
  · exact h.attempt_stays hretry hf hidx hr (hreset.trans h.noReset)
  · exact h.attempt_leaves hretry hf hidx hr hreset

end

end RelayState.InOrder

/-! ### The rounds of the loop -/

variable {s s' : RelayState} {g : Option Nat} {visited : List (Option Nat)}

theorem relayAttempt_done (h : relayAttempt cfg w g s = .inr visited) :
    visited = s.visited ++ [g] := by
  rw [relayAttempt] at h
  split at h
  · exact (Sum.inr.inj h).symm
  · exact (Sum.inr.inj h).symm
  · split at h
    · cases h
    · exact (Sum.inr.inj h).symm

theorem relayAttempt_continue (h : relayAttempt cfg w g s = .inl s') :
    cfg.skipRetryAfterAffinity = false ∧
      s' = ({ s with visited := s.visited ++ [g] }).increaseRetry := by
  rw [relayAttempt] at h
  split at h
  · cases h
  · cases h
  · split at h
    · next hretry =>
      refine ⟨?_, (Sum.inl.inj h).symm⟩
      by_contra hskip
      rw [shouldRetry, if_pos (by simpa using hskip)] at hretry
      cases hretry
    · cases h

theorem visited_increaseRetry (s : RelayState) : s.increaseRetry.visited = s.visited := by
  rw [increaseRetry]
  split <;> rfl

theorem relayStep_continue (hs : s.InOrder cfg) (h : relayStep cfg w s = .inl s') :
    s'.InOrder cfg ∧ s'.visited.length = s.visited.length + 1 := by
  rw [relayStep] at h
  split at h
  · next hretry =>
    split at h
    · cases h
    · next p s₁ hselect =>
      have hfound := found_of_select hs.single hselect
      split at h
      · obtain ⟨-, rfl⟩ := relayAttempt_continue h
        rw [visited_increaseRetry, hfound.visited]
        exact ⟨hs.attempt hretry hfound, length_append⟩
      · cases h
  · cases h

theorem relayStep_done (hs : s.InOrder cfg) (h : relayStep cfg w s = .inr visited) :
    WithinLimits cfg visited := by
  rw [relayStep] at h
  split at h
  · next hretry =>
    have hkept := visited_select cfg w s
    split at h
    · next s₁ hselect =>
      rw [hselect] at hkept
      rw [← Sum.inr.inj h, hkept]
      exact hs.limits
    · next p s₁ hselect =>
      have hfound := found_of_select hs.single hselect
      split at h
      · rw [relayAttempt_done h, hfound.visited]
        exact hs.withinLimits_append hretry hfound.le hfound.lt
      · rw [← Sum.inr.inj h, hfound.visited]
        exact hs.limits
  · rw [← Sum.inr.inj h]
    exact hs.limits

/-- **The loop ends**, since every round that goes on has used up one of the attempts. -/
theorem loop_withinLimits (hs : s.InOrder cfg) : ∃ visited, WithinLimits cfg visited ∧
      ∀ fuel, cfg.maxAttempts ≤ fuel → iterate (relayStep cfg w) fuel s = some visited := by
  -- what decreases is the number of attempts left
  let left : RelayState → Nat := fun s => cfg.maxAttempts - s.visited.length
  have hcontinue : ∀ s s' : RelayState, s.InOrder cfg → relayStep cfg w s = .inl s' →
      s'.InOrder cfg ∧ left s' < left s := by
    intro s s' hs hstep
    obtain ⟨hs', hlength⟩ := relayStep_continue hs hstep
    refine ⟨hs', ?_⟩
    have htotal := hs'.limits.total
    show cfg.maxAttempts - s'.visited.length < cfg.maxAttempts - s.visited.length
    omega
  obtain ⟨visited, hlimits, hends⟩ :=
    iterate_of_invariant left hcontinue (fun _ _ => relayStep_done) hs
  refine ⟨visited, hlimits, fun fuel hfuel => hends fuel ?_⟩
  have hstarted := hs.started
  have htotal := hs.limits.total
  show cfg.maxAttempts - s.visited.length < fuel
  omega

/-! ### The first attempt -/

theorem findIdx_affinityFirst {preferred : PreferredChannel} {p : Nat} (h : cfg.AffinityFirst)
    (hpreferred : cfg.preferred = some preferred) (henabled : preferred.enabled = true)
    (hp : cfg.autoGroups.findIdx? preferred.serves = some p) : p = 0 := by
  have hserved := h preferred hpreferred henabled
  cases hgroups : cfg.autoGroups with
  | nil =>
    rw [hgroups] at hp
    cases hp
  | cons first rest =>
    rw [hgroups] at hp hserved
    rw [findIdx?_cons] at hp
    split at hp
    · exact (Option.some.inj hp).symm
    · rename_i hfirst
      obtain ⟨q, hq, -⟩ := Option.map_eq_some_iff.mp hp
      have hex : ∃ group ∈ rest, preferred.serves group = true := by
        rw [← any_eq_true, ← findIdx?_isSome, hq]
        rfl
      obtain ⟨group, hmem, hserves⟩ := hex
      exact absurd (hserved first rfl group hmem hserves) hfirst

/-- No channel has been tried yet. -/
structure RelayState.Fresh (cfg : RelayConfig) (s : RelayState) : Prop where
  visited : s.visited = []
  retry : s.retry = 0
  noReset : s.resetNextTry = false
  single : cfg.tokenGroup ≠ "auto" → s.groupIndex = 0

theorem fresh_initial : RelayState.Fresh cfg {} := ⟨rfl, rfl, rfl, fun _ => rfl⟩

theorem distributeSelect_spec (h : distributeSelect cfg w = some (g, s)) :
    s.Fresh cfg ∧ ∀ p ∈ g, p ≤ s.groupIndex := by
  rw [distributeSelect] at h
  split at h
  · cases h
  · next p s₁ hselect =>
    cases h
    have hfound := found_of_select (fun _ => rfl) hselect
    refine ⟨⟨hfound.visited, rfl, rfl, hfound.single⟩, ?_⟩
    intro q hq
    cases Option.mem_some_iff.mp hq
    rcases hfound.next with ⟨hidx, -⟩ | ⟨-, hidx, -⟩
    · exact hidx.ge
    · exact hidx ▸ Nat.le_succ _

/-- **What can choose the first channel.** -/
inductive Distributed (cfg : RelayConfig) (w : RelayWorld) : Option Nat → RelayState → Prop
  | selected {g : Option Nat} {s : RelayState} (h : distributeSelect cfg w = some (g, s)) :
      Distributed cfg w g s
  | placed {g : Option Nat} (h : ∀ p ∈ g, p = 0) : Distributed cfg w g {}
  | preferred {p : Nat} (preferred : PreferredChannel) (hauto : cfg.tokenGroup = "auto")
      (hspecific : ¬ cfg.specificChannel = true) (hpreferred : cfg.preferred = some preferred)
      (henabled : preferred.enabled = true)
      (hp : cfg.autoGroups.findIdx? preferred.serves = some p) : Distributed cfg w (some p) {}

theorem distributed (h : distribute cfg w = some (g, s)) : Distributed cfg w g s := by
  rw [distribute] at h
  split at h
  · cases h
    exact .placed (fun p hp => absurd hp (Option.not_mem_none p))
  · next hspecific =>
    split at h
    · exact .selected h
    · next preferred hpreferred =>
      split at h
      · split at h
        · cases h
        · exact .selected h
      · next henabled =>
        split at h
        · next hauto =>
          split at h
          · next p hp =>
            cases h
            exact .preferred preferred hauto hspecific hpreferred (by simpa using henabled) hp
          · exact .selected h
        · split at h
          · cases h
            exact .placed (fun p hp => (Option.mem_some_iff.mp hp).symm)
          · exact .selected h

theorem distribute_fresh (h : distribute cfg w = some (g, s)) : s.Fresh cfg := by
  cases distributed h with
  | selected h => exact (distributeSelect_spec h).1
  | placed => exact fresh_initial
  | preferred => exact fresh_initial

theorem distribute_le
    (horder : cfg.specificChannel = true ∨ cfg.tokenGroup ≠ "auto" ∨ cfg.AffinityFirst)
    (h : distribute cfg w = some (g, s)) : ∀ p ∈ g, p ≤ s.groupIndex := by
  cases distributed h with
  | selected h => exact (distributeSelect_spec h).2
  | placed hplace => exact fun p hp => (hplace p hp).le
  | preferred preferred hauto hspecific hpreferred henabled hq =>
    have hfirst : cfg.AffinityFirst := by
      rcases horder with hs | hne | hfirst
      · exact absurd hs hspecific
      · exact absurd hauto hne
      · exact hfirst
    have hzero := findIdx_affinityFirst hfirst hpreferred henabled hq
    intro p hp
    rw [← Option.mem_some_iff.mp hp, hzero]

theorem inOrder_first (hs : s.Fresh cfg) (hle : ∀ p ∈ g, p ≤ s.groupIndex) :
    ({ s with visited := [g] }).increaseRetry.InOrder cfg := by
  rw [increaseRetry, if_neg (by simp [hs.noReset])]
  refine ⟨withinLimits_singleton g, le_rfl, ?_, ?_, ?_, hs.single, hs.noReset⟩
  · intro p hp
    exact hle p (mem_singleton.mp hp).symm
  · exact le_trans count_le_length (Nat.le_add_left 1 _)
  · exact le_trans (Nat.le_add_left 1 s.retry) (Nat.le_add_left _ _)

theorem relayStep_no_retries (hs : s.Fresh cfg) (hzero : cfg.retryTimes = 0) :
    relayStep cfg w ({ s with visited := [g] }).increaseRetry = .inr [g] := by
  rw [increaseRetry, if_neg (by simp [hs.noReset]), relayStep]
  rw [if_neg (by simp [hs.retry, hzero])]

theorem first_withinLimits (h : cfg.StartsInOrder) (hskip : cfg.skipRetryAfterAffinity = false)
    (hd : distribute cfg w = some (g, s)) :
    ∃ visited, WithinLimits cfg visited ∧ ∀ fuel, cfg.maxAttempts ≤ fuel →
      iterate (relayStep cfg w) fuel ({ s with visited := [g] }).increaseRetry = some visited := by
  have hfresh := distribute_fresh hd
  by_cases hzero : cfg.retryTimes = 0
  · refine ⟨[g], withinLimits_singleton g, fun fuel hfuel => ?_⟩
    obtain ⟨fuel, rfl⟩ := Nat.exists_eq_add_of_le' (le_trans (maxAttempts_pos cfg) hfuel)
    exact iterate_of_done (relayStep_no_retries hfresh hzero) fuel
  · have horder : cfg.specificChannel = true ∨ cfg.tokenGroup ≠ "auto" ∨ cfg.AffinityFirst := by
      rcases h with h | h | h
      · exact absurd h hzero
      · rw [hskip] at h
        cases h
      · exact h
    exact loop_withinLimits (inOrder_first hfresh (distribute_le horder hd))

/-- **Under the condition the request ends within the limits**, whatever the world answers. -/
theorem runsWithinLimits_of_startsInOrder (h : cfg.StartsInOrder) (w : RelayWorld) :
    RunsWithinLimits cfg w := by
  cases hd : distribute cfg w with
  | none =>
    refine ⟨[], ⟨fun _ => Nat.zero_le _, Nat.zero_le _, Pairwise.nil⟩, fun fuel _ => ?_⟩
    rw [relay, hd]
  | some gs =>
    obtain ⟨g, s⟩ := gs
    have hvisited := (distribute_fresh hd).visited
    cases ha : relayAttempt cfg w g s with
    | inr visited =>
      have hdone := relayAttempt_done ha
      rw [hvisited, nil_append] at hdone
      refine ⟨visited, hdone ▸ withinLimits_singleton g, fun fuel _ => ?_⟩
      rw [relay, hd]
      simp [ha]
    | inl s' =>
      obtain ⟨hskip, rfl⟩ := relayAttempt_continue ha
      rw [hvisited, nil_append] at ha
      obtain ⟨visited, hlimits, hends⟩ := first_withinLimits h hskip hd
      refine ⟨visited, hlimits, fun fuel hfuel => ?_⟩
      rw [relay, hd]
      simp only [ha]
      exact hends fuel hfuel

/-! ### The request that goes back -/

def firstChannelFails : RelayWorld where
  available := fun _ _ _ => true
  ready := fun _ => true
  outcome := fun n =>
    if n = 0 then .failed ⟨"channel:invalid_key", false, 401⟩ else .success

theorem exists_later_group (h : ¬ cfg.AffinityFirst) :
    ∃ preferred p, cfg.preferred = some preferred ∧ preferred.enabled = true ∧
      cfg.autoGroups ≠ [] ∧ cfg.autoGroups.findIdx? preferred.serves = some (p + 1) := by
  rw [AffinityFirst] at h
  push Not at h
  obtain ⟨preferred, hpreferred, henabled, first, hfirst, group, hgroup, hserves, hnot⟩ := h
  cases hgroups : cfg.autoGroups with
  | nil =>
    rw [hgroups] at hfirst
    cases hfirst
  | cons x rest =>
    rw [hgroups] at hfirst hgroup
    cases hfirst
    have hsome : (rest.findIdx? preferred.serves).isSome = true := by
      rw [findIdx?_isSome, any_eq_true]
      exact ⟨group, hgroup, hserves⟩
    obtain ⟨p, hp⟩ := Option.isSome_iff_exists.mp hsome
    refine ⟨preferred, p, hpreferred, henabled, cons_ne_nil _ _, ?_⟩
    rw [findIdx?_cons, if_neg hnot, hp]
    rfl

theorem relay_goes_back {p : Nat} (hretries : cfg.retryTimes ≠ 0)
    (hskip : cfg.skipRetryAfterAffinity = false) (hauto : cfg.tokenGroup = "auto")
    (hgroups : cfg.autoGroups ≠ [])
    (hd : distribute cfg firstChannelFails = some (some (p + 1), {})) (fuel : Nat) :
    relay cfg firstChannelFails (fuel + 1) = some [some (p + 1), some 0] := by
  have hsetting : cfg.autoGroupSetting ≠ [] := by
    intro hnil
    rw [autoGroups, hnil] at hgroups
    exact hgroups rfl
  have hfirst : relayAttempt cfg firstChannelFails (some (p + 1)) {}
      = .inl { retry := 1, visited := [some (p + 1)] } := by
    have hchannel : isChannelError ⟨"channel:invalid_key", false, 401⟩ = true := by decide
    simp only [relayAttempt, firstChannelFails, length_nil, if_true, shouldRetry,
      hskip, hchannel, increaseRetry, nil_append]
    rfl
  obtain ⟨first, rest, hcons⟩ := exists_cons_of_ne_nil hgroups
  have hstep : relayStep cfg firstChannelFails { retry := 1, visited := [some (p + 1)] }
      = .inr [some (p + 1), some 0] := by
    have hkept := visited_select cfg firstChannelFails { retry := 1, visited := [some (p + 1)] }
    have hplace : (cacheGetRandomSatisfiedChannel cfg firstChannelFails
        { retry := 1, visited := [some (p + 1)] }).1 = some 0 := by
      rw [cacheGetRandomSatisfiedChannel, if_pos hauto, if_neg hsetting, hcons]
      exact searchGroups_available (fun _ _ _ => rfl) _ _ _ _ _
    rw [relayStep, if_pos (Nat.one_le_iff_ne_zero.mpr hretries)]
    rcases hselect : cacheGetRandomSatisfiedChannel cfg firstChannelFails _ with ⟨q, s⟩
    rw [hselect] at hkept hplace
    obtain rfl : q = some 0 := hplace
    have hkept : s.visited = [some (p + 1)] := hkept
    simp only [relayAttempt, hkept]
    rfl
  rw [relay, hd]
  simp only [hfirst]
  exact iterate_of_done hstep fuel

/-- **The limits hold for exactly the requests of the condition.** -/
theorem runsWithinLimits_iff (cfg : RelayConfig) :
    (∀ w, RunsWithinLimits cfg w) ↔ cfg.StartsInOrder := by
  constructor
  · intro h
    by_contra hnot
    simp only [StartsInOrder, not_or, Bool.not_eq_true, ne_eq, not_not] at hnot
    obtain ⟨hretries, hskip, hspecific, hauto, haffinity⟩ := hnot
    obtain ⟨preferred, p, hpreferred, henabled, hgroups, hp⟩ := exists_later_group haffinity
    have hd : distribute cfg firstChannelFails = some (some (p + 1), {}) := by
      simp [distribute, hspecific, hpreferred, henabled, hauto, hp]
    obtain ⟨visited, hlimits, hends⟩ := h firstChannelFails
    -- the second attempt is made in the first group, after one in a later group
    have hback := hends (cfg.maxAttempts + 1) (Nat.le_succ _)
    rw [relay_goes_back hretries hskip hauto hgroups hd] at hback
    have hordered := hlimits.ordered
    rw [← Option.some.inj hback] at hordered
    have hle : p + 1 ≤ 0 := rel_of_pairwise_cons hordered (mem_singleton_self 0)
    exact absurd hle (Nat.not_succ_le_zero p)
  · exact runsWithinLimits_of_startsInOrder

def secondGroupPreferred : RelayConfig where
  retryTimes := 1
  tokenGroup := "auto"
  autoGroupSetting := ["default", "vip"]
  usable := fun _ => true
  crossGroupRetry := true
  specificChannel := false
  skipRetryAfterAffinity := false
  preferred := some ⟨true, fun group => group == "vip"⟩

def firstGroupEmpty : RelayWorld where
  available := fun _ group _ => group == "vip"
  ready := fun _ => true
  outcome := fun _ => .failed ⟨"bad_response_status_code", false, 500⟩

/-- **Requests beyond the limits.** The first attempt is made in the second group; the retry goes
back to the first one, or counts the second one's attempts anew. -/
theorem second_group_first :
    relay secondGroupPreferred firstChannelFails 4 = some [some 1, some 0] ∧
      relay secondGroupPreferred firstGroupEmpty 4 = some [some 1, some 1, some 1] ∧
      ¬ RunsWithinLimits secondGroupPreferred firstChannelFails ∧
      ¬ RunsWithinLimits secondGroupPreferred firstGroupEmpty := by
  have hback : relay secondGroupPreferred firstChannelFails 4 = some [some 1, some 0] := by
    decide +kernel
  have hthree : relay secondGroupPreferred firstGroupEmpty 4 = some [some 1, some 1, some 1] := by
    decide +kernel
  refine ⟨hback, hthree, ?_, ?_⟩
  · rintro ⟨visited, hlimits, hends⟩
    have hordered := hlimits.ordered
    rw [← Option.some.inj (hback.symm.trans (hends 4 (by decide)))] at hordered
    exact absurd hordered (by decide)
  · rintro ⟨visited, hlimits, hends⟩
    have hcount := hlimits.perGroup 1
    rw [← Option.some.inj (hthree.symm.trans (hends 4 (by decide)))] at hcount
    exact absurd hcount (by decide)

end NomoApi
