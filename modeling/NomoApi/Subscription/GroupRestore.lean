import NomoApi.Subscription.Groups
import NomoApi.Lib.Run

/-! # When the original group comes back

The law is that right after an expiry a user without an open upgrade is in their original group
again. It fails when upgrades overlap. `Settled` is an invariant of the user's own rows and group,
which each function keeps. -/

namespace NomoApi

open Function List Table GroupStore

/-! ## Runs -/

inductive GroupEvent where
  | create (userId : Int) (plan : SubscriptionPlan) (source : String) (now : Int)
  | expire (limit now : Int)
  | invalidate (userSubscriptionId now : Int)
  | delete (userSubscriptionId now : Int)

def GroupEvent.now : GroupEvent → Int
  | .create _ _ _ now => now
  | .expire _ now => now
  | .invalidate _ now => now
  | .delete _ now => now

/-- The store during a run, the time of the last call and whether it was an expiry. -/
structure GroupRun where
  store : GroupStore
  clock : Int
  swept : Bool

open GroupRun

def commit {α : Type} (res : Except Halt (α × GroupStore)) (st : GroupStore) : GroupStore :=
  match res with
  | .ok (_, st') => st'
  | .error _ => st

def GroupRun.step (loc : Location) (m : MapOrder Int) (s : GroupRun) : GroupEvent → GroupRun
  | .create userId plan source now =>
    ⟨commit (createUserSubscriptionFromPlanTx loc userId plan source now s.store) s.store, now,
      false⟩
  | .expire limit now => ⟨(expireDueSubscriptions m limit now s.store).2, now, true⟩
  | .invalidate id now =>
    ⟨commit (adminInvalidateUserSubscription id now s.store) s.store, now, false⟩
  | .delete id now => ⟨commit (adminDeleteUserSubscription id now s.store) s.store, now, false⟩

/-- **The law**: right after an expiry, a user without an open upgrade is in the group `g₀`. -/
def GroupRun.Restored (userId : Int) (g₀ : String) (s : GroupRun) : Prop :=
  s.swept = true → (∀ r ∈ s.store.subs, ¬ r.IsUpgrade userId s.clock) → s.store.groups userId = g₀

def UserSubscription.Holds (sub : UserSubscription) : Prop :=
  sub.status = .active ∧ sub.upgradeGroup ≠ ""

open UserSubscription

/-- **The condition on a call**: the user buys an upgrade only while they hold no other one, and one
that ends later; an expiry reaches the user's due rows. -/
def GroupRun.Orderly (loc : Location) (userId : Int) (s : GroupRun) : GroupEvent → Prop
  | .create buyer plan _ now => buyer = userId → trimSpace plan.upgradeGroup ≠ "" →
      (∀ r ∈ s.store.subs, r.userId = userId → ¬ r.Holds) ∧
        ∀ endUnix, calcPlanEndTime loc now plan = .ok endUnix → now < endUnix ∧ 0 < endUnix
  | .expire limit now => (∃ r ∈ s.store.subs, r.userId = userId ∧ r.IsDue now) →
      userId ∈ dueUsers limit now s.store
  | .invalidate .. => True
  | .delete .. => True

def GroupRun.Forward (s : GroupRun) (e : GroupEvent) : Prop := s.clock ≤ e.now
deriving Decidable

/-! ## One user -/

def GroupStore.rowsOf (st : GroupStore) (userId : Int) : Set UserSubscription :=
  {r | r ∈ st.subs ∧ r.userId = userId}

/-- **What holds of one user along an orderly run**: at most one row holds an upgrade, and every row
remembers `g₀`. -/
structure Settled (g₀ : String) (clock : Int) (rows : Set UserSubscription) (group : String) :
    Prop where
  trimmed : ∀ r ∈ rows, trimSpace r.upgradeGroup = r.upgradeGroup
  prev : ∀ r ∈ rows, r.upgradeGroup ≠ "" →
    r.prevUserGroup = if r.upgradeGroup = g₀ then "" else g₀
  one : ∀ r ∈ rows, ∀ r' ∈ rows, r.Holds → r'.Holds → r = r'
  idle : (∀ r ∈ rows, ¬ r.Holds) → group = g₀
  busy : ∀ r ∈ rows, r.Holds → (group = g₀ ∨ group = r.upgradeGroup) ∧ 0 < r.endTime
  ended : ∀ r ∈ rows, r.status = .expired → r.endTime ≤ clock
  before : ∀ r ∈ rows, ∀ r' ∈ rows, r.status = .expired → r.upgradeGroup ≠ "" → r'.Holds →
    r.endTime < r'.endTime

section Settled

variable {g₀ group : String} {clock now : Int} {rows : Set UserSubscription}
  {sub : UserSubscription}

theorem Settled.mono (h : Settled g₀ clock rows group) (hle : clock ≤ now) :
    Settled g₀ now rows group :=
  { h with ended := fun r hr he => le_trans (h.ended r hr he) hle }

/-- **A new row**, which may hold an upgrade while no other one does. -/
theorem Settled.insert {group' : String} (h : Settled g₀ clock rows group)
    (hact : sub.status = .active) (htrim : trimSpace sub.upgradeGroup = sub.upgradeGroup)
    (hplain : sub.upgradeGroup = "" → group' = group)
    (hup : sub.upgradeGroup ≠ "" → (∀ r ∈ rows, ¬ r.Holds) ∧ group' = sub.upgradeGroup ∧
      sub.prevUserGroup = (if group ≠ sub.upgradeGroup then group else "") ∧
      clock < sub.endTime ∧ 0 < sub.endTime) : Settled g₀ clock (insert sub rows) group' := by
  have hne : sub.status ≠ .expired := by rw [hact]; decide
  have hfree : ∀ r ∈ rows, sub.Holds → ¬ r.Holds := fun r hr hh => (hup hh.2).1 r hr
  refine ⟨?_, ?_, ?_, ?_, ?_, ?_, ?_⟩
  · rintro r (rfl | hr)
    · exact htrim
    · exact h.trimmed r hr
  · rintro r (rfl | hr) hr'
    · obtain ⟨hnone, -, hprev, -⟩ := hup hr'
      rw [hprev, h.idle hnone]
      simp only [ne_eq, ite_not, eq_comm]
    · exact h.prev r hr hr'
  · rintro r (rfl | hr) r' (rfl | hr') hh hh'
    · rfl
    · exact absurd hh' (hfree r' hr' hh)
    · exact absurd hh (hfree r hr hh')
    · exact h.one r hr r' hr' hh hh'
  · intro hall
    have hempty : sub.upgradeGroup = "" := by
      by_contra hne
      exact hall sub (Set.mem_insert _ _) ⟨hact, hne⟩
    rw [hplain hempty]
    exact h.idle fun r hr => hall r (Set.mem_insert_of_mem _ hr)
  · rintro r (rfl | hr) hh
    · exact ⟨.inr (hup hh.2).2.1, (hup hh.2).2.2.2.2⟩
    · by_cases hempty : sub.upgradeGroup = ""
      · rw [hplain hempty]
        exact h.busy r hr hh
      · exact absurd hh ((hup hempty).1 r hr)
  · rintro r (rfl | hr) he
    · exact absurd he hne
    · exact h.ended r hr he
  · rintro r (rfl | hr) r' (rfl | hr') he hu hh
    · exact absurd he hne
    · exact absurd he hne
    · exact lt_of_le_of_lt (h.ended r hr he) (hup hh.2).2.2.2.1
    · exact h.before r hr r' hr' he hu hh

/-- The group of the user after `downgradeUserGroupForSubscriptionTx`. -/
def downgradedGroup (other : Prop) [Decidable other] (sub : UserSubscription) (current : String) :
    String :=
  if trimSpace sub.upgradeGroup = "" ∨ current ≠ trimSpace sub.upgradeGroup ∨ other ∨
      trimSpace sub.prevUserGroup = "" ∨ trimSpace sub.prevUserGroup = current then current
  else trimSpace sub.prevUserGroup

variable (hg : trimSpace g₀ = g₀) (hne : g₀ ≠ "")

include hg in
theorem Settled.downgradedGroup_cases (h : Settled g₀ clock rows group) (hsub : sub ∈ rows)
    (other : Prop) [Decidable other] :
    downgradedGroup other sub group = group ∨ downgradedGroup other sub group = g₀ := by
  unfold downgradedGroup
  split
  · exact .inl rfl
  · rename_i hcond
    simp only [not_or] at hcond
    obtain ⟨hup, -, -, hprev, -⟩ := hcond
    rw [h.trimmed sub hsub] at hup
    rw [h.prev sub hsub hup] at hprev ⊢
    split at hprev
    · exact absurd rfl hprev
    · rename_i hneq
      rw [if_neg hneq]
      exact .inr hg

include hg hne in
theorem Settled.downgradedGroup_of_holds (h : Settled g₀ clock rows group) (hsub : sub ∈ rows)
    (hholds : sub.Holds) {other : Prop} [Decidable other] (hother : ¬ other) :
    downgradedGroup other sub group = g₀ := by
  rcases (h.busy sub hsub hholds).1 with hgroup | hgroup
  · rcases h.downgradedGroup_cases hg hsub other with heq | heq
    · rw [heq, hgroup]
    · exact heq
  · by_cases heq : group = g₀
    · rcases h.downgradedGroup_cases hg hsub other with heq' | heq'
      · rw [heq', heq]
      · exact heq'
    · -- the group is the bought one, and the row remembers the old one
      have hprev : trimSpace sub.prevUserGroup = g₀ := by
        rw [h.prev sub hsub hholds.2, if_neg (hgroup ▸ heq), hg]
      unfold downgradedGroup
      rw [h.trimmed sub hsub, hprev, if_neg]
      simp only [not_or, not_not]
      exact ⟨hholds.2, hgroup, hother, hne, Ne.symm heq⟩

include hg hne in
/-- **A row that is cancelled or deleted** hands the group over as it should. -/
theorem Settled.release (h : Settled g₀ clock rows group) (hsub : sub ∈ rows)
    {rows' : Set UserSubscription} (hrows : ∀ r ∈ rows', (r ∈ rows ∧ r ≠ sub) ∨ r = sub.cancel now)
    (hkeep : ∀ r ∈ rows, r ≠ sub → r ∈ rows') {other : Prop} [Decidable other]
    (hother : other → ∃ r ∈ rows, r ≠ sub ∧ r.Holds) :
    Settled g₀ clock rows' (downgradedGroup other sub group) := by
  have hcancel : ∀ {r : UserSubscription}, r = sub.cancel now →
      ¬ r.Holds ∧ r.status ≠ .expired := by
    rintro r rfl
    exact ⟨fun hh => (by cases hh.1), (by rintro ⟨⟩)⟩
  have hold : ∀ r ∈ rows', r.Holds ∨ r.status = .expired → r ∈ rows ∧ r ≠ sub := by
    intro r hr hcase
    rcases hrows r hr with hr | hr
    · exact hr
    · rcases hcase with hh | he
      · exact absurd hh (hcancel hr).1
      · exact absurd he (hcancel hr).2
  have hgroup := h.downgradedGroup_cases hg hsub other
  refine ⟨?_, ?_, ?_, ?_, ?_, ?_, ?_⟩
  · intro r hr
    rcases hrows r hr with ⟨hr, -⟩ | rfl
    · exact h.trimmed r hr
    · exact h.trimmed sub hsub
  · intro r hr hup
    rcases hrows r hr with ⟨hr, -⟩ | rfl
    · exact h.prev r hr hup
    · exact h.prev sub hsub hup
  · intro r hr r' hr' hh hh'
    exact h.one r (hold r hr (.inl hh)).1 r' (hold r' hr' (.inl hh')).1 hh hh'
  · intro hall
    by_cases hholds : sub.Holds
    · refine h.downgradedGroup_of_holds hg hne hsub hholds fun ho => ?_
      obtain ⟨r, hr, hne', hh⟩ := hother ho
      exact hne' (h.one r hr sub hsub hh hholds)
    · have hidle : group = g₀ := by
        refine h.idle fun r hr hh => ?_
        by_cases hr' : r = sub
        · exact hholds (hr' ▸ hh)
        · exact hall r (hkeep r hr hr') hh
      rcases hgroup with heq | heq
      · rw [heq, hidle]
      · exact heq
  · intro r hr hh
    obtain ⟨hbusy, hpos⟩ := h.busy r (hold r hr (.inl hh)).1 hh
    refine ⟨?_, hpos⟩
    rcases hgroup with heq | heq
    · rw [heq]; exact hbusy
    · exact .inl heq
  · intro r hr he
    exact h.ended r (hold r hr (.inr he)).1 he
  · intro r hr r' hr' he hup hh
    exact h.before r (hold r hr (.inr he)).1 r' (hold r' hr' (.inl hh)).1 he hup hh

def UserSubscription.expireIf (now : Int) (r : UserSubscription) : UserSubscription :=
  if r.IsDue now then r.expire else r

def expiredGroup (last : Option UserSubscription) (current : String) : String :=
  match last with
  | none => current
  | some e =>
    if trimSpace e.upgradeGroup = "" ∨ trimSpace e.prevUserGroup = "" then current
    else if current ≠ trimSpace e.upgradeGroup ∨ current = trimSpace e.prevUserGroup then current
    else trimSpace e.prevUserGroup

def IsLastExpired (rows : Set UserSubscription) : Option UserSubscription → Prop
  | none => ∀ r ∈ rows, r.status = .expired → r.upgradeGroup = ""
  | some e => e ∈ rows ∧ e.status = .expired ∧ e.upgradeGroup ≠ "" ∧
      ∀ r ∈ rows, r.status = .expired → r.upgradeGroup ≠ "" → r.endTime ≤ e.endTime

theorem expireIf_cases (now : Int) (r : UserSubscription) :
    (r.IsDue now ∧ r.expireIf now = r.expire) ∨ (¬ r.IsDue now ∧ r.expireIf now = r) := by
  unfold expireIf
  by_cases hdue : r.IsDue now
  · exact .inl ⟨hdue, if_pos hdue⟩
  · exact .inr ⟨hdue, if_neg hdue⟩

theorem UserSubscription.Holds.of_expireIf {r : UserSubscription} (h : (r.expireIf now).Holds) :
    r.Holds ∧ ¬ r.IsDue now ∧ r.expireIf now = r := by
  rcases expireIf_cases now r with ⟨-, heq⟩ | ⟨hdue, heq⟩
  · rw [heq] at h
    cases h.1
  · rw [heq] at h
    exact ⟨h, hdue, heq⟩

section

variable (now : Int) (r : UserSubscription)

theorem expireIf_eq : r.expireIf now = { r with status := (r.expireIf now).status } := by
  rcases expireIf_cases now r with ⟨-, heq⟩ | ⟨-, heq⟩
  · rw [heq]; rfl
  · rw [heq]

@[simp] theorem expireIf_upgradeGroup :
    (r.expireIf now).upgradeGroup = r.upgradeGroup := by rw [expireIf_eq]

@[simp] theorem expireIf_prevUserGroup :
    (r.expireIf now).prevUserGroup = r.prevUserGroup := by rw [expireIf_eq]

@[simp] theorem expireIf_endTime : (r.expireIf now).endTime = r.endTime := by rw [expireIf_eq]

@[simp] theorem expireIf_userId : (r.expireIf now).userId = r.userId := by rw [expireIf_eq]

theorem not_isDue_expireIf : ¬ (r.expireIf now).IsDue now := by
  rcases expireIf_cases now r with ⟨-, heq⟩ | ⟨hdue, heq⟩
  · rw [heq]
    rintro ⟨⟨⟩, -⟩
  · rw [heq]
    exact hdue

end

theorem expiredGroup_self {last : Option UserSubscription}
    (htrim : ∀ e, last = some e → trimSpace e.upgradeGroup = e.upgradeGroup)
    (hprev : ∀ e, last = some e → e.upgradeGroup ≠ "" →
      e.prevUserGroup = if e.upgradeGroup = g₀ then "" else g₀) : expiredGroup last g₀ = g₀ := by
  cases last with
  | none => rfl
  | some e =>
    simp only [expiredGroup, htrim e rfl]
    by_cases hup : e.upgradeGroup = ""
    · rw [if_pos (.inl hup)]
    · by_cases heq : e.upgradeGroup = g₀
      · have hempty : trimSpace e.prevUserGroup = "" := by
          rw [hprev e rfl hup, if_pos heq]; rfl
        rw [if_pos (.inr hempty)]
      · have hcond : g₀ ≠ e.upgradeGroup ∨ g₀ = trimSpace e.prevUserGroup :=
          .inl (Ne.symm heq)
        rw [if_pos hcond, ite_self]

include hg hne in
/-- **When no upgrade is open any more**, the row that expired last moves the user back to `g₀`. -/
theorem Settled.expiredGroup_eq (h : Settled g₀ clock rows group) {last : Option UserSubscription}
    (hlast : IsLastExpired (Set.image (expireIf now) rows) last)
    (hall : ∀ r ∈ rows, ¬ (r.expireIf now).Holds) : expiredGroup last group = g₀ := by
  have htrim : ∀ e, last = some e → trimSpace e.upgradeGroup = e.upgradeGroup := by
    rintro e rfl
    obtain ⟨⟨r, hr, rfl⟩, -⟩ := hlast
    rw [expireIf_upgradeGroup]
    exact h.trimmed r hr
  have hprev : ∀ e, last = some e → e.upgradeGroup ≠ "" →
      e.prevUserGroup = if e.upgradeGroup = g₀ then "" else g₀ := by
    rintro e rfl hup
    obtain ⟨⟨r, hr, rfl⟩, -⟩ := hlast
    rw [expireIf_upgradeGroup] at hup ⊢
    rw [expireIf_prevUserGroup]
    exact h.prev r hr hup
  by_cases hgroup : group = g₀
  · rw [hgroup]
    exact expiredGroup_self htrim hprev
  · -- the bought group belongs to the row that held the upgrade and has just expired
    obtain ⟨r, hr, hh⟩ : ∃ r ∈ rows, r.Holds := by
      by_contra hno
      push Not at hno
      exact hgroup (h.idle hno)
    have hup : group = r.upgradeGroup := (h.busy r hr hh).1.resolve_left hgroup
    have hexp : (r.expireIf now).status = .expired := by
      rcases expireIf_cases now r with ⟨-, heq⟩ | ⟨-, heq⟩
      · rw [heq]; rfl
      · exact absurd (show (r.expireIf now).Holds by rw [heq]; exact hh) (hall r hr)
    cases last with
    | none =>
      have hempty := hlast _ ⟨r, hr, rfl⟩ hexp
      rw [expireIf_upgradeGroup] at hempty
      exact absurd hempty hh.2
    | some e =>
      obtain ⟨⟨x, hx, rfl⟩, hxe, hxu, hmax⟩ := hlast
      have hmax' := hmax _ ⟨r, hr, rfl⟩ hexp (by rw [expireIf_upgradeGroup]; exact hh.2)
      rw [expireIf_endTime, expireIf_endTime] at hmax'
      rw [expireIf_upgradeGroup] at hxu
      -- an earlier expired row ends before it, so the last one is that row itself
      have hxr : x = r := by
        rcases expireIf_cases now x with ⟨hdue, -⟩ | ⟨-, heq⟩
        · exact h.one x hx r hr ⟨hdue.1, hxu⟩ hh
        · rw [heq] at hxe
          exact absurd (h.before x hx r hr hxe hxu hh) (by omega)
      subst hxr
      have hprev' : trimSpace (x.expireIf now).prevUserGroup = g₀ := by
        rw [expireIf_prevUserGroup, h.prev x hx hxu, if_neg (hup ▸ hgroup), hg]
      simp only [expiredGroup, htrim _ rfl, hprev']
      rw [expireIf_upgradeGroup, if_neg (not_or.mpr ⟨hxu, hne⟩),
        if_neg (not_or.mpr ⟨not_not.mpr hup, hgroup⟩)]

include hg hne in
theorem Settled.expire (h : Settled g₀ clock rows group) (hle : clock ≤ now) {group' : String}
    (hopen : (∃ r ∈ rows, (r.expireIf now).Holds ∧ r.endTime > now) → group' = group)
    (hclosed : (∀ r ∈ rows, (r.expireIf now).Holds → r.endTime ≤ now) →
      ∃ last, IsLastExpired (Set.image (expireIf now) rows) last ∧
        group' = expiredGroup last group) :
    Settled g₀ now (Set.image (expireIf now) rows) group' := by
  refine ⟨?_, ?_, ?_, ?_, ?_, ?_, ?_⟩
  · rintro _ ⟨r, hr, rfl⟩
    rw [expireIf_upgradeGroup]
    exact h.trimmed r hr
  · rintro _ ⟨r, hr, rfl⟩ hup
    rw [expireIf_upgradeGroup] at hup ⊢
    rw [expireIf_prevUserGroup]
    exact h.prev r hr hup
  · rintro _ ⟨r, hr, rfl⟩ _ ⟨r', hr', rfl⟩ hh hh'
    rw [h.one r hr r' hr' hh.of_expireIf.1 hh'.of_expireIf.1]
  · intro hall
    have hall' : ∀ r ∈ rows, ¬ (r.expireIf now).Holds := fun r hr => hall _ ⟨r, hr, rfl⟩
    obtain ⟨last, hlast, rfl⟩ := hclosed fun r hr hh => absurd hh (hall' r hr)
    exact h.expiredGroup_eq hg hne hlast hall'
  · rintro _ ⟨r, hr, rfl⟩ hh
    obtain ⟨hh', hdue, heq⟩ := hh.of_expireIf
    obtain ⟨hbusy, hpos⟩ := h.busy r hr hh'
    have hend : r.endTime > now := by
      by_contra hnot
      exact hdue ⟨hh'.1, hpos, by omega⟩
    rw [hopen ⟨r, hr, hh, hend⟩, heq]
    exact ⟨hbusy, hpos⟩
  · rintro _ ⟨r, hr, rfl⟩ he
    rw [expireIf_endTime]
    rcases expireIf_cases now r with ⟨hdue, -⟩ | ⟨-, heq⟩
    · exact hdue.2.2
    · rw [heq] at he
      exact le_trans (h.ended r hr he) hle
  · rintro _ ⟨r, hr, rfl⟩ _ ⟨r', hr', rfl⟩ he hup hh
    obtain ⟨hh', hdue', -⟩ := hh.of_expireIf
    rw [expireIf_upgradeGroup] at hup
    rw [expireIf_endTime, expireIf_endTime]
    rcases expireIf_cases now r with ⟨hdue, -⟩ | ⟨-, heq⟩
    · exact absurd (h.one r hr r' hr' ⟨hdue.1, hup⟩ hh' ▸ hdue) hdue'
    · rw [heq] at he
      exact h.before r hr r' hr' he hup hh'

end Settled

/-! ## What the functions do to the store -/

section Store

variable {loc : Location} {userId now : Int} {plan : SubscriptionPlan} {source g₀ : String}
  {st st' : GroupStore} {sub : UserSubscription}

def GroupStore.Moves (st st' : GroupStore) (userId : Int) (group : String) : Prop :=
  st'.subs = st.subs ∧ st'.groups = Function.update st.groups userId group

theorem moves_self (st : GroupStore) (userId : Int) : st.Moves st userId (st.groups userId) :=
  ⟨rfl, (update_eq_self userId st.groups).symm⟩

theorem GroupStore.Moves.ite {c : Prop} [Decidable c] {group : String}
    (h : ¬ c → st.Moves st' userId group) :
    st.Moves (if c then st else st') userId (if c then st.groups userId else group) := by
  split
  · exact moves_self st userId
  · exact h ‹_›

theorem moves_of_ite {c : Prop} [Decidable c] {group target : String}
    {res : Except Halt (String × GroupStore)} (h : ¬ c → res = .ok (target, st') →
      st.Moves st' userId group) (hres : (if c then .ok ("", st) else res) = .ok (target, st')) :
    st.Moves st' userId (if c then st.groups userId else group) := by
  split at hres
  · cases hres
    rw [if_pos ‹_›]
    exact moves_self st userId
  · rw [if_neg ‹_›]
    exact h ‹_› hres

theorem downgrade_eq_ok {target : String}
    (h : downgradeUserGroupForSubscriptionTx sub now st = .ok (target, st')) :
    st.Moves st' sub.userId
      (downgradedGroup (∃ r ∈ st.subs.rows, r.IsUpgrade sub.userId now ∧ r.id ≠ sub.id) sub
        (st.groups sub.userId)) := by
  rw [downgradedGroup, ite_or, ite_or, ite_or]
  refine moves_of_ite (fun _ h => ?_) h
  obtain ⟨current, hcur, h⟩ := bind_eq_ok.mp h
  obtain ⟨-, hcur⟩ := ite_error_eq_ok.mp hcur
  cases hcur
  refine moves_of_ite (fun _ h => moves_of_ite (fun _ h => moves_of_ite (fun _ h => ?_) h) h) h
  cases h
  exact ⟨rfl, rfl⟩

theorem expireUser_eq (now userId : Int) (st : GroupStore) :
    (expireUser now st userId).subs = expiredSubs now userId st ∧
      (expireUser now st userId).groups = Function.update st.groups userId
        (if ∃ r ∈ (expiredSubs now userId st).rows, r.IsUpgrade userId now then st.groups userId
          else expiredGroup
            (latest (expiredUpgrades (st.withSubs (expiredSubs now userId st)) userId))
            (st.groups userId)) := by
  change (st.withSubs (expiredSubs now userId st)).Moves (expireUser now st userId) userId _
  refine .ite fun _ => ?_
  cases latest (expiredUpgrades (st.withSubs (expiredSubs now userId st)) userId) with
  | none => exact moves_self ..
  | some e => exact .ite fun _ => .ite fun _ => ⟨rfl, rfl⟩

theorem mem_expiredSubs {r : UserSubscription} : r ∈ expiredSubs now userId st ↔
      ∃ a ∈ st.subs, r = if a.userId = userId then a.expireIf now else a := by
  rw [expiredSubs, mem_updateWhere]
  refine exists_congr fun a => and_congr_right fun _ => ?_
  unfold expireIf
  by_cases huser : a.userId = userId
  · by_cases hdue : a.IsDue now <;> simp [huser, hdue, eq_comm]
  · simp [huser, eq_comm]

/-- The order `end_time desc, id desc` is total and transitive. -/
instance : Std.Total fun a b : UserSubscription => endsBefore b a :=
  ⟨fun a b => by unfold endsBefore; omega⟩

instance : IsTrans UserSubscription fun a b => endsBefore b a :=
  ⟨fun a b c hab hbc => by unfold endsBefore at *; omega⟩

theorem latest_eq_some {subs : List UserSubscription} {e : UserSubscription}
    (h : latest subs = some e) : e ∈ subs ∧ ∀ r ∈ subs, r.endTime ≤ e.endTime := by
  unfold latest at h
  have hperm := perm_insertionSort (fun a b => endsBefore b a) subs
  have hsorted := pairwise_insertionSort (fun a b => endsBefore b a) subs
  generalize subs.insertionSort (fun a b => endsBefore b a) = sorted at h hperm hsorted
  cases sorted with
  | nil => cases h
  | cons x rest =>
    obtain rfl : x = e := by simpa using h
    refine ⟨hperm.subset mem_cons_self, fun r hr => ?_⟩
    rcases mem_cons.mp (hperm.symm.subset hr) with rfl | hr
    · exact le_refl _
    · have hle := (pairwise_cons.mp hsorted).1 r hr
      unfold endsBefore at hle
      omega

theorem latest_eq_none {subs : List UserSubscription} (h : latest subs = none) : subs = [] := by
  unfold latest at h
  have hperm := perm_insertionSort (fun a b => endsBefore b a) subs
  rw [head?_eq_none_iff] at h
  rw [h] at hperm
  exact hperm.symm.eq_nil

end Store

/-! ## Each call keeps the invariant -/

section Calls

variable {loc : Location} {userId now clock : Int} {g₀ : String} {st : GroupStore}

def GroupStore.Settles (st : GroupStore) (userId : Int) (g₀ : String) (clock : Int) : Prop :=
  Settled g₀ clock (st.rowsOf userId) (st.groups userId)

section

variable (h : st.Settles userId g₀ clock) (hle : clock ≤ now)

include h hle

theorem GroupStore.Settles.frame {st' : GroupStore}
    (hrows : ∀ r, r.userId = userId → (r ∈ st'.subs ↔ r ∈ st.subs))
    (hgroup : st'.groups userId = st.groups userId) : st'.Settles userId g₀ now := by
  have hset : st'.rowsOf userId = st.rowsOf userId :=
    Set.ext fun r => and_congr_left (hrows r)
  rw [GroupStore.Settles, hset, hgroup]
  exact h.mono hle

theorem settled_commit {α : Type} {res : Except Halt (α × GroupStore)}
    (hok : ∀ a st', res = .ok (a, st') → st'.Settles userId g₀ now) :
    (commit res st).Settles userId g₀ now := by
  cases res with
  | error e => exact h.mono hle
  | ok out => exact hok out.1 out.2 rfl

theorem settled_create {buyer : Int} {plan : SubscriptionPlan} {source : String}
    (horderly : buyer = userId → trimSpace plan.upgradeGroup ≠ "" →
      (∀ r ∈ st.subs, r.userId = userId → ¬ r.Holds) ∧
        ∀ endUnix, calcPlanEndTime loc now plan = .ok endUnix → now < endUnix ∧ 0 < endUnix) :
    (commit (createUserSubscriptionFromPlanTx loc buyer plan source now st) st).Settles userId g₀
      now := by
  refine settled_commit h hle fun row st₁ hres => ?_
  obtain ⟨-, -, -, endUnix, prev, hend, hins, hplain, hupgrade⟩ :=
    createUserSubscriptionFromPlanTx_eq_ok hres
  have hmem := fun r => mem_insert? (b := r) hins
  by_cases hbuyer : buyer = userId
  · subst hbuyer
    have hrows : st₁.rowsOf buyer =
        insert (newSubscription loc st.nextId buyer plan source now endUnix prev)
          (st.rowsOf buyer) := by
      ext r
      simp only [rowsOf, Set.mem_ofPred_eq, hmem, Set.mem_insert_iff]
      constructor
      · rintro ⟨hr | rfl, huser⟩
        · exact .inr ⟨hr, huser⟩
        · exact .inl rfl
      · rintro (rfl | ⟨hr, huser⟩)
        · exact ⟨.inr rfl, rfl⟩
        · exact ⟨.inl hr, huser⟩
    rw [GroupStore.Settles, hrows]
    refine (h.mono hle).insert rfl (trimSpace_trimSpace _) (fun hup => ?_) fun hup => ?_
    · rw [(hplain hup).1]
    · obtain ⟨hgroups, hprev⟩ := hupgrade hup
      obtain ⟨hfree, hends⟩ := horderly rfl hup
      rw [hgroups, update_self]
      exact ⟨fun r hr => hfree r hr.1 hr.2, rfl, hprev, hends endUnix hend⟩
  · refine h.frame hle (fun r huser => ?_) ?_
    · rw [hmem]
      constructor
      · rintro (hr | rfl)
        · exact hr
        · exact absurd huser hbuyer
      · exact .inl
    · by_cases hup : trimSpace plan.upgradeGroup = ""
      · rw [(hplain hup).1]
      · rw [(hupgrade hup).1, update_of_ne (Ne.symm hbuyer)]

end

variable (hg : trimSpace g₀ = g₀) (hne : g₀ ≠ "")

include hg hne in
theorem settled_release {sub : UserSubscription} {sid : Int} {st' : GroupStore}
    {other : Prop} [Decidable other] (kept : Prop)
    (h : st.Settles userId g₀ clock) (hle : clock ≤ now) (hsub : st.subs.find? sid = some sub)
    (hrows : ∀ r, r ∈ st'.subs ↔ (r ∈ st.subs ∧ r ≠ sub) ∨ (kept ∧ r = sub.cancel now))
    (hother : other → ∃ r ∈ st.subs, r ≠ sub ∧ r.userId = sub.userId ∧ r.Holds)
    (hgroups : st'.groups = Function.update st.groups sub.userId
      (downgradedGroup other sub (st.groups sub.userId))) : st'.Settles userId g₀ now := by
  have hmem : sub ∈ st.subs := (find?_eq_some.mp hsub).1
  by_cases huser : sub.userId = userId
  · subst huser
    rw [GroupStore.Settles, hgroups, update_self]
    have hrows' : ∀ r ∈ st'.rowsOf sub.userId,
        (r ∈ st.rowsOf sub.userId ∧ r ≠ sub) ∨ r = sub.cancel now := by
      rintro r ⟨hr, huser⟩
      exact ((hrows r).mp hr).imp (fun hr => ⟨⟨hr.1, huser⟩, hr.2⟩) And.right
    refine (h.mono hle).release hg hne ⟨hmem, rfl⟩ hrows' ?_ ?_
    · rintro r ⟨hr, huser⟩ hne
      exact ⟨(hrows r).mpr (.inl ⟨hr, hne⟩), huser⟩
    · intro ho
      obtain ⟨r, hr, hne, huser, hh⟩ := hother ho
      exact ⟨r, ⟨hr, huser⟩, hne, hh⟩
  · refine h.frame hle (fun r hr => ?_) ?_
    · rw [hrows]
      constructor
      · rintro (⟨hmem', -⟩ | ⟨-, rfl⟩)
        · exact hmem'
        · exact absurd hr huser
      · refine fun hmem' => .inl ⟨hmem', ?_⟩
        rintro rfl
        exact huser hr
    · rw [hgroups, update_of_ne (Ne.symm huser)]

include hg hne in
theorem settled_invalidate {sid : Int} (h : st.Settles userId g₀ clock) (hle : clock ≤ now) :
    (commit (adminInvalidateUserSubscription sid now st) st).Settles userId g₀ now := by
  refine settled_commit h hle fun msg st₁ hres => ?_
  obtain ⟨-, hres⟩ := ite_error_eq_ok.mp hres
  split at hres
  · cases hres
  rename_i sub hsub
  obtain ⟨⟨target, st₂⟩, hdown, hres⟩ := bind_eq_ok.mp hres
  cases hres
  obtain ⟨hsubs, hgroups⟩ := downgrade_eq_ok hdown
  have hid : (sub.cancel now).id = sid := (find?_eq_some.mp hsub).2
  refine settled_release hg hne True h hle hsub (fun r => ?_) ?_ hgroups
  · rw [hsubs, true_and, or_comm]
    exact mem_save_of_find? hid hsub
  · rintro ⟨r, hr, ⟨huser, hact, -, hup⟩, hrid⟩
    rcases (mem_save_of_find? hid hsub).mp hr with rfl | ⟨hr, hne⟩
    · exact absurd rfl hrid
    · exact ⟨r, hr, hne, huser, hact, hup⟩

include hg hne in
theorem settled_delete {sid : Int} (h : st.Settles userId g₀ clock) (hle : clock ≤ now) :
    (commit (adminDeleteUserSubscription sid now st) st).Settles userId g₀ now := by
  refine settled_commit h hle fun msg st₁ hres => ?_
  obtain ⟨-, hres⟩ := ite_error_eq_ok.mp hres
  split at hres
  · cases hres
  rename_i sub hsub
  obtain ⟨⟨target, st₂⟩, hdown, hres⟩ := bind_eq_ok.mp hres
  cases hres
  obtain ⟨hsubs, hgroups⟩ := downgrade_eq_ok hdown
  refine settled_release hg hne False h hle hsub (fun r => ?_) ?_ hgroups
  · rw [false_and, or_false, ← mem_erase_of_find? hsub, ← hsubs]
    rfl
  · rintro ⟨r, hr, ⟨huser, hact, -, hup⟩, hrid⟩
    refine ⟨r, hr, ?_, huser, hact, hup⟩
    rintro rfl
    exact hrid rfl

theorem rowsOf_expireUser (now userId : Int) (st : GroupStore) :
    (expireUser now st userId).rowsOf userId = Set.image (expireIf now) (st.rowsOf userId) := by
  ext r
  rw [rowsOf, (expireUser_eq now userId st).1]
  simp only [Set.mem_ofPred_eq, mem_expiredSubs]
  constructor
  · rintro ⟨⟨a, ha, rfl⟩, huser⟩
    have hau : a.userId = userId := by
      split at huser
      · assumption
      · exact huser
    rw [if_pos hau]
    exact ⟨a, ⟨ha, hau⟩, rfl⟩
  · rintro ⟨a, ⟨ha, hau⟩, rfl⟩
    exact ⟨⟨a, ha, (if_pos hau).symm⟩, (expireIf_userId now a).trans hau⟩

theorem isLastExpired_latest (userId : Int) (st : GroupStore) :
    IsLastExpired (st.rowsOf userId) (latest (expiredUpgrades st userId)) := by
  have hmem : ∀ r, r ∈ expiredUpgrades st userId ↔
      r ∈ st.subs ∧ r.userId = userId ∧ r.status = .expired ∧ r.upgradeGroup ≠ "" := by
    intro r
    simp [expiredUpgrades, mem_iff]
  cases hlast : latest (expiredUpgrades st userId) with
  | none =>
    rintro r ⟨hr, huser⟩ he
    by_contra hup
    have hr' := (hmem r).mpr ⟨hr, huser, he, hup⟩
    rw [latest_eq_none hlast] at hr'
    cases hr'
  | some e =>
    obtain ⟨he, hmax⟩ := latest_eq_some hlast
    obtain ⟨hsubs, huser, hexp, hup⟩ := (hmem e).mp he
    refine ⟨⟨hsubs, huser⟩, hexp, hup, ?_⟩
    rintro r ⟨hr, hruser⟩ hre hrup
    exact hmax r ((hmem r).mpr ⟨hr, hruser, hre, hrup⟩)

include hg hne in
theorem settled_expireUser (h : st.Settles userId g₀ clock) (hle : clock ≤ now) :
    (expireUser now st userId).Settles userId g₀ now := by
  have hrows := rowsOf_expireUser now userId st
  obtain ⟨hsubs, hgroups⟩ := expireUser_eq now userId st
  have hmem : ∀ r, r ∈ (expiredSubs now userId st).rows ∧ r.userId = userId ↔
      r ∈ Set.image (expireIf now) (st.rowsOf userId) := by
    intro r
    rw [← hrows, rowsOf, Set.mem_ofPred_eq, hsubs, mem_iff]
  rw [GroupStore.Settles, hrows, hgroups, update_self]
  refine h.expire hg hne hle ?_ ?_
  · rintro ⟨r, hr, hh, hend⟩
    obtain ⟨hr', huser⟩ := (hmem _).mpr ⟨r, hr, rfl⟩
    refine if_pos ⟨r.expireIf now, hr', huser, hh.1, ?_, hh.2⟩
    rw [expireIf_endTime]
    exact hend
  · intro hclosed
    have hno : ¬ ∃ r ∈ (expiredSubs now userId st).rows, r.IsUpgrade userId now := by
      rintro ⟨r, hr, huser, hact, hend, hup⟩
      obtain ⟨a, ha, rfl⟩ := (hmem r).mp ⟨hr, huser⟩
      have hle' := hclosed a ha ⟨hact, hup⟩
      rw [expireIf_endTime] at hend
      omega
    refine ⟨_, ?_, if_neg hno⟩
    rw [← hrows]
    have hset : (expireUser now st userId).rowsOf userId =
        (st.withSubs (expiredSubs now userId st)).rowsOf userId := by
      rw [rowsOf, hsubs]
      rfl
    rw [hset]
    exact isLastExpired_latest userId _

theorem expireUser_of_ne {other : Int} (hother : other ≠ userId) :
    (expireUser now st other).rowsOf userId = st.rowsOf userId ∧
      (expireUser now st other).groups userId = st.groups userId := by
  obtain ⟨hsubs, hgroups⟩ := expireUser_eq now other st
  constructor
  · ext r
    rw [rowsOf, hsubs, rowsOf]
    simp only [Set.mem_ofPred_eq, mem_expiredSubs]
    constructor
    · rintro ⟨⟨a, ha, rfl⟩, huser⟩
      split at huser
      · rename_i heq
        rw [expireIf_userId, heq] at huser
        exact absurd huser hother
      · rename_i hne
        rw [if_neg hne]
        exact ⟨ha, huser⟩
    · rintro ⟨hr, huser⟩
      have hne : r.userId ≠ other := by
        rw [huser]
        exact Ne.symm hother
      exact ⟨⟨r, hr, (if_neg hne).symm⟩, huser⟩
  · rw [hgroups, update_of_ne (Ne.symm hother)]

include hg hne in
theorem settled_expireUsers (users : List Int) (h : st.Settles userId g₀ now)
    (hdue : (∃ r ∈ st.rowsOf userId, r.IsDue now) → userId ∈ users) :
    let st' := users.foldl (expireUser now) st
    st'.Settles userId g₀ now ∧ ∀ r ∈ st'.rowsOf userId, ¬ r.IsDue now := by
  induction users generalizing st with
  | nil =>
    refine ⟨h, fun r hr hd => ?_⟩
    exact absurd (hdue ⟨r, hr, hd⟩) not_mem_nil
  | cons other users ih =>
    rw [foldl_cons]
    by_cases hother : other = userId
    · subst hother
      refine ih (settled_expireUser hg hne h le_rfl) ?_
      rintro ⟨r, hr, hd⟩
      rw [rowsOf_expireUser] at hr
      obtain ⟨a, -, rfl⟩ := hr
      exact absurd hd (not_isDue_expireIf now a)
    · obtain ⟨hrows, hgroup⟩ := @expireUser_of_ne userId now st other hother
      refine ih (by rw [GroupStore.Settles, hrows, hgroup]; exact h) ?_
      rw [hrows]
      intro hd
      rcases mem_cons.mp (hdue hd) with heq | hmem
      · exact absurd heq.symm hother
      · exact hmem

end Calls

theorem expireDueSubscriptions_snd (m : MapOrder Int) (limit now : Int) (st : GroupStore) :
    (expireDueSubscriptions m limit now st).2 =
      (m.order (dueUsers limit now st)).foldl (expireUser now) st := by
  have hfold : ∀ (users : List Int) (acc : Nat × GroupStore), (users.foldl (fun acc userId =>
        (acc.1 + (acc.2.subs.rows.filter fun r => r.userId = userId ∧ r.IsDue now).length,
          expireUser now acc.2 userId)) acc).2 = users.foldl (expireUser now) acc.2 := by
    intro users
    induction users with
    | nil => intro acc; rfl
    | cons u users ih => intro acc; exact ih _
  exact hfold _ _

/-- What holds in every state of an orderly run. -/
structure GroupRun.Inv (userId : Int) (g₀ : String) (s : GroupRun) : Prop where
  settled : Settled g₀ s.clock (s.store.rowsOf userId) (s.store.groups userId)
  swept : s.swept = true → ∀ r ∈ s.store.rowsOf userId, ¬ r.IsDue s.clock

/-- **The invariant implies the law**: an upgrade that is held is due or open. -/
theorem GroupRun.Inv.restored {userId : Int} {g₀ : String} {s : GroupRun}
    (h : s.Inv userId g₀) : s.Restored userId g₀ := by
  intro hswept hopen
  refine h.settled.idle fun r hr hh => ?_
  obtain ⟨-, hpos⟩ := h.settled.busy r hr hh
  have hdue := h.swept hswept r hr
  refine hopen r hr.1 ⟨hr.2, hh.1, ?_, hh.2⟩
  by_contra hle
  exact hdue ⟨hh.1, hpos, by omega⟩

theorem GroupRun.step_inv {loc : Location} {m : MapOrder Int} {userId : Int} {g₀ : String}
    (hg : trimSpace g₀ = g₀) (hne : g₀ ≠ "") {s : GroupRun} {e : GroupEvent}
    (h : s.Inv userId g₀) (horderly : s.Orderly loc userId e) (hforward : s.Forward e) :
    (s.step loc m e).Inv userId g₀ := by
  cases e with
  | create buyer plan source now =>
    exact ⟨settled_create h.settled hforward horderly, by rintro ⟨⟩⟩
  | expire limit now =>
    have hdue : (∃ r ∈ s.store.rowsOf userId, r.IsDue now) →
        userId ∈ m.order (dueUsers limit now s.store) := by
      rintro ⟨r, hr, hd⟩
      exact (m.perm _).mem_iff.mpr (horderly ⟨r, hr.1, hr.2, hd⟩)
    have hset : s.store.Settles userId g₀ now := h.settled.mono hforward
    have hexp := settled_expireUsers hg hne _ hset hdue
    rw [← expireDueSubscriptions_snd] at hexp
    exact ⟨hexp.1, fun _ => hexp.2⟩
  | invalidate sid now => exact ⟨settled_invalidate hg hne h.settled hforward, by rintro ⟨⟩⟩
  | delete sid now => exact ⟨settled_delete hg hne h.settled hforward, by rintro ⟨⟩⟩

/-- **The original group comes back** to a user who starts without subscriptions, after every expiry
at which they have no open upgrade, in every orderly run at non-decreasing times. -/
theorem group_restored (loc : Location) (m : MapOrder Int) (userId : Int) (g₀ : String)
    (hg : trimSpace g₀ = g₀) (hne : g₀ ≠ "") (st : GroupStore) (clock : Int)
    (hnone : ∀ r ∈ st.subs, r.userId ≠ userId) (hgroup : st.groups userId = g₀)
    (events : List GroupEvent) (hforward : AllSteps Forward (step loc m) ⟨st, clock, false⟩ events)
    (horderly : AllSteps (Orderly loc userId) (step loc m) ⟨st, clock, false⟩ events) :
    Always (Restored userId g₀) (step loc m) ⟨st, clock, false⟩ events := by
  have hempty : ∀ r, r ∉ st.rowsOf userId := fun r hr => hnone r hr.1 hr.2
  have hinv₀ : (mk st clock false).Inv userId g₀ := by
    refine ⟨⟨fun r hr => ?_, fun r hr => ?_, fun r hr => ?_, fun _ => hgroup, fun r hr => ?_,
      fun r hr => ?_, fun r hr => ?_⟩, by rintro ⟨⟩⟩
    all_goals exact absurd hr (hempty r)
  have hboth : AllSteps (fun s e => s.Orderly loc userId e ∧ s.Forward e) (step loc m)
      ⟨st, clock, false⟩ events := horderly.and hforward
  refine Always.mono (fun s => Inv.restored) ?_
  exact always_of_allSteps (fun s e hinv hC => GroupRun.step_inv hg hne hinv hC.1 hC.2) hinv₀ hboth

/-! ### A renewal -/

def vipPlan : SubscriptionPlan :=
  { id := 1, title := "vip", durationUnit := "custom", durationValue := 0, customSeconds := 100
    maxPurchasePerUser := 0, upgradeGroup := "vip", totalAmount := 0, quotaResetPeriod := "never"
    quotaResetCustomSeconds := 0 }

def defaultStore : GroupStore := ⟨.empty, fun _ => "default", 1⟩

/-- A user who renews after ten seconds stays in the group `vip` after both have expired. -/
theorem not_restored_renewal : ¬ (run (step .utc (MapOrder.given Int)) ⟨defaultStore, 0, false⟩
      [.create 1 vipPlan "order" 0, .create 1 vipPlan "order" 10, .expire 200 300]).Restored 1
        "default" := by
  intro h
  have hclosed : ∀ r ∈ (run (step .utc (MapOrder.given Int)) ⟨defaultStore, 0, false⟩
      [.create 1 vipPlan "order" 0, .create 1 vipPlan "order" 10, .expire 200 300]).store.subs.rows,
      ¬ r.IsUpgrade 1 300 := by decide
  have hgroup := h rfl hclosed
  revert hgroup
  decide

/-- A user who buys the plan once is moved back. -/
theorem group_restored_vipPlan : Always (Restored 1 "default") (step .utc (MapOrder.given Int))
      ⟨defaultStore, 0, false⟩ [.create 1 vipPlan "order" 0, .expire 200 300] := by
  refine group_restored .utc (MapOrder.given Int) 1 "default" (by decide) (by decide) defaultStore 0
    (fun _ hr => by cases hr) rfl _ ⟨by decide, by decide, trivial⟩ ⟨?_, ?_, trivial⟩
  · rintro - -
    refine ⟨fun _ hr => (by cases hr), fun endUnix hend => ?_⟩
    have hval : calcPlanEndTime .utc 0 vipPlan = .ok 100 := by decide
    rw [hval] at hend
    cases hend
    decide
  · intro _
    decide

end NomoApi
