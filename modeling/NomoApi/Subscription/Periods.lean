import NomoApi.Subscription.Consume
import NomoApi.Lib.Run

/-! # Requests and resets on one subscription

Requests pre-consume, and then settle or refund, in any order and with resets of the subscription in
between. A book of the requests is kept, in which a reset closes the period. The used amount should
be the sum of the net charges of the current period. -/

namespace NomoApi

open Table Option SubscriptionStore UserSubscription

/-! ## The system -/

structure Charge where
  requestId : String
  amount : Int
  net : Int
  finished : Bool
  current : Bool
  deriving DecidableEq

open Charge

def Charge.finish (c : Charge) (net : Int) : Charge := { c with net, finished := true }

def Charge.retire (c : Charge) : Charge := { c with current := false }

def Charge.inPeriod (c : Charge) : Int := if c.current then c.net else 0

structure Periods where
  store : SubscriptionStore
  charges : Table Charge requestId

open Periods

inductive PeriodEvent where
  | preConsume (requestId : String) (amount now : Int)
  | settle (requestId : String) (delta : Int)
  | refund (requestId : String)
  | reset (now : Int)
  deriving DecidableEq

def startsPeriod (env : SubscriptionEnv) (now : Int) (sub : UserSubscription) : Bool :=
  match (do resetDecision env sub (← env.getPlan sub.planId) now) with
  | .ok (.reset ..) => true
  | _ => false

def Periods.afterReset (env : SubscriptionEnv) (sid now : Int) (s : Periods) :
    Table Charge requestId :=
  match s.store.subs.find? sid with
  | none => s.charges
  | some sub =>
    if startsPeriod env now sub then
      s.charges.updateWhere (fun _ => true) retire (fun _ => rfl)
    else s.charges

def resetSubscription (env : SubscriptionEnv) (sid now : Int) (st : SubscriptionStore) :
    Except Halt SubscriptionStore :=
  match st.subs.find? sid with
  | none => .ok st
  | some sub => do
      let plan ← env.getPlan sub.planId
      let (_, st) ← maybeResetUserSubscriptionWithPlanTx env none sub plan now st
      return st

def Periods.openCharge (s : Periods) (requestId : String) : Option Charge :=
  (s.charges.find? requestId).filter fun c => ¬ c.finished

/-- **One transaction.** Request ids are used once, each request is settled or refunded once and not
settled below zero; anything else does not happen. -/
def Periods.step (env : SubscriptionEnv) (userId sid : Int) (s : Periods) : PeriodEvent → Periods
  | .preConsume requestId amount now =>
    if (s.store.records.find? requestId).isSome then s
    else
      match preConsumeUserSubscription env .none requestId userId "" 0 amount now s.store,
        (s.afterReset env sid now).insert? ⟨requestId, amount, amount, false, true⟩ with
      | .ok (_, store), some charges => ⟨store, charges⟩
      | _, _ => s
  | .settle requestId delta =>
    match s.openCharge requestId with
    | none => s
    | some c =>
      if c.amount + delta < 0 then s
      else
        match postConsumeUserSubscriptionDelta .none sid delta s.store with
        | .error _ => s
        | .ok (_, store) => ⟨store, s.charges.save (c.finish (c.amount + delta))⟩
  | .refund requestId =>
    match s.openCharge requestId with
    | none => s
    | some c =>
      match refundSubscriptionPreConsume .none requestId s.store with
      | (.error _, store) => ⟨store, s.charges⟩
      | (.ok _, store) => ⟨store, s.charges.save (c.finish 0)⟩
  | .reset now =>
    match resetSubscription env sid now s.store with
    | .error _ => s
    | .ok store => ⟨store, s.afterReset env sid now⟩

/-- **The law**: the used amount is the sum of the net charges of the current period. -/
def Periods.Exact (sid : Int) (s : Periods) : Prop :=
  (s.store.subs.find? sid).map (·.amountUsed) = some (s.charges.total inPeriod)
deriving Decidable

def UserSubscription.Ignores (sub : UserSubscription) (delta : Int) : Prop :=
  delta = 0 ∨ (sub.amountUsed = 0 ∧ delta < 0) ∨ ¬ sub.Fits delta

/-- **The condition on a transaction**: a settlement or refund is for a request of the current
period, or leaves the used amount alone. -/
def Periods.Timely (sid : Int) (s : Periods) : PeriodEvent → Prop
  | .preConsume .. => True
  | .reset _ => True
  | .settle requestId delta => ∀ c sub, s.openCharge requestId = some c →
      s.store.subs.find? sid = some sub → 0 ≤ c.amount + delta →
      c.current = true ∨ sub.Ignores delta
  | .refund requestId => ∀ c sub, s.openCharge requestId = some c →
      s.store.subs.find? sid = some sub → c.current = true ∨ sub.Ignores (-c.amount)

/-- **What holds along a run**: every request has its record, and an unfinished one can still be
refunded. -/
structure Periods.Inv (userId sid : Int) (s : Periods) : Prop where
  only : ∀ sub ∈ s.store.subs, sub.userId = userId → sub.id = sid
  known : ∀ c ∈ s.charges, (s.store.records.find? c.requestId).isSome
  nonneg : ∀ c ∈ s.charges, 0 ≤ c.net
  opened : ∀ c ∈ s.charges, c.finished = false →
    c.net = c.amount ∧ 0 < c.amount ∧ trimSpace c.requestId ≠ "" ∧
      s.store.records.find? c.requestId = some (consumedRecord c.requestId userId sid c.amount)

/-! ## The reset step -/

section Reset

variable {env : SubscriptionEnv} {now sid userId : Int} {sub : UserSubscription} {s : Periods}
  {requestId : String} {amount : Int}

theorem dueReset_amountUsed_eq : (dueReset env now sub).amountUsed =
      if startsPeriod env now sub then 0 else sub.amountUsed := by
  unfold dueReset startsPeriod
  cases (do resetDecision env sub (← env.getPlan sub.planId) now) with
  | error e => rfl
  | ok d => cases d <;> rfl

theorem mem_afterReset {c : Charge} (h : c ∈ s.afterReset env sid now) :
    ∃ c₀ ∈ s.charges, c = c₀ ∨ c = c₀.retire := by
  unfold afterReset at h
  split at h
  · exact ⟨c, h, .inl rfl⟩
  · split at h
    · obtain ⟨c₀, hc₀, hc⟩ := mem_updateWhere.mp h
      exact ⟨c₀, hc₀, .inr (by simpa using hc.symm)⟩
    · exact ⟨c, h, .inl rfl⟩

theorem total_afterReset (hsub : s.store.subs.find? sid = some sub) :
    (s.afterReset env sid now).total inPeriod =
      if startsPeriod env now sub then 0 else s.charges.total inPeriod := by
  unfold afterReset
  rw [hsub]
  dsimp only
  split
  · refine total_eq_zero fun c hc => ?_
    obtain ⟨c₀, -, rfl⟩ := mem_updateWhere.mp hc
    rfl
  · rfl

theorem resetSubscription_eq_ok {st st' : SubscriptionStore} (hsub : st.subs.find? sid = some sub)
    (h : resetSubscription env sid now st = .ok st') :
    st' = { st with subs := st.subs.save (dueReset env now sub) } := by
  unfold resetSubscription at h
  rw [hsub] at h
  obtain ⟨plan, hplan, h⟩ := bind_eq_ok.mp h
  obtain ⟨⟨sub', st₁⟩, hreset, h⟩ := bind_eq_ok.mp h
  obtain ⟨d, hd, -, rfl⟩ := maybeReset_eq_ok (find?_eq_some.mp hsub).1 hreset
  cases h
  rw [dueReset_eq hplan hd]

theorem Periods.Inv.mem_afterReset (hinv : s.Inv userId sid) {c : Charge}
    (hc : c ∈ s.afterReset env sid now) : (s.store.records.find? c.requestId).isSome ∧ 0 ≤ c.net ∧
      (c.finished = false → c.net = c.amount ∧ 0 < c.amount ∧ trimSpace c.requestId ≠ "" ∧
        s.store.records.find? c.requestId =
          some (consumedRecord c.requestId userId sid c.amount)) := by
  obtain ⟨c₀, hc₀, rfl | rfl⟩ := NomoApi.mem_afterReset hc
  · exact ⟨hinv.known c hc₀, hinv.nonneg c hc₀, hinv.opened c hc₀⟩
  · exact ⟨hinv.known c₀ hc₀, hinv.nonneg c₀ hc₀, hinv.opened c₀ hc₀⟩

theorem only_save {subs : SubscriptionTable} {sub' : UserSubscription}
    (honly : ∀ sub ∈ subs, sub.userId = userId → sub.id = sid)
    (hsub : subs.find? sid = some sub) (hid : sub'.id = sub.id) :
    ∀ r ∈ subs.save sub', r.userId = userId → r.id = sid := by
  have hkey : sub.id = sid := (find?_eq_some.mp hsub).2
  intro r hr huser
  obtain ⟨c, hc, hcr⟩ := mem_save.mp hr
  split at hcr
  · rw [← hcr, hid, hkey]
  · exact honly r (hcr ▸ hc) huser

theorem step_reset (hinv : s.Inv userId sid) (hexact : s.Exact sid) :
    (s.step env userId sid (.reset now)).Exact sid ∧
      (s.step env userId sid (.reset now)).Inv userId sid := by
  simp only [step]
  obtain ⟨sub, hsub, hused⟩ := map_eq_some_iff.mp hexact
  cases hres : resetSubscription env sid now s.store with
  | error e => exact ⟨hexact, hinv⟩
  | ok store =>
    obtain rfl := resetSubscription_eq_ok hsub hres
    have hid : (dueReset env now sub).id = sid := by
      rw [dueReset_id]
      exact (find?_eq_some.mp hsub).2
    constructor
    · show ((s.store.subs.save (dueReset env now sub)).find? sid).map _ = _
      rw [find?_save hid hsub, map_some, dueReset_amountUsed_eq, hused, total_afterReset hsub]
    · exact
        { only := only_save hinv.only hsub (dueReset_id env now sub)
          known := fun c hc => (hinv.mem_afterReset hc).1
          nonneg := fun c hc => (hinv.mem_afterReset hc).2.1
          opened := fun c hc => (hinv.mem_afterReset hc).2.2 }

theorem Periods.Exact.used (h : s.Exact sid) (hsub : s.store.subs.find? sid = some sub) :
    sub.amountUsed = s.charges.total inPeriod := by
  rw [Exact, hsub] at h
  simpa using h

theorem Charged.only {st st' : SubscriptionStore}
    {r : UserSubscription} (h : Charged env now requestId userId amount st st' sid r)
    (honly : ∀ sub ∈ st.subs, sub.userId = userId → sub.id = sid) :
    ∀ sub ∈ st'.subs, sub.userId = userId → sub.id = sid := by
  intro sub hsub huser
  by_contra hne
  have hrel := h.others sub.id hne
  rw [find?_key hsub] at hrel
  cases hbefore : st.subs.find? sub.id with
  | none => rw [hbefore] at hrel; cases hrel
  | some r₀ =>
    rw [hbefore] at hrel
    cases hrel with
    | some hreset =>
      obtain ⟨hmem, hid⟩ := find?_eq_some.mp hbefore
      have huser₀ : r₀.userId = userId := by
        rcases hreset with rfl | ⟨rfl, -⟩
        · exact huser
        · rw [← huser, dueReset_userId]
      exact hne (hid ▸ honly r₀ hmem huser₀)

theorem Periods.Inv.charge {store : SubscriptionStore}
    {r : UserSubscription} {charges : Table Charge Charge.requestId} (hinv : s.Inv userId sid)
    (hfresh : s.store.records.find? requestId = none)
    (hcharged : Charged env now requestId userId amount s.store store sid r)
    (hreq : trimSpace requestId ≠ "") (hpos : 0 < amount)
    (hins : (s.afterReset env sid now).insert? ⟨requestId, amount, amount, false, true⟩ =
      some charges) : (Periods.mk store charges).Inv userId sid := by
  have hother : ∀ c ∈ s.afterReset env sid now, c.requestId ≠ requestId := by
    rintro c hc rfl
    have hknown := (hinv.mem_afterReset hc).1
    rw [hfresh] at hknown
    cases hknown
  constructor
  · exact hcharged.only hinv.only
  · intro c hc
    rcases (mem_insert? hins).mp hc with hc | rfl
    · rw [hcharged.otherRecords _ (hother c hc)]
      exact (hinv.mem_afterReset hc).1
    · rw [hcharged.recorded]
      rfl
  · intro c hc
    rcases (mem_insert? hins).mp hc with hc | rfl
    · exact (hinv.mem_afterReset hc).2.1
    · exact hpos.le
  · intro c hc hopen
    rcases (mem_insert? hins).mp hc with hc | rfl
    · rw [hcharged.otherRecords _ (hother c hc)]
      exact (hinv.mem_afterReset hc).2.2 hopen
    · exact ⟨rfl, hpos, hreq, hcharged.recorded⟩

theorem step_preConsume (hinv : s.Inv userId sid) (hexact : s.Exact sid) :
    (s.step env userId sid (.preConsume requestId amount now)).Exact sid ∧
      (s.step env userId sid (.preConsume requestId amount now)).Inv userId sid := by
  simp only [step]
  by_cases hused : (s.store.records.find? requestId).isSome
  · rw [if_pos hused]
    exact ⟨hexact, hinv⟩
  rw [if_neg hused]
  have hfresh : s.store.records.find? requestId = none := by simpa using hused
  split
  · rename_i res store charges hpre hins
    obtain ⟨hreq, hpos⟩ := preConsumeUserSubscription_args hpre
    obtain ⟨-, r, hcharged⟩ := preConsumeUserSubscription_charged hfresh hpre
    -- the charged subscription is the user's only one
    have hkey := find?_eq_some.mp hcharged.before
    have hsid : res.userSubscriptionId = sid := by
      rw [← hkey.2]
      exact hinv.only r hkey.1 hcharged.user
    rw [hsid] at hcharged
    refine ⟨?_, hinv.charge hfresh hcharged hreq hpos hins⟩
    rw [Exact, hcharged.after, map_some, withUsed_amountUsed,
      dueReset_amountUsed_eq, hexact.used hcharged.before, total_insert? hins,
      total_afterReset hcharged.before]
    rfl
  · exact ⟨hexact, hinv⟩

end Reset

/-! ## Settlements and refunds -/

section Finish

variable {env : SubscriptionEnv} {sid userId : Int} {sub : UserSubscription} {s : Periods}
  {c : Charge} {requestId : String} {delta : Int}

theorem openCharge_eq_some : s.openCharge requestId = some c ↔
      s.charges.find? requestId = some c ∧ c.finished = false := by
  simp [openCharge, filter_eq_some_iff]

section

variable (hc : s.openCharge requestId = some c) (hsub : s.store.subs.find? sid = some sub)

include hc hsub

theorem forall_open_iff {P : Charge → UserSubscription → Prop} :
    (∀ c sub, s.openCharge requestId = some c → s.store.subs.find? sid = some sub → P c sub) ↔
      P c sub := by
  refine ⟨fun h => h c sub hc hsub, fun h c' sub' hc' hsub' => ?_⟩
  cases hc.symm.trans hc'
  cases hsub.symm.trans hsub'
  exact h

theorem timely_settle_iff : s.Timely sid (.settle requestId delta) ↔
      (0 ≤ c.amount + delta → c.current = true ∨ sub.Ignores delta) :=
  forall_open_iff hc hsub

theorem timely_refund_iff :
    s.Timely sid (.refund requestId) ↔ c.current = true ∨ sub.Ignores (-c.amount) :=
  forall_open_iff hc hsub

end

theorem Periods.Inv.inPeriod_nonneg (hinv : s.Inv userId sid) :
    ∀ c ∈ s.charges, 0 ≤ c.inPeriod := by
  intro c hc
  unfold inPeriod
  split
  · exact hinv.nonneg c hc
  · exact le_refl 0

theorem exact_finish (hinv : s.Inv userId sid) (hexact : s.Exact sid)
    (hc : s.charges.find? requestId = some c) (hopen : c.finished = false)
    (hsub : s.store.subs.find? sid = some sub) {store : SubscriptionStore}
    (hstore : store.subs.find? sid = some (sub.withUsed (newUsed sub.amountUsed delta)))
    (hnet : 0 ≤ c.amount + delta) :
    (mk store (s.charges.save (c.finish (c.amount + delta)))).Exact sid ↔
      c.current = true ∨ delta = 0 ∨ (sub.amountUsed = 0 ∧ delta < 0) := by
  obtain ⟨hmem, hid⟩ := find?_eq_some.mp hc
  obtain ⟨hnetc, -, -, -⟩ := hinv.opened c hmem hopen
  have hused : sub.amountUsed = s.charges.total inPeriod := hexact.used hsub
  have hle : c.inPeriod ≤ sub.amountUsed := by
    rw [hused]
    exact le_total hinv.inPeriod_nonneg hmem
  have hpos := hinv.inPeriod_nonneg c hmem
  have htotal : (s.charges.save (c.finish (c.amount + delta))).total inPeriod =
      sub.amountUsed - c.inPeriod + (c.finish (c.amount + delta)).inPeriod := by
    rw [hused]
    exact total_save (show (c.finish _).requestId = requestId from hid) hc _
  rw [Exact, hstore, htotal, map_some, withUsed_amountUsed, some.injEq]
  cases hcur : c.current with
  | true =>
    simp only [inPeriod, finish, hcur, if_true, hnetc] at hle hpos ⊢
    refine iff_of_true ?_ (.inl trivial)
    rw [newUsed_eq]
    split <;> omega
  | false =>
    simp only [inPeriod, finish, hcur, Bool.false_eq_true, if_false, false_or] at hle hpos ⊢
    rw [newUsed_eq]
    split <;> omega

theorem inv_finish (hinv : s.Inv userId sid) (hc : s.charges.find? requestId = some c)
    (store : SubscriptionStore) (honly : ∀ sub ∈ store.subs, sub.userId = userId → sub.id = sid)
    (hrec : (store.records.find? requestId).isSome)
    (hother : ∀ id, id ≠ requestId → store.records.find? id = s.store.records.find? id)
    {net : Int} (hnet : 0 ≤ net) : (mk store (s.charges.save (c.finish net))).Inv userId sid := by
  obtain ⟨hmem, rfl⟩ := find?_eq_some.mp hc
  -- a request of the new book is the finished one or another one from before
  have hcases : ∀ x ∈ s.charges.save (c.finish net),
      x = c.finish net ∨ (x ∈ s.charges ∧ x.requestId ≠ c.requestId) := by
    intro x hx
    obtain ⟨y, hy, hyx⟩ := mem_save.mp hx
    split at hyx
    · exact .inl hyx.symm
    · rename_i hne
      exact .inr (hyx ▸ ⟨hy, hne⟩)
  refine ⟨honly, fun x hx => ?_, fun x hx => ?_, fun x hx hopen => ?_⟩
  · rcases hcases x hx with rfl | ⟨hx, hne⟩
    · exact hrec
    · rw [hother _ hne]
      exact hinv.known x hx
  · rcases hcases x hx with rfl | ⟨hx, -⟩
    · exact hnet
    · exact hinv.nonneg x hx
  · rcases hcases x hx with rfl | ⟨hx, hne⟩
    · cases hopen
    · rw [hother _ hne]
      exact hinv.opened x hx hopen

variable (hsid : 0 < sid)

include hsid in
/-- **A settlement keeps the law exactly when it is timely.** -/
theorem step_settleDelta (hinv : s.Inv userId sid) (hexact : s.Exact sid) :
    ((s.step env userId sid (.settle requestId delta)).Exact sid ↔
        s.Timely sid (.settle requestId delta)) ∧
      (s.step env userId sid (.settle requestId delta)).Inv userId sid := by
  cases hopen : s.openCharge requestId with
  | none =>
    simp only [step, hopen]
    refine ⟨iff_of_true hexact fun _ _ hc => ?_, hinv⟩
    rw [hopen] at hc
    cases hc
  | some c =>
    obtain ⟨hc, hfin⟩ := openCharge_eq_some.mp hopen
    obtain ⟨sub, hsub, hused⟩ := map_eq_some_iff.mp hexact
    obtain ⟨hmem, hid⟩ := find?_eq_some.mp hc
    have hrec := hinv.known c hmem
    rw [hid] at hrec
    rw [timely_settle_iff hopen hsub]
    simp only [step, hopen]
    by_cases hneg : c.amount + delta < 0
    · rw [if_pos hneg]
      exact ⟨iff_of_true hexact (fun h => absurd h (by omega)), hinv⟩
    rw [if_neg hneg]
    have hnet : 0 ≤ c.amount + delta := by omega
    simp only [hnet, forall_true_left]
    by_cases hzero : delta = 0
    · -- a zero delta returns before the transaction
      subst hzero
      have hpost : postConsumeUserSubscriptionDelta .none sid 0 s.store = .ok ((), s.store) := by
        rw [postConsumeUserSubscriptionDelta, postConsumeUserSubscriptionDeltaIn,
          if_neg (by omega), if_pos rfl]
      have hnonneg : 0 ≤ sub.amountUsed := by
        rw [hused]
        exact le_trans (hinv.inPeriod_nonneg c hmem) (le_total hinv.inPeriod_nonneg hmem)
      have hsame := withUsed_newUsed_zero hnonneg
      rw [hpost]
      dsimp only
      rw [exact_finish hinv hexact hc hfin hsub (hsub.trans (congrArg some hsame.symm)) hnet]
      exact ⟨iff_of_true (.inr (.inl rfl)) (.inr (.inl rfl)),
        inv_finish hinv hc s.store hinv.only hrec (fun _ _ => rfl) hnet⟩
    by_cases hfits : sub.Fits delta
    · rw [postConsumeUserSubscriptionDelta_eq_ok hsid hzero hsub ⟨rfl, rfl, rfl, rfl⟩ hfits]
      dsimp only
      rw [exact_finish hinv hexact hc hfin hsub (find?_move hsub delta) hnet]
      refine ⟨?_, inv_finish hinv hc (s.store.move sub delta) (only_save hinv.only hsub rfl) hrec
        (fun _ _ => rfl) hnet⟩
      simp [Ignores, hfits]
    · obtain ⟨e, he⟩ := postConsumeUserSubscriptionDelta_eq_error hzero hsub
        (fun h => hfits h.2 : ¬ (DeltaFaults.none.Ok ∧ sub.Fits delta))
      rw [he]
      exact ⟨iff_of_true hexact (.inr (.inr (.inr hfits))), hinv⟩

include hsid in
/-- **A refund keeps the law exactly when it is timely.** -/
theorem step_refundCharge (hinv : s.Inv userId sid) (hexact : s.Exact sid) :
    ((s.step env userId sid (.refund requestId)).Exact sid ↔ s.Timely sid (.refund requestId)) ∧
      (s.step env userId sid (.refund requestId)).Inv userId sid := by
  cases hopen : s.openCharge requestId with
  | none =>
    simp only [step, hopen]
    refine ⟨iff_of_true hexact fun _ _ hc => ?_, hinv⟩
    rw [hopen] at hc
    cases hc
  | some c =>
    obtain ⟨hc, hfin⟩ := openCharge_eq_some.mp hopen
    obtain ⟨sub, hsub, -⟩ := map_eq_some_iff.mp hexact
    obtain ⟨hmem, rfl⟩ := find?_eq_some.mp hc
    obtain ⟨-, hpos, hreq, hrecord⟩ := hinv.opened c hmem hfin
    rw [timely_refund_iff hopen hsub]
    simp only [step, hopen]
    by_cases hfits : sub.Fits (-c.amount)
    · rw [refundSubscriptionPreConsume_marks hrecord rfl hpos hsub hreq hsid (by decide) hfits]
      dsimp only
      have hnet : 0 ≤ c.amount + -c.amount := by omega
      have hfinish := exact_finish hinv hexact hc hfin hsub (find?_move hsub (-c.amount)) hnet
      have honly : ∀ r ∈ (s.store.move sub (-c.amount)).subs, r.userId = userId → r.id = sid :=
        only_save hinv.only hsub rfl
      have hinv' : (mk ((s.store.move sub (-c.amount)).mark
          (consumedRecord c.requestId userId sid c.amount))
          (s.charges.save (c.finish (c.amount + -c.amount)))).Inv userId sid := by
        refine inv_finish hinv hc ((s.store.move sub (-c.amount)).mark
          (consumedRecord c.requestId userId sid c.amount)) honly ?_ (fun id hne => ?_) hnet
        · have hmarked := find?_mark
            (show (s.store.move sub (-c.amount)).records.find? c.requestId = _ from hrecord)
          rw [hmarked]
          rfl
        · exact find?_save_of_ne hne
      rw [show c.amount + -c.amount = 0 by omega] at hfinish hinv'
      refine ⟨?_, hinv'⟩
      simp only [Ignores, hfits, not_true_eq_false, or_false]
      exact hfinish
    · obtain ⟨e, he⟩ := refundSubscriptionPreConsume_fails (f := .none) hrecord rfl hpos hsub
        (fun h => hfits h.2)
      rw [he]
      exact ⟨iff_of_true hexact (.inr (.inr (.inr hfits))), hinv⟩

end Finish

/-- **Exactly when the used amount is that of the current period**, for pre-consumes, settlements,
refunds and resets in any order on a user's only subscription: iff all are timely. -/
theorem used_eq_current_iff (env : SubscriptionEnv) (userId sid : Int) (hsid : 0 < sid)
    (st : SubscriptionStore) (sub : UserSubscription) (hsub : st.subs.find? sid = some sub)
    (hnew : sub.amountUsed = 0) (honly : ∀ r ∈ st.subs, r.userId = userId → r.id = sid)
    (events : List PeriodEvent) : Always (Exact sid) (step env userId sid) ⟨st, .empty⟩ events ↔
      AllSteps (Timely sid) (step env userId sid) ⟨st, .empty⟩ events := by
  have hstep : ∀ (s : Periods) e, s.Inv userId sid → s.Exact sid →
      ((s.step env userId sid e).Exact sid ↔ s.Timely sid e) ∧
        (s.step env userId sid e).Inv userId sid := by
    intro s e hinv hexact
    cases e with
    | preConsume requestId amount now =>
      obtain ⟨hex, hinv'⟩ := step_preConsume hinv hexact
      exact ⟨iff_of_true hex trivial, hinv'⟩
    | settle requestId delta => exact step_settleDelta hsid hinv hexact
    | refund requestId => exact step_refundCharge hsid hinv hexact
    | reset now =>
      obtain ⟨hex, hinv'⟩ := step_reset hinv hexact
      exact ⟨iff_of_true hex trivial, hinv'⟩
  have hinv₀ : (mk st .empty).Inv userId sid :=
    ⟨honly, fun _ h => (by cases h), fun _ h => (by cases h), fun _ h => (by cases h)⟩
  have hexact₀ : (mk st .empty).Exact sid := by
    rw [Exact, hsub, map_some, hnew, total_empty]
  exact always_iff_allSteps (fun s e hinv hex _ => (hstep s e hinv hex).1)
    (fun s e hinv hex _ _ => (hstep s e hinv hex).2) hinv₀ hexact₀
    (allSteps_of_forall (fun _ _ => trivial : ∀ _ _, True) _ _)

/-! ### A settlement after a reset -/

def periodicSubscription : UserSubscription :=
  { id := 1, userId := 1, planId := 1, amountTotal := 100, amountUsed := 0, startTime := 0
    endTime := 1000, status := .active, source := "order", lastResetTime := 0, nextResetTime := 50
    upgradeGroup := "", prevUserGroup := "" }

def periodicEnv : SubscriptionEnv :=
  ⟨.utc, 100, fun id => .ok ⟨id, "basic", "month", 1, 0, 0, "", 100, "custom", 50⟩⟩

def periodicStore : SubscriptionStore := ⟨.singleton periodicSubscription, .empty⟩

/-- A request that is settled after the reset puts its difference into the new period. -/
theorem not_exact_settle_after_reset : ¬ (run (step periodicEnv 1 1) ⟨periodicStore, .empty⟩
      [.preConsume "a" 10 10, .reset 60, .settle "a" 5]).Exact 1 := by
  decide

/-- Settled before the reset, the same request keeps the law. -/
theorem used_eq_current_periodicStore :
    Always (Exact 1) (step periodicEnv 1 1) ⟨periodicStore, .empty⟩
      [.preConsume "a" 10 10, .settle "a" 5, .reset 60] := by
  refine (used_eq_current_iff periodicEnv 1 1 (by decide) periodicStore periodicSubscription rfl rfl
    ?_ _).mpr ⟨trivial, ?_, trivial, trivial⟩
  · intro r hr _
    rw [List.mem_singleton.mp hr]
    rfl
  · intro c sub hc _ _
    left
    have hcur : ((run (step periodicEnv 1 1) ⟨periodicStore, .empty⟩
        [.preConsume "a" 10 10]).openCharge "a").map (·.current) = some true := by decide
    rw [run_cons, run_nil, hc] at hcur
    simpa using hcur

end NomoApi
