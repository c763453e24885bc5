import NomoApi.Billing.Funding
import NomoApi.Lib.Run

/-! # Refunding a subscription charge with retries

`SubscriptionFunding.Refund` runs `RefundSubscriptionPreConsume` up to three times. The record is
marked in one transaction and the quota given back in another, so an attempt can commit the second
and fail the first, and the next attempt pays again. -/

namespace NomoApi

open List

def refundAttempt (requestId : String) (st : SubscriptionStore) (f : RefundFaults) :
    SubscriptionStore :=
  (refundSubscriptionPreConsume f requestId st).2

def SubscriptionFunding.refundCall (s : SubscriptionFunding) (st : SubscriptionStore)
    (f : Nat → RefundFaults) : SubscriptionStore :=
  (s.refund f st).2

def attemptsOf (f : Nat → RefundFaults) : List RefundFaults := (range maxAttempts).map f

/-- **The used amount after a list of attempts** on an unmarked record with charge `a`. -/
def usedAfter (a : Int) : List RefundFaults → Int → Int
  | [], used => used
  | f :: fs, used =>
    if f.Marks then newUsed used (-a)
    else if f.Pays then usedAfter a fs (newUsed used (-a))
    else usedAfter a fs used

/-- **At most one attempt pays**, up to the first that marks the record. -/
def PaidAtMostOnce : List RefundFaults → Prop
  | [] => True
  | f :: fs => f.Marks ∨ (f.Pays ∧ ∀ g ∈ fs, ¬ g.Pays) ∨ (¬ f.Pays ∧ PaidAtMostOnce fs)

/-- The tables hold the record and the subscription with a given status and used amount. -/
structure RefundView (requestId : String) (record : SubscriptionPreConsumeRecord)
    (sub : UserSubscription) (status : RecordStatus) (used : Int) (st : SubscriptionStore) :
    Prop where
  foundRecord : st.records.find? requestId = some { record with status := status }
  foundSub : st.subs.find? record.userSubscriptionId = some (sub.withUsed used)

/-! ## Arithmetic of the clamped refunds -/

theorem newUsed_nonneg (used delta : Int) : 0 ≤ newUsed used delta := by
  rw [newUsed_eq]; split <;> omega

section

variable {a used : Int}

theorem newUsed_neg_le (ha : 0 < a) (hused : 0 ≤ used) : newUsed used (-a) ≤ used := by
  rw [newUsed_eq]; split <;> omega

theorem newUsed_neg_lt (ha : 0 < a) (hused : 0 < used) : newUsed used (-a) < used := by
  rw [newUsed_eq]; split <;> omega

theorem usedAfter_le (ha : 0 < a) (hused : 0 ≤ used) (fs : List RefundFaults) :
    usedAfter a fs used ≤ used := by
  induction fs generalizing used with
  | nil => exact le_refl used
  | cons f fs ih =>
    unfold usedAfter
    split
    · exact newUsed_neg_le ha hused
    · split
      · exact le_trans (ih (newUsed_nonneg _ _)) (newUsed_neg_le ha hused)
      · exact ih hused

theorem usedAfter_lt (ha : 0 < a) (hused : 0 < used) {fs : List RefundFaults}
    (h : ∃ g ∈ fs, g.Pays) : usedAfter a fs used < used := by
  induction fs generalizing used with
  | nil => obtain ⟨g, hg, -⟩ := h; cases hg
  | cons f fs ih =>
    unfold usedAfter
    split
    · exact newUsed_neg_lt ha hused
    · split
      · exact lt_of_le_of_lt (usedAfter_le ha (newUsed_nonneg _ _) fs) (newUsed_neg_lt ha hused)
      · rename_i hpays
        obtain ⟨g, hg, hgp⟩ := h
        rcases mem_cons.mp hg with rfl | hg
        · exact absurd hgp hpays
        · exact ih hused ⟨g, hg, hgp⟩

theorem usedAfter_eq_self {fs : List RefundFaults} (h : ∀ g ∈ fs, ¬ g.Pays) :
    usedAfter a fs used = used := by
  induction fs with
  | nil => rfl
  | cons f fs ih =>
    have hf : ¬ f.Pays := h f mem_cons_self
    have hm : ¬ f.Marks := fun hm => hf hm.1
    unfold usedAfter
    rw [if_neg hm, if_neg hf]
    exact ih fun g hg => h g (mem_cons_of_mem _ hg)

theorem sub_usedAfter_le (ha : 0 < a) (hle : used ≤ a) (fs : List RefundFaults) :
    used - usedAfter a fs used ≤ a := by
  suffices h : usedAfter a fs used = used ∨ 0 ≤ usedAfter a fs used by
    rcases h with h | h <;> omega
  have hnonneg : ∀ {fs : List RefundFaults} {u : Int}, 0 ≤ u → 0 ≤ usedAfter a fs u := by
    intro fs
    induction fs with
    | nil => exact id
    | cons f fs ih =>
      intro u hu
      unfold usedAfter
      split
      · exact newUsed_nonneg _ _
      · split
        · exact ih (newUsed_nonneg _ _)
        · exact ih hu
  induction fs with
  | nil => exact .inl rfl
  | cons f fs ih =>
    unfold usedAfter
    split
    · exact .inr (newUsed_nonneg _ _)
    · split
      · exact .inr (hnonneg (newUsed_nonneg _ _))
      · exact ih

/-- **More than the charge comes back iff two attempts pay**, when more than it is used. -/
theorem sub_usedAfter_le_iff (ha : 0 < a) (hgt : a < used)
    (fs : List RefundFaults) : used - usedAfter a fs used ≤ a ↔ PaidAtMostOnce fs := by
  have hnew : newUsed used (-a) = used - a := by rw [newUsed_eq]; split <;> omega
  induction fs with
  | nil =>
    simp only [usedAfter, PaidAtMostOnce]
    constructor
    · intro _; trivial
    · intro _; omega
  | cons f fs ih =>
    unfold usedAfter PaidAtMostOnce
    split
    · rename_i hm
      rw [hnew]
      constructor
      · intro _; exact .inl hm
      · intro _; omega
    · rename_i hm
      by_cases hp : f.Pays
      · rw [if_pos hp, hnew]
        constructor
        · intro hle
          refine .inr (.inl ⟨hp, fun g hg hgp => ?_⟩)
          have := usedAfter_lt ha (show 0 < used - a by omega) ⟨g, hg, hgp⟩
          omega
        · rintro (h | ⟨-, h⟩ | ⟨h, -⟩)
          · exact absurd h hm
          · rw [usedAfter_eq_self h]; omega
          · exact absurd hp h
      · rw [if_neg hp]
        refine ih.trans ?_
        constructor
        · intro h; exact .inr (.inr ⟨hp, h⟩)
        · rintro (h | ⟨h, -⟩ | ⟨-, h⟩)
          · exact absurd h hm
          · exact absurd h hp
          · exact h

end

/-! ## The attempts on the tables -/

section Attempts

variable {requestId : String} {record : SubscriptionPreConsumeRecord} {sub : UserSubscription}
  {st : SubscriptionStore} {used : Int}

theorem run_refundAttempt_refunded (h : RefundView requestId record sub .refunded used st)
    (fs : List RefundFaults) : run (refundAttempt requestId) st fs = st := by
  induction fs with
  | nil => rfl
  | cons f fs ih =>
    rw [run_cons, refundAttempt, refundSubscriptionPreConsume_refunded h.foundRecord rfl]
    exact ih

variable (hreq : trimSpace requestId ≠ "") (hpos : 0 < record.preConsumed)
  (hsid : 0 < record.userSubscriptionId)

include hreq hpos hsid in
/-- **One attempt on an unmarked record** marks it and pays, or only pays, or does nothing. -/
theorem refundAttempt_cases (h : RefundView requestId record sub .consumed used st)
    (f : RefundFaults) : (f.Marks ∧ (sub.withUsed used).Fits (-record.preConsumed) ∧
      RefundView requestId record sub .refunded (newUsed used (-record.preConsumed))
        (refundAttempt requestId st f)) ∨
    (¬ f.Marks ∧ f.Pays ∧ (sub.withUsed used).Fits (-record.preConsumed) ∧
      (∃ e, (refundSubscriptionPreConsume f requestId st).1 = .error e) ∧
      RefundView requestId record sub .consumed (newUsed used (-record.preConsumed))
        (refundAttempt requestId st f)) ∨
    (¬ (f.Pays ∧ (sub.withUsed used).Fits (-record.preConsumed)) ∧
      (∃ e, (refundSubscriptionPreConsume f requestId st).1 = .error e) ∧
      refundAttempt requestId st f = st) := by
  have hmoved := SubscriptionStore.find?_move h.foundSub (-record.preConsumed)
  by_cases hf : f.Pays ∧ (sub.withUsed used).Fits (-record.preConsumed)
  · obtain ⟨hp, hfits⟩ := hf
    by_cases hm : f.Marks
    · have hres := refundSubscriptionPreConsume_marks h.foundRecord rfl hpos h.foundSub hreq hsid
        hm hfits
      refine .inl ⟨hm, hfits, ?_⟩
      rw [refundAttempt, hres]
      exact ⟨SubscriptionStore.find?_mark h.foundRecord, hmoved⟩
    · obtain ⟨e, hres⟩ :=
        refundSubscriptionPreConsume_half h.foundRecord rfl hpos h.foundSub hreq hsid hp hm hfits
      refine .inr (.inl ⟨hm, hp, hfits, ⟨e, by rw [hres]⟩, ?_⟩)
      rw [refundAttempt, hres]
      exact ⟨h.foundRecord, hmoved⟩
  · obtain ⟨e, hres⟩ :=
      refundSubscriptionPreConsume_fails (f := f) h.foundRecord rfl hpos h.foundSub hf
    exact .inr (.inr ⟨hf, ⟨e, by rw [hres]⟩, by rw [refundAttempt, hres]⟩)

include hreq hpos hsid in
theorem run_refundAttempt_used (h : RefundView requestId record sub .consumed used st)
    (hfits : (sub.withUsed used).Fits (-record.preConsumed)) (fs : List RefundFaults) :
    (run (refundAttempt requestId) st fs).subs.find? record.userSubscriptionId =
      some (sub.withUsed (usedAfter record.preConsumed fs used)) := by
  have hkeep : ∀ {u : Int}, (sub.withUsed u).Fits (-record.preConsumed) →
      (sub.withUsed (newUsed u (-record.preConsumed))).Fits (-record.preConsumed) := by
    intro u hu htotal
    have hle := newUsed_neg_le hpos (newUsed_nonneg u (-record.preConsumed))
    exact le_trans hle (hu htotal)
  induction fs generalizing st used with
  | nil => exact h.foundSub
  | cons f fs ih =>
    unfold usedAfter
    rw [run_cons]
    rcases refundAttempt_cases hreq hpos hsid h f with
      ⟨hm, -, hview⟩ | ⟨hm, hp, -, -, hview⟩ | ⟨hf, -, hst⟩
    · rw [if_pos hm, run_refundAttempt_refunded hview]
      exact hview.foundSub
    · rw [if_neg hm, if_pos hp]
      exact ih hview (hkeep hfits)
    · have hp : ¬ f.Pays := fun hp => hf ⟨hp, hfits⟩
      have hm : ¬ f.Marks := fun hm => hp hm.1
      rw [if_neg hm, if_neg hp, hst]
      exact ih h hfits

include hreq hpos hsid in
theorem run_refundAttempt_of_not_fits (h : RefundView requestId record sub .consumed used st)
    (hfits : ¬ (sub.withUsed used).Fits (-record.preConsumed)) (fs : List RefundFaults) :
    run (refundAttempt requestId) st fs = st := by
  induction fs with
  | nil => rfl
  | cons f fs ih =>
    rw [run_cons]
    rcases refundAttempt_cases hreq hpos hsid h f with
      ⟨-, hfit, -⟩ | ⟨-, -, hfit, -, -⟩ | ⟨-, -, hst⟩
    · exact absurd hfit hfits
    · exact absurd hfit hfits
    · rw [hst]; exact ih

end Attempts

/-! ## The calls -/

section Calls

variable {s : SubscriptionFunding} {record : SubscriptionPreConsumeRecord} {sub : UserSubscription}
  {st : SubscriptionStore} {used : Int} {status : RecordStatus}

def RefundInv (requestId : String) (record : SubscriptionPreConsumeRecord)
    (sub : UserSubscription) (st : SubscriptionStore) : Prop :=
  ∃ status used, RefundView requestId record sub status used st

variable (hreq : trimSpace s.requestId ≠ "") (hpos : 0 < record.preConsumed)
  (hsid : 0 < record.userSubscriptionId)

include hreq hpos hsid in
theorem refundInv_attempt (f : RefundFaults) (h : RefundInv s.requestId record sub st) :
    RefundInv s.requestId record sub (refundAttempt s.requestId st f) := by
  obtain ⟨status, used, hview⟩ := h
  cases status with
  | refunded =>
    refine ⟨.refunded, used, ?_⟩
    rw [refundAttempt, refundSubscriptionPreConsume_refunded hview.foundRecord rfl]
    exact hview
  | consumed =>
    rcases refundAttempt_cases hreq hpos hsid hview f with
      ⟨-, -, h⟩ | ⟨-, -, -, -, h⟩ | ⟨-, -, h⟩
    · exact ⟨_, _, h⟩
    · exact ⟨_, _, h⟩
    · exact ⟨_, _, by rw [h]; exact hview⟩

include hreq hpos hsid in
/-- **Stopping after the first success changes nothing.** -/
theorem retryFrom_state (f : Nat → RefundFaults) (n i : Nat) (e : Halt)
    (h : RefundInv s.requestId record sub st) :
    (retryFrom (fun i => refundSubscriptionPreConsume (f i) s.requestId) n i e st).2 =
      run (refundAttempt s.requestId) st ((range' i n).map f) := by
  induction n generalizing i e st with
  | zero => rfl
  | succ n ih =>
    rw [range'_succ, map_cons, run_cons]
    unfold retryFrom
    have hinv := refundInv_attempt hreq hpos hsid (f i) h
    obtain ⟨status, used, hview⟩ := h
    cases hres : refundSubscriptionPreConsume (f i) s.requestId st with
    | mk res st' =>
      have hst : refundAttempt s.requestId st (f i) = st' := by rw [refundAttempt, hres]
      rw [hst] at hinv ⊢
      cases res with
      | error e => exact ih (i + 1) e hinv
      | ok _ =>
        symm
        cases status with
        | refunded =>
          rw [refundAttempt, refundSubscriptionPreConsume_refunded hview.foundRecord rfl] at hst
          rw [← hst]
          exact run_refundAttempt_refunded hview _
        | consumed =>
          rcases refundAttempt_cases hreq hpos hsid hview (f i) with
            ⟨-, -, h⟩ | ⟨-, -, -, ⟨e, he⟩, -⟩ | ⟨-, ⟨e, he⟩, -⟩
          · rw [hst] at h
            exact run_refundAttempt_refunded h _
          · rw [hres] at he; cases he
          · rw [hres] at he; cases he

include hreq hpos hsid in
theorem run_refundCall (hpre : 0 < s.preConsumed) (calls : List (Nat → RefundFaults))
    (h : RefundInv s.requestId record sub st) : run s.refundCall st calls =
      run (refundAttempt s.requestId) st (calls.flatMap attemptsOf) := by
  induction calls generalizing st with
  | nil => rfl
  | cons f calls ih =>
    have hcall : s.refundCall st f = run (refundAttempt s.requestId) st (attemptsOf f) := by
      rw [SubscriptionFunding.refundCall, SubscriptionFunding.refund, if_neg (by omega),
        refundWithRetry, retryFrom_state hreq hpos hsid f _ _ _ h, attemptsOf,
        range_eq_range']
    have hinv : RefundInv s.requestId record sub (s.refundCall st f) := by
      rw [hcall]
      exact run_induction (fun st f h => refundInv_attempt hreq hpos hsid f h) h _
    rw [run_cons, flatMap_cons, run_append, ih hinv, hcall]

end Calls

/-- **Exactly when the refund stays within the charge**, run any number of times and with any
failures. -/
theorem refund_lowers_at_most_iff {s : SubscriptionFunding} {st : SubscriptionStore}
    {record : SubscriptionPreConsumeRecord} {sub : UserSubscription}
    (hreq : trimSpace s.requestId ≠ "") (hpre : 0 < s.preConsumed)
    (hrec : st.records.find? s.requestId = some record) (hpos : 0 < record.preConsumed)
    (hsid : 0 < record.userSubscriptionId)
    (hsub : st.subs.find? record.userSubscriptionId = some sub)
    (calls : List (Nat → RefundFaults)) :
    ∃ sub', (run s.refundCall st calls).subs.find? record.userSubscriptionId = some sub' ∧
      (sub.amountUsed - sub'.amountUsed ≤ record.preConsumed ↔
        record.status = .refunded ∨ sub.amountUsed ≤ record.preConsumed ∨
          ¬ sub.Fits (-record.preConsumed) ∨ PaidAtMostOnce (calls.flatMap attemptsOf)) := by
  have hview : RefundView s.requestId record sub record.status sub.amountUsed st := ⟨hrec, hsub⟩
  rw [run_refundCall hreq hpos hsid hpre calls ⟨_, _, hview⟩]
  by_cases hst : record.status = .refunded
  · rw [hst] at hview
    rw [run_refundAttempt_refunded hview]
    exact ⟨sub, hsub, ⟨fun _ => .inl hst, fun _ => by omega⟩⟩
  · have hcons : record.status = .consumed := by
      cases hc : record.status with
      | consumed => rfl
      | refunded => exact absurd hc hst
    rw [hcons] at hview
    by_cases hfits : sub.Fits (-record.preConsumed)
    · refine ⟨_, run_refundAttempt_used hreq hpos hsid hview hfits _, ?_⟩
      rw [UserSubscription.withUsed_amountUsed]
      by_cases hle : sub.amountUsed ≤ record.preConsumed
      · exact ⟨fun _ => .inr (.inl hle), fun _ => sub_usedAfter_le hpos hle _⟩
      · rw [sub_usedAfter_le_iff hpos (by omega)]
        constructor
        · intro h; exact .inr (.inr (.inr h))
        · rintro (h | h | h | h)
          · exact absurd h hst
          · exact absurd h hle
          · exact absurd hfits h
          · exact h
    · rw [run_refundAttempt_of_not_fits hreq hpos hsid hview hfits]
      exact ⟨sub, hsub, ⟨fun _ => .inr (.inr (.inl hfits)), fun _ => by omega⟩⟩

/-! ### A refund paid twice -/

def spentSubscription : UserSubscription :=
  { id := 1, userId := 1, planId := 1, amountTotal := 100, amountUsed := 20, startTime := 0
    endTime := 1000, status := .active, source := "order", lastResetTime := 0, nextResetTime := 0
    upgradeGroup := "", prevUserGroup := "" }

def spentStore : SubscriptionStore :=
  ⟨.singleton spentSubscription, .singleton (consumedRecord "req" 1 1 10)⟩

def spentFunding : SubscriptionFunding :=
  { requestId := "req", userId := 1, modelName := "m", amount := 10, subscriptionId := 1
    preConsumed := 10, amountTotal := 100, amountUsedAfter := 20, planId := 1, planTitle := "" }

def saveFailsOnce (attempt : Nat) : RefundFaults :=
  if attempt = 0 then { RefundFaults.none with saveRecord := some "database is locked" }
  else RefundFaults.none

/-- One call of the refund returns the charge of ten twice. -/
theorem refundCall_saveFailsOnce :
    (run spentFunding.refundCall spentStore [saveFailsOnce]).subs.find? 1 =
        some (spentSubscription.withUsed 0) ∧
      ¬ (spentSubscription.amountUsed - (spentSubscription.withUsed 0).amountUsed ≤ 10) := by
  decide

/-- Without failures the same call stays within the charge. -/
theorem refund_lowers_at_most_spentStore :
    ∃ sub', (run spentFunding.refundCall spentStore [fun _ => RefundFaults.none]).subs.find? 1 =
        some sub' ∧ (20 - sub'.amountUsed ≤ 10 ↔
        RecordStatus.consumed = .refunded ∨ (20 : Int) ≤ 10 ∨ ¬ spentSubscription.Fits (-10) ∨
          PaidAtMostOnce ([fun _ => RefundFaults.none].flatMap attemptsOf)) :=
  @refund_lowers_at_most_iff spentFunding spentStore (consumedRecord "req" 1 1 10) spentSubscription
    (by decide) (by decide)
    rfl (by decide) (by decide) rfl [fun _ => RefundFaults.none]

end NomoApi
