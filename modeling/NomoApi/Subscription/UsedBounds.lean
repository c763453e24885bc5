import NomoApi.Subscription.ResetTask

/-! # The used amount stays within the total

The arithmetic of `Consume` with the wrap-around of 64-bit integers. A delta that overflows becomes
negative and is clamped to zero. -/

namespace NomoApi

open SubscriptionStore Table

/-! ### The functions in 64-bit arithmetic -/

/-- **`PreConsumeUserSubscription`** in 64-bit arithmetic. -/
abbrev preConsumeUserSubscription64 := preConsumeUserSubscriptionIn wrap64

/-- **`PostConsumeUserSubscriptionDelta`** in 64-bit arithmetic. -/
abbrev postConsumeUserSubscriptionDelta64 := postConsumeUserSubscriptionDeltaIn wrap64

/-- **`RefundSubscriptionPreConsume`** in 64-bit arithmetic. -/
abbrev refundSubscriptionPreConsume64 := refundSubscriptionPreConsumeIn wrap64

/-! ### Calls keep the bounds -/

/-- **A step of a row**: the total stays, and a limited row within its bounds remains so. -/
structure UserSubscription.Keeps (r r' : UserSubscription) : Prop where
  total : r'.amountTotal = r.amountTotal
  within : 0 < r.amountTotal → r.amountTotal < 2 ^ 63 → 0 ≤ r.amountUsed →
    r.amountUsed ≤ r.amountTotal → 0 ≤ r'.amountUsed ∧ r'.amountUsed ≤ r.amountTotal

theorem UserSubscription.Keeps.refl (r : UserSubscription) : r.Keeps r :=
  ⟨rfl, fun _ _ h0 h1 => ⟨h0, h1⟩⟩

theorem UserSubscription.Keeps.trans {r r' r'' : UserSubscription} (h : r.Keeps r')
    (h' : r'.Keeps r'') : r.Keeps r'' := by
  refine ⟨h'.total.trans h.total, fun hpos hlt h0 h1 => ?_⟩
  obtain ⟨h0', h1'⟩ := h.within hpos hlt h0 h1
  rw [← h.total] at hpos hlt h1' ⊢
  exact h'.within hpos hlt h0' h1'

theorem UserSubscription.keeps_apply (d : ResetDecision) (c : UserSubscription) :
    c.Keeps (d.apply c) := by
  cases d with
  | keep => exact .refl c
  | schedule base next => exact ⟨rfl, fun _ _ h0 h1 => ⟨h0, h1⟩⟩
  | reset base next => exact ⟨rfl, fun hpos _ _ _ => ⟨le_rfl, hpos.le⟩⟩

variable {c : UserSubscription}

theorem UserSubscription.keeps_charge {amount : Int} (hamount : 0 < amount)
    (hroom : ¬ (c.amountTotal > 0 ∧ wrap64 (c.amountTotal - c.amountUsed) < amount)) :
    c.Keeps (c.withUsed (wrap64 (c.amountUsed + amount))) := by
  refine ⟨rfl, fun hpos hlt h0 h1 => ?_⟩
  rw [wrap64_of_range (by omega) (by omega)] at hroom
  rw [withUsed_amountUsed, wrap64_of_range (by omega) (by omega)]
  omega

theorem UserSubscription.keeps_delta {delta : Int}
    (hfits : ¬ (c.amountTotal > 0 ∧ newUsedIn wrap64 c.amountUsed delta > c.amountTotal)) :
    c.Keeps (c.withUsed (newUsedIn wrap64 c.amountUsed delta)) := by
  refine ⟨rfl, fun hpos _ _ _ => ?_⟩
  have hnonneg : 0 ≤ newUsedIn wrap64 c.amountUsed delta := by
    unfold newUsedIn
    split <;> omega
  rw [withUsed_amountUsed]
  omega

/-- **A step of the tables**: every row makes such a step. -/
def SubscriptionStore.Keeps (st st' : SubscriptionStore) : Prop :=
  ∀ id, Option.Rel UserSubscription.Keeps (st.subs.find? id) (st'.subs.find? id)

variable {st : SubscriptionStore}

theorem SubscriptionStore.Keeps.of_subs {st' : SubscriptionStore} (h : st'.subs = st.subs) :
    st.Keeps st' := by
  intro id
  rw [h]
  exact optionRel_refl UserSubscription.Keeps.refl _

theorem SubscriptionStore.Keeps.trans {st' st'' : SubscriptionStore} (h : st.Keeps st')
    (h' : st'.Keeps st'') : st.Keeps st'' := by
  intro id
  have h₁ := h id
  have h₂ := h' id
  generalize st.subs.find? id = o at h₁ ⊢
  generalize st'.subs.find? id = o' at h₁ h₂
  generalize st''.subs.find? id = o'' at h₂ ⊢
  cases h₁ with
  | none => exact h₂
  | some hr =>
    cases h₂ with
    | some hr' => exact .some (hr.trans hr')

theorem SubscriptionStore.keeps_save {c' : UserSubscription} (hmem : c ∈ st.subs)
    (hid : c'.id = c.id) (h : c.Keeps c') : st.Keeps { st with subs := st.subs.save c' } := by
  intro id
  by_cases heq : id = c.id
  · rw [heq, find?_key hmem, find?_save hid (find?_key hmem)]
    exact .some h
  · rw [find?_save_of_ne (by rw [hid]; exact heq)]
    exact optionRel_refl UserSubscription.Keeps.refl _

section Calls

variable {env : SubscriptionEnv} {f : PreConsumeFaults} {requestId : String}
  {userId amount now : Int}

variable {st st' : SubscriptionStore} {res : SubscriptionPreConsumeResult}

theorem chargeSubscription64_keeps {c : UserSubscription} (hamount : 0 < amount)
    (hmem : c ∈ st.subs)
    (hroom : ¬ (c.amountTotal > 0 ∧ wrap64 (c.amountTotal - c.amountUsed) < amount))
    (h : chargeSubscriptionIn wrap64 f requestId userId amount c st = .ok (res, st')) :
    st.Keeps st' := by
  unfold chargeSubscriptionIn at h
  split at h
  · obtain ⟨_, -, h⟩ := bind_eq_ok.mp h
    cases h
    exact keeps_save hmem rfl (UserSubscription.keeps_charge hamount hroom)
  · split at h
    · split at h
      · cases h
      · cases h
        exact .of_subs rfl
    · cases h

theorem preConsumeLoop64_keeps {cands : List UserSubscription} (hamount : 0 < amount)
    (hmem : ∀ c ∈ cands, c ∈ st.subs) (hnodup : (cands.map UserSubscription.id).Nodup)
    (h : preConsumeLoopIn wrap64 env f requestId userId amount now cands st = .ok (res, st')) :
    st.Keeps st' := by
  induction cands generalizing st with
  | nil => cases h
  | cons c rest ih =>
    have hc : c ∈ st.subs := hmem c List.mem_cons_self
    rw [List.map_cons, List.nodup_cons] at hnodup
    have hrest : ∀ c' ∈ rest, c' ∈ st.subs := fun c' hc' => hmem c' (List.mem_cons_of_mem _ hc')
    unfold preConsumeLoopIn at h
    obtain ⟨plan, hplan, h⟩ := bind_eq_ok.mp h
    obtain ⟨⟨c₀, st₀⟩, hreset, h⟩ := bind_eq_ok.mp h
    obtain ⟨d, hd, rfl, rfl⟩ := maybeReset_eq_ok hc hreset
    have hfirst := keeps_save hc (d.apply_id c) (UserSubscription.keeps_apply d c)
    dsimp only at h
    split at h
    · refine hfirst.trans (ih ?_ hnodup.2 h)
      rw [← dueReset_eq hplan hd]
      exact mem_save_dueReset hrest hnodup.1
    · rename_i hroom
      have hmem' : d.apply c ∈ st.subs.save (d.apply c) :=
        (find?_eq_some.mp (find?_save (d.apply_id c) (find?_key hc))).1
      exact hfirst.trans (chargeSubscription64_keeps hamount hmem' hroom h)

theorem preConsumeUserSubscription64_keeps {modelName : String} {quotaType : Int}
    (h : preConsumeUserSubscription64 env f requestId userId modelName quotaType amount now st =
      .ok (res, st')) : st.Keeps st' := by
  unfold preConsumeUserSubscription64 preConsumeUserSubscriptionIn at h
  obtain ⟨-, h⟩ := ite_error_eq_ok.mp h
  obtain ⟨-, h⟩ := ite_error_eq_ok.mp h
  obtain ⟨hamount, h⟩ := ite_error_eq_ok.mp h
  obtain ⟨-, h, -⟩ := transaction_eq_ok.mp h
  obtain ⟨_, -, h⟩ := bind_eq_ok.mp h
  split at h
  · obtain ⟨-, h⟩ := ite_error_eq_ok.mp h
    obtain ⟨_, -, h⟩ := bind_eq_ok.mp h
    split at h
    · cases h
    · cases h
      exact .of_subs rfl
  · obtain ⟨-, h⟩ := ite_error_eq_ok.mp h
    exact preConsumeLoop64_keeps (by omega) (fun c hc => (mem_activeSubscriptions.mp hc).1)
      (nodup_activeSubscriptions ..) h

theorem postConsumeUserSubscriptionDelta64_keeps {g : DeltaFaults} {sid delta : Int}
    (h : postConsumeUserSubscriptionDelta64 g sid delta st = .ok ((), st')) : st.Keeps st' := by
  unfold postConsumeUserSubscriptionDelta64 postConsumeUserSubscriptionDeltaIn at h
  obtain ⟨-, h⟩ := ite_error_eq_ok.mp h
  split at h
  · cases h
    exact .of_subs rfl
  · obtain ⟨-, h, -⟩ := transaction_eq_ok.mp h
    obtain ⟨_, -, h⟩ := bind_eq_ok.mp h
    split at h
    · cases h
    · rename_i sub hsub
      obtain ⟨hfits, h⟩ := ite_error_eq_ok.mp h
      obtain ⟨_, -, h⟩ := bind_eq_ok.mp h
      cases h
      exact keeps_save (find?_eq_some.mp hsub).1 rfl (UserSubscription.keeps_delta hfits)

theorem refundSubscriptionPreConsume64_keeps {g : RefundFaults} :
    st.Keeps (refundSubscriptionPreConsume64 g requestId st).2 := by
  unfold refundSubscriptionPreConsume64 refundSubscriptionPreConsumeIn
  split
  · exact .of_subs rfl
  · split
    · exact .of_subs rfl
    · split
      · exact .of_subs rfl
      · split
        · exact .of_subs rfl
        · split
          · exact .of_subs rfl
          · rename_i st₁ hdelta
            have hkeeps : st.Keeps st₁ := by
              split at hdelta
              · cases hdelta
                exact .of_subs rfl
              · exact postConsumeUserSubscriptionDelta64_keeps hdelta
            split
            · exact hkeeps
            · exact hkeeps.trans (.of_subs rfl)

theorem resetLocked_keeps {g : ResetRowFaults} {plan : SubscriptionPlan} {id : Int} {count : Nat}
    {r : BatchResult} (h : resetLocked env g plan now id count st = some r) : st.Keeps r.store := by
  unfold resetLocked at h
  split at h
  · cases h
    exact .of_subs rfl
  · split at h
    · rename_i locked _ hlocked
      have hmem : locked ∈ st.subs := by
        obtain ⟨hfind, -⟩ := Option.filter_eq_some_iff.mp hlocked
        exact (find?_eq_some.mp hfind).1
      split at h
      · cases h
      · cases h
        exact .of_subs rfl
      · rename_i hreset
        obtain ⟨d, -, -, rfl⟩ := maybeReset_eq_ok hmem hreset
        cases h
        dsimp only
        split
        · exact .of_subs rfl
        · exact keeps_save hmem (d.apply_id _) (UserSubscription.keeps_apply d _)
    · cases h
      exact .of_subs rfl

end Calls

/-! ### Sequences of calls -/

/-- **A call on the subscription tables.** A reset is the transaction of `ResetDueSubscriptions` for
one row. -/
inductive SubscriptionCall where
  | preConsume (env : SubscriptionEnv) (f : PreConsumeFaults) (requestId : String) (userId : Int)
      (modelName : String) (quotaType amount now : Int)
  | delta (f : DeltaFaults) (userSubscriptionId delta : Int)
  | refund (f : RefundFaults) (requestId : String)
  | reset (env : SubscriptionEnv) (f : ResetRowFaults) (plan : SubscriptionPlan) (now id : Int)

def SubscriptionStore.call (st : SubscriptionStore) : SubscriptionCall → SubscriptionStore
  | .preConsume env f requestId userId modelName quotaType amount now =>
    match preConsumeUserSubscription64 env f requestId userId modelName quotaType amount now
      st with
    | .ok (_, st') => st'
    | .error _ => st
  | .delta f userSubscriptionId delta =>
    match postConsumeUserSubscriptionDelta64 f userSubscriptionId delta st with
    | .ok (_, st') => st'
    | .error _ => st
  | .refund f requestId => (refundSubscriptionPreConsume64 f requestId st).2
  | .reset env f plan now id =>
    match resetLocked env f plan now id 0 st with
    | some r => r.store
    | none => st

theorem SubscriptionStore.keeps_call (st : SubscriptionStore) (c : SubscriptionCall) :
    st.Keeps (st.call c) := by
  cases c with
  | preConsume env f requestId userId modelName quotaType amount now =>
    rw [call]
    split
    · rename_i hcall
      exact preConsumeUserSubscription64_keeps hcall
    · exact .of_subs rfl
  | delta f userSubscriptionId delta =>
    rw [call]
    split
    · rename_i hcall
      exact postConsumeUserSubscriptionDelta64_keeps hcall
    · exact .of_subs rfl
  | refund f requestId => exact refundSubscriptionPreConsume64_keeps
  | reset env f plan now id =>
    rw [call]
    split
    · rename_i hcall
      exact resetLocked_keeps hcall
    · exact .of_subs rfl

def SubscriptionStore.Within (sid total : Int) (st : SubscriptionStore) : Prop :=
  ∃ sub, st.subs.find? sid = some sub ∧ sub.amountTotal = total ∧ 0 ≤ sub.amountUsed ∧
    sub.amountUsed ≤ total

theorem SubscriptionStore.Within.call {sid total : Int} (hpos : 0 < total) (h64 : total < 2 ^ 63)
    (h : st.Within sid total) (c : SubscriptionCall) : (st.call c).Within sid total := by
  obtain ⟨sub, hsub, rfl, h0, h1⟩ := h
  have hkeeps := st.keeps_call c sid
  rw [hsub] at hkeeps
  cases hsub' : (st.call c).subs.find? sid with
  | none =>
    rw [hsub'] at hkeeps
    cases hkeeps
  | some sub' =>
    rw [hsub'] at hkeeps
    cases hkeeps with
    | some hr => exact ⟨sub', hsub', hr.total, hr.within hpos h64 h0 h1⟩

/-- **The used amount stays within the total**, from an unused subscription with a positive 64-bit
total, after every call of every sequence. -/
theorem amountUsed_within_total {st : SubscriptionStore} {sid : Int} {sub : UserSubscription}
    (hsub : st.subs.find? sid = some sub) (hpos : 0 < sub.amountTotal)
    (h64 : sub.amountTotal < 2 ^ 63) (hused : sub.amountUsed = 0) (calls : List SubscriptionCall) :
    Always (Within sid sub.amountTotal) call st calls := by
  have hstart : st.Within sid sub.amountTotal := ⟨sub, hsub, rfl, hused.ge, hused ▸ hpos.le⟩
  intro before _
  exact run_induction (fun _ c h => h.call hpos h64 c) hstart before

def limitedRow (used : Int) : UserSubscription :=
  { resetAt100 with amountTotal := 100, amountUsed := used }

/-- A delta that overflows empties the used amount. -/
theorem amountUsed_within_overflow : Always (Within 1 100) call ⟨.singleton (limitedRow 0), .empty⟩
        [.delta .none 1 60, .delta .none 1 9223372036854775807] ∧
      (run call ⟨.singleton (limitedRow 0), .empty⟩
        [.delta .none 1 60, .delta .none 1 9223372036854775807]).subs.rows = [limitedRow 0] :=
  ⟨amountUsed_within_total (show _ = some (limitedRow 0) from rfl) (by decide) (by decide) rfl _,
    by decide +kernel⟩

end NomoApi
