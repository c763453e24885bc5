import NomoApi.Subscription.Store

/-! # Pre-consuming, adjusting and refunding a subscription's quota

The three operations of `model/subscription.go` that move `amountUsed`: a charge under a request id,
a delta, and the refund of a recorded charge, which opens a second transaction inside its own. The
`…Faults` structures say which statements fail, with what text. -/

namespace NomoApi

open Table List

structure SubscriptionPreConsumeResult where
  userSubscriptionId : Int
  preConsumed : Int
  amountTotal : Int
  amountUsedBefore : Int
  amountUsedAfter : Int
  deriving DecidableEq

structure PreConsumeFaults where
  beginTx : Option String
  findRecord : Option String
  findSub : Option String
  findSubs : Option String
  saveReset : Int → Option String
  createRecord : Option String
  findDup : Option String
  saveSub : Option String
  commitTx : Option String

def PreConsumeFaults.none : PreConsumeFaults :=
  ⟨.none, .none, .none, .none, fun _ => .none, .none, .none, .none, .none⟩

/-- The order `end_time asc, id asc`. -/
def endsBefore (a b : UserSubscription) : Prop :=
  a.endTime < b.endTime ∨ (a.endTime = b.endTime ∧ a.id ≤ b.id)
deriving Decidable

def activeSubscriptions (subs : SubscriptionTable) (userId now : Int) : List UserSubscription :=
  (subs.rows.filter fun s => s.userId = userId ∧ s.status = .active ∧ s.endTime > now).insertionSort
    endsBefore

def consumedRecord (requestId : String) (userId userSubscriptionId amount : Int) :
    SubscriptionPreConsumeRecord :=
  ⟨requestId, userId, userSubscriptionId, amount, .consumed⟩

/-! The operations compute in an arithmetic whose results `wrap` brings into its range. -/

section

variable (wrap : Int → Int)

/-- Charging a subscription: the record, then the used amount. An existing record of this request is
reported. -/
def chargeSubscriptionIn (f : PreConsumeFaults) (requestId : String) (userId amount : Int)
    (sub : UserSubscription) (st : SubscriptionStore) :
    Except Halt (SubscriptionPreConsumeResult × SubscriptionStore) :=
  match f.createRecord, st.records.insert? (consumedRecord requestId userId sub.id amount) with
  | none, some records => do
      attempt f.saveSub
      let charged := sub.withUsed (wrap (sub.amountUsed + amount))
      return ({ userSubscriptionId := sub.id, preConsumed := amount,
                amountTotal := sub.amountTotal, amountUsedBefore := sub.amountUsed,
                amountUsedAfter := charged.amountUsed },
              { subs := st.subs.save charged, records })
  -- the insert failed, for a taken request id or otherwise: the source looks for the other record
  | fault, _ =>
    match f.findDup, st.records.find? requestId with
    | none, some dup =>
      if dup.status = .refunded then
        .error (.error "subscription pre-consume already refunded")
      -- the reported subscription is the candidate, also when the record names another one
      else .ok ({ userSubscriptionId := sub.id, preConsumed := dup.preConsumed,
                  amountTotal := sub.amountTotal, amountUsedBefore := sub.amountUsed,
                  amountUsedAfter := sub.amountUsed }, st)
    | _, _ => .error (.error (fault.getD "duplicated key not allowed"))

/-- **The candidate loop**: reset what is due, skip a limited subscription with too little left,
charge the first other one. -/
def preConsumeLoopIn (env : SubscriptionEnv) (f : PreConsumeFaults) (requestId : String)
    (userId amount now : Int) :
    List UserSubscription → SubscriptionStore →
      Except Halt (SubscriptionPreConsumeResult × SubscriptionStore)
  | [], _ => .error (.error ("subscription quota insufficient, need=" ++ toString amount))
  | candidate :: rest, st => do
      let plan ← env.getPlan candidate.planId
      let (sub, st) ←
        maybeResetUserSubscriptionWithPlanTx env (f.saveReset candidate.id) candidate plan now st
      -- a total of zero is unlimited
      if sub.amountTotal > 0 ∧ wrap (sub.amountTotal - sub.amountUsed) < amount then
        preConsumeLoopIn env f requestId userId amount now rest st
      else chargeSubscriptionIn wrap f requestId userId amount sub st

/-- **`PreConsumeUserSubscription`** at time `now`. The source does not read the model name and the
quota type. -/
def preConsumeUserSubscriptionIn (env : SubscriptionEnv) (f : PreConsumeFaults)
    (requestId : String) (userId : Int) (_modelName : String) (_quotaType : Int) (amount now : Int)
    (st : SubscriptionStore) : Except Halt (SubscriptionPreConsumeResult × SubscriptionStore) :=
  if userId ≤ 0 then .error (.error "invalid userId")
  else if trimSpace requestId = "" then .error (.error "requestId is empty")
  else if amount ≤ 0 then .error (.error "amount must be > 0")
  else transaction f.beginTx f.commitTx (fun st => do
    attempt f.findRecord
    match st.records.find? requestId with
    | some existing =>
      -- a repeated request reports the charge it made the first time and charges nothing
      if existing.status = .refunded then
        .error (.error "subscription pre-consume already refunded")
      else
        attempt f.findSub
        match st.subs.find? existing.userSubscriptionId with
        | none => .error (.error "record not found")
        | some sub =>
          return ({ userSubscriptionId := sub.id, preConsumed := existing.preConsumed,
                    amountTotal := sub.amountTotal, amountUsedBefore := sub.amountUsed,
                    amountUsedAfter := sub.amountUsed }, st)
    | none =>
      let subs := activeSubscriptions st.subs userId now
      if f.findSubs.isSome ∨ subs = [] then .error (.error "no active subscription")
      else preConsumeLoopIn wrap env f requestId userId amount now subs st) st

end

structure DeltaFaults where
  beginTx : Option String
  findSub : Option String
  saveSub : Option String
  commitTx : Option String
  deriving DecidableEq

def DeltaFaults.none : DeltaFaults := ⟨.none, .none, .none, .none⟩

def newUsedIn (wrap : Int → Int) (used delta : Int) : Int :=
  if wrap (used + delta) < 0 then 0 else wrap (used + delta)

/-- The new used amount in unbounded integers. -/
abbrev newUsed : Int → Int → Int := newUsedIn fun n => n

theorem newUsed_eq (used delta : Int) :
    newUsed used delta = if used + delta < 0 then 0 else used + delta := rfl

variable {sub : UserSubscription}

theorem withUsed_newUsed_zero (h : 0 ≤ sub.amountUsed) :
    sub.withUsed (newUsed sub.amountUsed 0) = sub := by
  rw [newUsed_eq, if_neg (by omega), Int.add_zero]
  rfl

def postConsumeUserSubscriptionDeltaIn (wrap : Int → Int) (f : DeltaFaults)
    (userSubscriptionId delta : Int) (st : SubscriptionStore) :
    Except Halt (Unit × SubscriptionStore) :=
  if userSubscriptionId ≤ 0 then .error (.error "invalid userSubscriptionId")
  else if delta = 0 then .ok ((), st)
  else transaction f.beginTx f.commitTx (fun st => do
    attempt f.findSub
    match st.subs.find? userSubscriptionId with
    | none => .error (.error "record not found")
    | some sub =>
      let used := newUsedIn wrap sub.amountUsed delta
      -- the bound applies to negative deltas too: a row above its total is not lowered a little
      if sub.amountTotal > 0 ∧ used > sub.amountTotal then
        .error (.error ("subscription used exceeds total, used=" ++ toString used ++ " total=" ++
          toString sub.amountTotal))
      else
        attempt f.saveSub
        return ((), { st with subs := st.subs.save (sub.withUsed used) })) st

/-- The failures of the statements of `RefundSubscriptionPreConsume`; `delta` are those of the inner
transaction. -/
structure RefundFaults where
  beginTx : Option String
  findRecord : Option String
  delta : DeltaFaults
  saveRecord : Option String
  commitTx : Option String
  deriving DecidableEq

def RefundFaults.none : RefundFaults := ⟨.none, .none, DeltaFaults.none, .none, .none⟩

/-- The delta commits in a transaction of its own, and stays when the outer transaction fails. -/
def refundSubscriptionPreConsumeIn (wrap : Int → Int) (f : RefundFaults) (requestId : String)
    (st : SubscriptionStore) : Except Halt Unit × SubscriptionStore :=
  if trimSpace requestId = "" then (.error (.error "requestId is empty"), st)
  else
    match (do attempt f.beginTx; attempt f.findRecord) with
    | .error e => (.error e, st)
    | .ok _ =>
      match st.records.find? requestId with
      | none => (.error (.error "record not found"), st)
      | some record =>
        -- a second refund of the same request changes nothing
        if record.status = .refunded then (attempt f.commitTx, st)
        else
          match (if record.preConsumed ≤ 0 then .ok ((), st)
            else postConsumeUserSubscriptionDeltaIn wrap f.delta record.userSubscriptionId
              (wrap (-record.preConsumed)) st) with
          | .error e => (.error e, st)
          | .ok (_, st) =>
            match (do attempt f.saveRecord; attempt f.commitTx) with
            | .error e => (.error e, st)
            | .ok _ =>
              let marked := { record with status := .refunded }
              (.ok (), { st with records := st.records.save marked })

/-! ## In unbounded integers -/

abbrev chargeSubscription := chargeSubscriptionIn fun n => n

abbrev preConsumeLoop := preConsumeLoopIn fun n => n

/-- **`PreConsumeUserSubscription`** without overflow. -/
abbrev preConsumeUserSubscription := preConsumeUserSubscriptionIn fun n => n

/-- **`PostConsumeUserSubscriptionDelta`** without overflow. -/
abbrev postConsumeUserSubscriptionDelta := postConsumeUserSubscriptionDeltaIn fun n => n

/-- **`RefundSubscriptionPreConsume`** without overflow. -/
abbrev refundSubscriptionPreConsume := refundSubscriptionPreConsumeIn fun n => n

/-! ## What a pre-consume does -/

/-- **Unchanged apart from a reset that was due** at `now`. -/
def ResetOnly (env : SubscriptionEnv) (now : Int) (r r' : UserSubscription) : Prop :=
  r' = r ∨ r' = dueReset env now r ∧
    (r'.amountUsed = r.amountUsed ∨ r'.amountUsed = 0 ∧ ResetDue env now r)

section

variable (env : SubscriptionEnv) (now : Int) (r : UserSubscription)

theorem ResetOnly.refl :
    ResetOnly env now r r := .inl rfl

theorem resetOnly_dueReset :
    ResetOnly env now r (dueReset env now r) := .inr ⟨rfl, dueReset_amountUsed env now r⟩

end

/-- **The effect of a charge** of `amount` to the subscription `sid` with the row `r`: on top of the
reset that was due, and recorded; others are at most reset. -/
structure Charged (env : SubscriptionEnv) (now : Int) (requestId : String) (userId amount : Int)
    (st st' : SubscriptionStore) (sid : Int) (r : UserSubscription) : Prop where
  before : st.subs.find? sid = some r
  user : r.userId = userId
  active : r.status = .active ∧ r.endTime > now
  reset : ResetOnly env now r (dueReset env now r)
  room : (dueReset env now r).amountTotal > 0 →
    (dueReset env now r).amountUsed + amount ≤ (dueReset env now r).amountTotal
  after : st'.subs.find? sid =
    some ((dueReset env now r).withUsed ((dueReset env now r).amountUsed + amount))
  others : ∀ id, id ≠ sid →
    Option.Rel (ResetOnly env now) (st.subs.find? id) (st'.subs.find? id)
  recorded : st'.records.find? requestId = some (consumedRecord requestId userId sid amount)
  otherRecords : ∀ id, id ≠ requestId → st'.records.find? id = st.records.find? id

theorem optionRel_refl {α : Type} {r : α → α → Prop} (h : ∀ a, r a a) (o : Option α) :
    Option.Rel r o o := by
  cases o with
  | none => exact .none
  | some a => exact .some (h a)

variable {f : PreConsumeFaults} {requestId : String} {userId amount : Int}
  {st st' : SubscriptionStore} {res : SubscriptionPreConsumeResult}

theorem chargeSubscription_eq_ok (hfresh : st.records.find? requestId = none)
    (h : chargeSubscription f requestId userId amount sub st = .ok (res, st')) :
    res.userSubscriptionId = sub.id ∧ res.preConsumed = amount ∧
      st'.subs = st.subs.save (sub.withUsed (sub.amountUsed + amount)) ∧
      st'.records.find? requestId = some (consumedRecord requestId userId sub.id amount) ∧
      ∀ id, id ≠ requestId → st'.records.find? id = st.records.find? id := by
  unfold chargeSubscription chargeSubscriptionIn at h
  simp only at h
  split at h
  · rename_i records _ hins
    obtain ⟨_, -, h⟩ := bind_eq_ok.mp h
    cases h
    exact ⟨rfl, rfl, rfl, find?_insert? hins,
      fun id hne => find?_insert?_of_ne hins hne⟩
  · rw [hfresh] at h
    split at h
    · rename_i heq; cases heq
    · cases h

/-- **The effect of the candidate loop**: one candidate is charged, those before it are at most
reset, the others left alone. -/
structure LoopCharged (env : SubscriptionEnv) (now : Int) (requestId : String)
    (userId amount : Int) (cands : List UserSubscription) (st st' : SubscriptionStore)
    (res : SubscriptionPreConsumeResult) : Prop where
  charged : ∃ c ∈ cands, res.userSubscriptionId = c.id ∧
    ((dueReset env now c).amountTotal > 0 →
      (dueReset env now c).amountUsed + amount ≤ (dueReset env now c).amountTotal) ∧
    st'.subs.find? c.id =
      some ((dueReset env now c).withUsed ((dueReset env now c).amountUsed + amount))
  others : ∀ c ∈ cands, c.id ≠ res.userSubscriptionId →
    ∃ c', ResetOnly env now c c' ∧ st'.subs.find? c.id = some c'
  frame : ∀ id, id ∉ cands.map UserSubscription.id → st'.subs.find? id = st.subs.find? id
  recorded : st'.records.find? requestId =
    some (consumedRecord requestId userId res.userSubscriptionId amount)
  otherRecords : ∀ id, id ≠ requestId → st'.records.find? id = st.records.find? id
  preConsumed : res.preConsumed = amount

variable {env : SubscriptionEnv} {now : Int} {c : UserSubscription} {rest : List UserSubscription}

theorem mem_save_dueReset {subs : SubscriptionTable} (hmem : ∀ c' ∈ rest, c' ∈ subs)
    (hnot : c.id ∉ rest.map UserSubscription.id) :
    ∀ c' ∈ rest, c' ∈ subs.save (dueReset env now c) := by
  intro c' hc'
  have hne : c'.id ≠ (dueReset env now c).id := by
    rw [dueReset_id]
    intro heq
    exact hnot (heq ▸ mem_map_of_mem hc')
  have hfind := find?_key (hmem c' hc')
  rw [← find?_save_of_ne hne] at hfind
  exact (find?_eq_some.mp hfind).1

theorem LoopCharged.skip (hc : c ∈ st.subs) (hnot : c.id ∉ rest.map UserSubscription.id)
    (h : LoopCharged env now requestId userId amount rest
      { st with subs := st.subs.save (dueReset env now c) } st' res) :
    LoopCharged env now requestId userId amount (c :: rest) st st' res := by
  have hid : (dueReset env now c).id = c.id := dueReset_id env now c
  obtain ⟨x, hx, hcharged⟩ := h.charged
  refine ⟨⟨x, mem_cons_of_mem _ hx, hcharged⟩, ?_, ?_, h.recorded, h.otherRecords, h.preConsumed⟩
  · intro y hy hne
    rcases mem_cons.mp hy with rfl | hy
    · refine ⟨dueReset env now y, resetOnly_dueReset env now y, ?_⟩
      rw [h.frame _ hnot]
      exact find?_save hid (find?_key hc)
    · exact h.others y hy hne
  · intro id hout
    rw [map_cons, mem_cons, not_or] at hout
    rw [h.frame id hout.2]
    exact find?_save_of_ne (by rw [hid]; exact hout.1)

theorem LoopCharged.head (hfresh : st.records.find? requestId = none)
    (hmem : ∀ c' ∈ c :: rest, c' ∈ st.subs) (hroom : ¬ ((dueReset env now c).amountTotal > 0 ∧
      (dueReset env now c).amountTotal - (dueReset env now c).amountUsed < amount))
    (h : chargeSubscription f requestId userId amount (dueReset env now c)
      { st with subs := st.subs.save (dueReset env now c) } = .ok (res, st')) :
    LoopCharged env now requestId userId amount (c :: rest) st st' res := by
  have hid : (dueReset env now c).id = c.id := dueReset_id env now c
  have hfresh' : ({ st with subs := st.subs.save (dueReset env now c) } :
      SubscriptionStore).records.find? requestId = none := hfresh
  obtain ⟨hres, hamt, hsubs, hrec, hrecs⟩ := chargeSubscription_eq_ok hfresh' h
  have hsave : st'.subs = st.subs.save
      ((dueReset env now c).withUsed ((dueReset env now c).amountUsed + amount)) := by
    rw [hsubs]
    exact save_save rfl
  have hfind : st'.subs.find? c.id =
      some ((dueReset env now c).withUsed ((dueReset env now c).amountUsed + amount)) := by
    rw [hsave]
    exact find?_save hid (find?_key (hmem c mem_cons_self))
  have hframe : ∀ id, id ≠ c.id → st'.subs.find? id = st.subs.find? id := by
    intro id hne
    rw [hsave]
    exact find?_save_of_ne (by simpa using hne)
  refine ⟨⟨c, mem_cons_self, hres.trans hid, fun h0 => by omega, hfind⟩, ?_, ?_,
    hres ▸ hrec, hrecs, hamt⟩
  · intro y hy hne
    have hyc : y.id ≠ c.id := by
      rw [← hid, ← hres]
      exact hne
    exact ⟨y, .refl env now y, by rw [hframe _ hyc, find?_key (hmem y hy)]⟩
  · intro id hout
    rw [map_cons, mem_cons, not_or] at hout
    exact hframe id hout.1

theorem preConsumeLoop_spec {cands : List UserSubscription}
    (hfresh : st.records.find? requestId = none) (hmem : ∀ c ∈ cands, c ∈ st.subs)
    (hnodup : (cands.map UserSubscription.id).Nodup)
    (h : preConsumeLoop env f requestId userId amount now cands st = .ok (res, st')) :
    LoopCharged env now requestId userId amount cands st st' res := by
  induction cands generalizing st with
  | nil => cases h
  | cons c rest ih =>
    have hc : c ∈ st.subs := hmem c mem_cons_self
    rw [map_cons, nodup_cons] at hnodup
    unfold preConsumeLoop preConsumeLoopIn at h
    obtain ⟨plan, hplan, h⟩ := bind_eq_ok.mp h
    obtain ⟨⟨c₀, st₀⟩, hreset, h⟩ := bind_eq_ok.mp h
    obtain ⟨d, hd, rfl, rfl⟩ := maybeReset_eq_ok hc hreset
    dsimp only at h
    rw [← dueReset_eq hplan hd] at h
    split at h
    · have hrest : ∀ c' ∈ rest, c' ∈ st.subs :=
        fun c' hc' => hmem c' (mem_cons_of_mem _ hc')
      exact .skip hc hnodup.1 (ih hfresh (mem_save_dueReset hrest hnodup.1) hnodup.2 h)
    · rename_i hskip
      exact .head hfresh hmem hskip h

theorem mem_activeSubscriptions {subs : SubscriptionTable} {s : UserSubscription} :
    s ∈ activeSubscriptions subs userId now ↔
      s ∈ subs ∧ s.userId = userId ∧ s.status = .active ∧ s.endTime > now := by
  simp [activeSubscriptions, mem_iff]

theorem nodup_activeSubscriptions (subs : SubscriptionTable) (userId now : Int) :
    ((activeSubscriptions subs userId now).map UserSubscription.id).Nodup := by
  refine ((perm_insertionSort _ _).map _).nodup_iff.mpr ?_
  exact subs.nodup.sublist (filter_sublist.map _)

theorem preConsumeUserSubscription_args {modelName : String} {quotaType : Int}
    {r : SubscriptionPreConsumeResult × SubscriptionStore}
    (h : preConsumeUserSubscription env f requestId userId modelName quotaType amount now st =
      .ok r) : trimSpace requestId ≠ "" ∧ 0 < amount := by
  unfold preConsumeUserSubscription preConsumeUserSubscriptionIn at h
  obtain ⟨-, h⟩ := ite_error_eq_ok.mp h
  obtain ⟨hreq, h⟩ := ite_error_eq_ok.mp h
  obtain ⟨hamount, -⟩ := ite_error_eq_ok.mp h
  exact ⟨hreq, by omega⟩

theorem LoopCharged.active
    (h : LoopCharged env now requestId userId amount (activeSubscriptions st.subs userId now)
      st st' res) :
    ∃ r, Charged env now requestId userId amount st st' res.userSubscriptionId r := by
  obtain ⟨⟨c, hc, hres, htotal, hfind⟩, hothers, hframe, hrec, hrecs, -⟩ := h
  obtain ⟨hmem, huser, hactive, hend⟩ := mem_activeSubscriptions.mp hc
  refine ⟨c, hres ▸ find?_key hmem, huser, ⟨hactive, hend⟩,
    resetOnly_dueReset env now c, htotal, hres ▸ hfind, ?_, hrec, hrecs⟩
  intro id hne
  by_cases hid : id ∈ (activeSubscriptions st.subs userId now).map UserSubscription.id
  · obtain ⟨y, hy, rfl⟩ := mem_map.mp hid
    obtain ⟨y', hyr, hy'⟩ := hothers y hy hne
    rw [hy', find?_key (mem_activeSubscriptions.mp hy).1]
    exact .some hyr
  · rw [hframe id hid]
    exact optionRel_refl (ResetOnly.refl env now) _

/-- **A pre-consume with a fresh request id that succeeds is a charge** of the requested amount. -/
theorem preConsumeUserSubscription_charged {modelName : String} {quotaType : Int}
    (hfresh : st.records.find? requestId = none)
    (h : preConsumeUserSubscription env f requestId userId modelName quotaType amount now st =
      .ok (res, st')) : res.preConsumed = amount ∧
      ∃ r, Charged env now requestId userId amount st st' res.userSubscriptionId r := by
  unfold preConsumeUserSubscription preConsumeUserSubscriptionIn at h
  obtain ⟨-, h⟩ := ite_error_eq_ok.mp h
  obtain ⟨-, h⟩ := ite_error_eq_ok.mp h
  obtain ⟨-, h⟩ := ite_error_eq_ok.mp h
  obtain ⟨-, hbody, -⟩ := transaction_eq_ok.mp h
  obtain ⟨_, -, hbody⟩ := bind_eq_ok.mp hbody
  rw [hfresh] at hbody
  simp only at hbody
  split at hbody
  · cases hbody
  · have hloop := preConsumeLoop_spec hfresh (fun c hc => (mem_activeSubscriptions.mp hc).1)
      (nodup_activeSubscriptions ..) hbody
    exact ⟨hloop.preConsumed, hloop.active⟩

/-! ## What a delta and a refund do -/

def DeltaFaults.Ok (f : DeltaFaults) : Prop :=
  f.beginTx = .none ∧ f.findSub = .none ∧ f.saveSub = .none ∧ f.commitTx = .none
deriving Decidable

def UserSubscription.Fits (sub : UserSubscription) (delta : Int) : Prop :=
  sub.amountTotal > 0 → newUsed sub.amountUsed delta ≤ sub.amountTotal
deriving Decidable

def SubscriptionStore.move (st : SubscriptionStore) (sub : UserSubscription) (delta : Int) :
    SubscriptionStore :=
  { st with subs := st.subs.save (sub.withUsed (newUsed sub.amountUsed delta)) }

variable {sid : Int}

theorem SubscriptionStore.find?_move (hsub : st.subs.find? sid = some sub) (delta : Int) :
    (st.move sub delta).subs.find? sid = some (sub.withUsed (newUsed sub.amountUsed delta)) := by
  have hid : sub.id = sid := (find?_eq_some.mp hsub).2
  exact find?_save hid hsub

variable {delta : Int} {f : DeltaFaults}

theorem postConsumeUserSubscriptionDelta_eq_ok (hsid : 0 < sid)
    (hdelta : delta ≠ 0) (hsub : st.subs.find? sid = some sub) (hf : f.Ok)
    (hfits : sub.Fits delta) :
    postConsumeUserSubscriptionDelta f sid delta st = .ok ((), st.move sub delta) := by
  obtain ⟨hb, hfs, hss, hc⟩ := hf
  have hroom : ¬ (sub.amountTotal > 0 ∧ newUsed sub.amountUsed delta > sub.amountTotal) := by
    rintro ⟨h0, h1⟩
    have := hfits h0
    omega
  unfold postConsumeUserSubscriptionDelta postConsumeUserSubscriptionDeltaIn transaction
  rw [if_neg (by omega), if_neg hdelta]
  simp only [hb, hfs, hss, hc, attempt_none, hsub, if_neg hroom]
  rfl

theorem postConsumeUserSubscriptionDelta_inv (hdelta : delta ≠ 0)
    (hsub : st.subs.find? sid = some sub)
    (h : postConsumeUserSubscriptionDelta f sid delta st = .ok ((), st')) :
    f.Ok ∧ sub.Fits delta ∧ st' = st.move sub delta := by
  unfold postConsumeUserSubscriptionDelta postConsumeUserSubscriptionDeltaIn at h
  split at h
  · cases h
  · obtain ⟨hb, hbody, hc⟩ := transaction_eq_ok.mp h
    obtain ⟨_, hfs, hbody⟩ := bind_eq_ok.mp hbody
    rw [hsub] at hbody
    simp only at hbody
    split at hbody
    · cases hbody
    · rename_i hroom
      obtain ⟨_, hss, hbody⟩ := bind_eq_ok.mp hbody
      cases hbody
      refine ⟨⟨hb, attempt_eq_ok.mp hfs, attempt_eq_ok.mp hss, hc⟩, fun h0 => ?_, rfl⟩
      exact not_lt.mp fun hgt => hroom ⟨h0, hgt⟩

theorem postConsumeUserSubscriptionDelta_eq_error (hdelta : delta ≠ 0)
    (hsub : st.subs.find? sid = some sub) (h : ¬ (f.Ok ∧ sub.Fits delta)) :
    ∃ e, postConsumeUserSubscriptionDelta f sid delta st = .error e := by
  cases hres : postConsumeUserSubscriptionDelta f sid delta st with
  | error e => exact ⟨e, rfl⟩
  | ok r =>
    obtain ⟨hok, hfits, -⟩ := postConsumeUserSubscriptionDelta_inv hdelta hsub hres
    exact absurd ⟨hok, hfits⟩ h

def RefundFaults.Pays (f : RefundFaults) : Prop :=
  f.beginTx = .none ∧ f.findRecord = .none ∧ f.delta.Ok
deriving Decidable

def RefundFaults.Marks (f : RefundFaults) : Prop :=
  f.Pays ∧ f.saveRecord = .none ∧ f.commitTx = .none
deriving Decidable

def SubscriptionStore.mark (st : SubscriptionStore) (record : SubscriptionPreConsumeRecord) :
    SubscriptionStore :=
  { st with records := st.records.save { record with status := .refunded } }

theorem SubscriptionStore.find?_mark {record : SubscriptionPreConsumeRecord}
    (h : st.records.find? requestId = some record) :
    (st.mark record).records.find? requestId = some { record with status := .refunded } := by
  have hkey : record.requestId = requestId := (find?_eq_some.mp h).2
  exact find?_save hkey h

theorem refundSubscriptionPreConsume_refunded {f : RefundFaults}
    {record : SubscriptionPreConsumeRecord} (hrec : st.records.find? requestId = some record)
    (hst : record.status = .refunded) : (refundSubscriptionPreConsume f requestId st).2 = st := by
  unfold refundSubscriptionPreConsume refundSubscriptionPreConsumeIn
  split
  · rfl
  · split
    · rfl
    · rw [hrec]
      simp [if_pos hst]

section Refund

variable {f : RefundFaults} {requestId : String} {st : SubscriptionStore}
  {record : SubscriptionPreConsumeRecord} {sub : UserSubscription}
  (hrec : st.records.find? requestId = some record) (hst : record.status = .consumed)
  (hpos : 0 < record.preConsumed) (hsub : st.subs.find? record.userSubscriptionId = some sub)

include hrec hst hpos hsub

section

variable (hreq : trimSpace requestId ≠ "") (hsid : 0 < record.userSubscriptionId)

include hreq hsid

theorem refundSubscriptionPreConsume_marks (hf : f.Marks) (hfits : sub.Fits (-record.preConsumed)) :
    refundSubscriptionPreConsume f requestId st =
      (.ok (), (st.move sub (-record.preConsumed)).mark record) := by
  obtain ⟨⟨hb, hfr, hd⟩, hs, hc⟩ := hf
  have hdelta := postConsumeUserSubscriptionDelta_eq_ok hsid
    (show -record.preConsumed ≠ 0 by omega) hsub hd hfits
  have hnot : record.status ≠ .refunded := by rw [hst]; decide
  unfold refundSubscriptionPreConsume refundSubscriptionPreConsumeIn
  rw [if_neg hreq]
  simp only [hb, hfr, hs, hc, attempt_none, hrec, if_neg hnot,
    if_neg (show ¬ record.preConsumed ≤ 0 by omega), hdelta]
  rfl

/-- **A refund whose delta commits but whose own transaction fails** leaves the record unmarked. -/
theorem refundSubscriptionPreConsume_half (hf : f.Pays) (hm : ¬ f.Marks)
    (hfits : sub.Fits (-record.preConsumed)) : ∃ e, refundSubscriptionPreConsume f requestId st =
      (.error e, st.move sub (-record.preConsumed)) := by
  obtain ⟨hb, hfr, hd⟩ := hf
  have hdelta := postConsumeUserSubscriptionDelta_eq_ok hsid
    (show -record.preConsumed ≠ 0 by omega) hsub hd hfits
  have hnot : record.status ≠ .refunded := by rw [hst]; decide
  unfold refundSubscriptionPreConsume refundSubscriptionPreConsumeIn
  rw [if_neg hreq]
  simp only [hb, hfr, attempt_none, hrec, if_neg hnot,
    if_neg (show ¬ record.preConsumed ≤ 0 by omega), hdelta]
  cases hs : f.saveRecord with
  | some text => exact ⟨_, rfl⟩
  | none =>
    cases hc : f.commitTx with
    | some text => exact ⟨_, rfl⟩
    | none => exact absurd ⟨⟨hb, hfr, hd⟩, hs, hc⟩ hm

end

theorem refundSubscriptionPreConsume_fails (hf : ¬ (f.Pays ∧ sub.Fits (-record.preConsumed))) :
    ∃ e, refundSubscriptionPreConsume f requestId st = (.error e, st) := by
  have hnot : record.status ≠ .refunded := by rw [hst]; decide
  unfold refundSubscriptionPreConsume refundSubscriptionPreConsumeIn
  split
  · exact ⟨_, rfl⟩
  · cases hb : f.beginTx with
    | some text => exact ⟨_, rfl⟩
    | none =>
      cases hfr : f.findRecord with
      | some text => exact ⟨_, rfl⟩
      | none =>
        have hdelta : ¬ (f.delta.Ok ∧ sub.Fits (-record.preConsumed)) :=
          fun h => hf ⟨⟨hb, hfr, h.1⟩, h.2⟩
        obtain ⟨e, he⟩ := postConsumeUserSubscriptionDelta_eq_error
          (show -record.preConsumed ≠ 0 by omega) hsub hdelta
        refine ⟨e, ?_⟩
        simp only [attempt_none, hrec, if_neg hnot,
          if_neg (show ¬ record.preConsumed ≤ 0 by omega), he]
        rfl

theorem refundSubscriptionPreConsume_none : refundSubscriptionPreConsume .none requestId st =
        (.ok (), (st.move sub (-record.preConsumed)).mark record) ∨
      ∃ e, refundSubscriptionPreConsume .none requestId st = (.error e, st) := by
  have hnot : record.status ≠ .refunded := by rw [hst]; decide
  unfold refundSubscriptionPreConsume refundSubscriptionPreConsumeIn
  split
  · exact .inr ⟨_, rfl⟩
  · simp only [RefundFaults.none, attempt_none, hrec, if_neg hnot,
      if_neg (show ¬ record.preConsumed ≤ 0 by omega)]
    cases hdelta : postConsumeUserSubscriptionDeltaIn (fun n => n) .none record.userSubscriptionId
        (-record.preConsumed) st with
    | error e => exact .inr ⟨e, rfl⟩
    | ok r =>
      obtain ⟨-, -, hmove⟩ := postConsumeUserSubscriptionDelta_inv
        (show -record.preConsumed ≠ 0 by omega) hsub hdelta
      rw [← hmove]
      exact .inl rfl

end Refund

end NomoApi
