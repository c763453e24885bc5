import NomoApi.Subscription.ConsumeTx

/-! # Calls with one request id at the same time

Any number of calls of `PreConsumeUserSubscription` with one request id run at the same time. The
unique index lets one of them insert its record. With committed reads, another one may report a
candidate that the record does not name, or save a due reset, with nothing used, over the charge. -/

namespace NomoApi

open List ConsumeCall Table ConsumeTx ConsumeRace

universe u

/-! ### The subscriptions of a user -/

def SubscriptionStore.ofUser (st : SubscriptionStore) (userId : Int) : SubscriptionTable :=
  st.subs.filter (·.userId = userId)

theorem activeSubscriptions_filter (t : SubscriptionTable) (userId now : Int) :
    activeSubscriptions (t.filter (·.userId = userId)) userId now =
      activeSubscriptions t userId now := by
  simp only [activeSubscriptions, Table.filter, filter_filter]
  congr 1
  refine filter_congr fun r _ => ?_
  by_cases hr : r.userId = userId <;> simp [hr]

theorem activeSubscriptions_ofUser (st : SubscriptionStore) (userId now : Int) :
    activeSubscriptions (st.ofUser userId) userId now = activeSubscriptions st.subs userId now :=
  activeSubscriptions_filter st.subs userId now

theorem find?_ofUser {st : SubscriptionStore} {userId id : Int} {r : UserSubscription} :
    (st.ofUser userId).find? id = some r ↔ st.subs.find? id = some r ∧ r.userId = userId := by
  rw [SubscriptionStore.ofUser, Table.find?_filter, decide_eq_true_iff]

def SameOwners (t₀ t : SubscriptionTable) : Prop :=
  ∀ r ∈ t, ∃ r₀ ∈ t₀, r₀.id = r.id ∧ r₀.userId = r.userId

def OwnRow (t₀ : SubscriptionTable) (userId : Int) (r : UserSubscription) : Prop :=
  r.userId = userId ∧ ∃ r₀ ∈ t₀, r₀.id = r.id ∧ r₀.userId = userId

section Owners

variable {t₀ t : SubscriptionTable} {userId userId' : Int} {r : UserSubscription}
  {saved : List UserSubscription}

theorem sameOwners_refl (t : SubscriptionTable) : SameOwners t t := fun r hr => ⟨r, hr, rfl, rfl⟩

section

variable (h : SameOwners t₀ t)

include h

theorem SameOwners.ownRow (hr : r ∈ t) : OwnRow t₀ r.userId r :=
  ⟨rfl, h r hr⟩

theorem SameOwners.userId_eq (hr : OwnRow t₀ userId r) {b : UserSubscription} (hb : b ∈ t)
    (hid : b.id = r.id) : b.userId = userId := by
  obtain ⟨b₀, hb₀, hbid, hbuser⟩ := h b hb
  obtain ⟨-, r₀, hr₀, hrid, hruser⟩ := hr
  have heq : b₀ = r₀ := Table.eq_of_key_eq hb₀ hr₀ (hbid.trans (hid.trans hrid.symm))
  rw [← hbuser, heq, hruser]

theorem SameOwners.save (hr : OwnRow t₀ userId r) : SameOwners t₀ (t.save r) := by
  intro x hx
  obtain ⟨c, hc, rfl⟩ := mem_save.mp hx
  split
  · obtain ⟨huser, r₀, hr₀, hid, hruser⟩ := hr
    exact ⟨r₀, hr₀, hid, hruser.trans huser.symm⟩
  · exact h c hc

theorem SameOwners.filter_save (hr : OwnRow t₀ userId r) (userId' : Int) :
    (t.save r).filter (·.userId = userId') = (t.filter (·.userId = userId')).save r := by
  refine Table.filter_save fun b hb hid => ?_
  rw [h.userId_eq hr hb hid, hr.1]

theorem SameOwners.foldl_save (hs : ∀ r ∈ saved, OwnRow t₀ userId r) (userId' : Int) :
    SameOwners t₀ (saved.foldl Table.save t) ∧
      (saved.foldl Table.save t).filter (·.userId = userId') =
        saved.foldl Table.save (t.filter (·.userId = userId')) := by
  induction saved generalizing t with
  | nil => exact ⟨h, rfl⟩
  | cons r saved ih =>
    obtain ⟨hr, hs⟩ := forall_mem_cons.mp hs
    obtain ⟨howners, hfilter⟩ := ih (h.save hr) hs
    refine ⟨howners, ?_⟩
    rw [foldl_cons, foldl_cons, hfilter, h.filter_save hr]

theorem foldl_save_of_ne (hs : ∀ r ∈ saved, OwnRow t₀ userId r) (hne : userId ≠ userId') :
    saved.foldl Table.save (t.filter (·.userId = userId')) = t.filter (·.userId = userId') := by
  induction saved with
  | nil => rfl
  | cons r saved ih =>
    obtain ⟨hr, hs⟩ := forall_mem_cons.mp hs
    have hnot : ∀ b ∈ t.filter (·.userId = userId'), b.id ≠ r.id := by
      intro b hb hid
      obtain ⟨hbt, hbuser⟩ := Table.mem_filter.mp hb
      exact hne ((h.userId_eq hr hbt hid).symm.trans (of_decide_eq_true hbuser))
    rw [foldl_cons, save_of_not_mem hnot]
    exact ih hs

end

end Owners

/-! ### The rows of a transaction -/

def ConsumePhase.rows : ConsumePhase → List UserSubscription
  | .resetting sub rest => sub :: rest
  | .inserting sub | .refused sub | .charging sub => [sub]
  | _ => []

section Rows

variable {env : SubscriptionEnv} {call : ConsumeCall} {t₀ : SubscriptionTable} {userId : Int}

variable {sub : UserSubscription}

theorem forall_mem_concat {P : UserSubscription → Prop} {l : List UserSubscription}
    (hl : ∀ r ∈ l, P r) (hsub : P sub) : ∀ r ∈ l ++ [sub], P r :=
  forall_mem_append.mpr ⟨hl, forall_mem_singleton.mpr hsub⟩

theorem OwnRow.apply (h : OwnRow t₀ userId sub) (decision : ResetDecision) :
    OwnRow t₀ userId (decision.apply sub) := by
  cases decision <;> exact h

theorem OwnRow.charged (h : OwnRow t₀ userId sub) (amount : Int) :
    OwnRow t₀ userId (sub.charged amount) := h

theorem ownRow_considerCandidates {cands : List UserSubscription}
    (h : ∀ c ∈ cands, OwnRow t₀ userId c) :
    ∀ r ∈ (call.considerCandidates env cands).rows, OwnRow t₀ userId r := by
  induction cands with
  | nil => exact fun r hr => absurd hr not_mem_nil
  | cons candidate rest ih =>
    obtain ⟨hcandidate, hrest⟩ := forall_mem_cons.mp h
    have hreset : ∀ decision : ResetDecision, ∀ r ∈ decision.apply candidate :: rest,
        OwnRow t₀ userId r :=
      fun decision => forall_mem_cons.mpr ⟨hcandidate.apply decision, hrest⟩
    rw [considerCandidates]
    cases (do resetDecision env candidate (← env.getPlan candidate.planId) call.now) with
    | error err => exact fun r hr => absurd hr not_mem_nil
    | ok decision =>
      cases decision with
      | keep =>
        dsimp only
        split
        · exact ih hrest
        · exact forall_mem_singleton.mpr hcandidate
      | schedule base next => exact hreset (.schedule base next)
      | reset base next => exact hreset (.reset base next)

theorem ownRow_afterReset {rest : List UserSubscription}
    (h : ∀ r ∈ sub :: rest, OwnRow t₀ userId r) :
    ∀ r ∈ (call.afterReset env sub rest).rows, OwnRow t₀ userId r := by
  obtain ⟨hsub, hrest⟩ := forall_mem_cons.mp h
  rw [afterReset]
  split
  · exact ownRow_considerCandidates hrest
  · exact forall_mem_singleton.mpr hsub

theorem ConsumeCall.rows_afterLookup (record : Option SubscriptionPreConsumeRecord) :
    (afterLookup record).rows = [] := by
  cases record with
  | none => rfl
  | some existing =>
    rw [afterLookup]
    split <;> rfl

theorem ConsumeCall.rows_afterFound (existing : SubscriptionPreConsumeRecord)
    (sub : Option UserSubscription) : (afterFound existing sub).rows = [] := by
  cases sub <;> rfl

theorem ConsumeCall.rows_afterRefused (sub : UserSubscription)
    (record : Option SubscriptionPreConsumeRecord) : (afterRefused sub record).rows = [] := by
  cases record with
  | none => rfl
  | some dup =>
    rw [afterRefused]
    split <;> rfl

theorem Scans.ownRow {cands saved : List UserSubscription} {phase : ConsumePhase}
    (h : Scans env call cands saved phase) (hcands : ∀ c ∈ cands, OwnRow t₀ userId c) :
    (∀ r ∈ saved, OwnRow t₀ userId r) ∧ ∀ r ∈ phase.rows, OwnRow t₀ userId r := by
  induction h with
  | read => exact ⟨fun r hr => absurd hr not_mem_nil, ownRow_considerCandidates hcands⟩
  | reset h ih =>
    obtain ⟨hsaved, hrows⟩ := ih
    exact ⟨forall_mem_concat hsaved (hrows _ mem_cons_self), ownRow_afterReset hrows⟩

theorem ownRow_activeSubscriptions {t : SubscriptionTable} (h : SameOwners t₀ t) (now : Int) :
    ∀ c ∈ activeSubscriptions t userId now, OwnRow t₀ userId c := by
  intro c hc
  obtain ⟨hmem, huser, -⟩ := mem_activeSubscriptions.mp hc
  exact huser ▸ h.ownRow hmem

theorem Scans.ownRow_charged {t : SubscriptionTable} {now : Int} {saved : List UserSubscription}
    (h : Scans env call (activeSubscriptions t userId now) saved (.inserting sub)) (amount : Int) :
    ∀ r ∈ saved ++ [sub.charged amount], OwnRow t userId r := by
  obtain ⟨hsaved, hrows⟩ := h.ownRow (ownRow_activeSubscriptions (sameOwners_refl t) now)
  exact forall_mem_concat hsaved ((hrows sub mem_cons_self).charged amount)

end Rows

/-! ### The choice of a subscription -/

def Picks (phase : ConsumePhase) (c : UserSubscription) : Prop :=
  phase = .inserting c ∨ ∃ err, phase = .rollingBack err

section

variable {env : SubscriptionEnv} {call : ConsumeCall} {cands saved : List UserSubscription}

theorem Scans.picks {phase : ConsumePhase} {c : UserSubscription}
    (h : Scans env call cands saved phase) (hpicks : Picks (call.considerCandidates env cands) c) :
    saved = [] ∧ Picks phase c := by
  induction h with
  | read => exact ⟨rfl, hpicks⟩
  | reset h ih =>
    -- a pick is not a reset
    rcases ih.2 with hphase | ⟨err, hphase⟩ <;> cases hphase

theorem Scans.inserting_of_picks {sub c : UserSubscription}
    (h : Scans env call cands saved (.inserting sub))
    (hpicks : Picks (call.considerCandidates env cands) c) : saved = [] ∧ sub = c := by
  obtain ⟨hsaved, hphase | ⟨err, hphase⟩⟩ := h.picks hpicks
  · exact ⟨hsaved, ConsumePhase.inserting.inj hphase⟩
  · cases hphase

end

/-! ### The race -/

/-- **Calls that run at the same time**, and the tables they start from. Those with the request id
are of one user and amount; the others are of other users. -/
structure RequestRace (ι : Type u) where
  level : Isolation
  env : SubscriptionEnv
  calls : ι → ConsumeCall
  requestId : String
  userId : Int
  amount : Int
  store : SubscriptionStore
  fresh : store.records.find? requestId = none
  same : ∀ i, (calls i).requestId = requestId →
    (calls i).userId = userId ∧ (calls i).amount = amount
  others : ∀ i, (calls i).requestId ≠ requestId → (calls i).userId ≠ userId

namespace RequestRace

variable {ι : Type u}

def candidates (x : RequestRace ι) (i : ι) : List UserSubscription :=
  activeSubscriptions x.store.subs x.userId (x.calls i).now

/-- **The choice is stable**: all calls pick one subscription, also after its charge, without a
reset. -/
def Stable (x : RequestRace ι) : Prop :=
  ∃ c, ∀ i, (x.calls i).requestId = x.requestId →
    Picks ((x.calls i).considerCandidates x.env (x.candidates i)) c ∧
      Picks ((x.calls i).considerCandidates x.env
        (activeSubscriptions (x.store.subs.save (c.charged x.amount)) x.userId (x.calls i).now))
        (c.charged x.amount)

/-- **The subscriptions of the user are charged once**: `sid`, on top of the reset that was due at
`now`; the others are at most reset. -/
structure UserCharged (x : RequestRace ι) (st : SubscriptionStore) (now sid : Int)
    (r : UserSubscription) : Prop where
  before : x.store.subs.find? sid = some r
  user : r.userId = x.userId
  after : st.subs.find? sid = some ((dueReset x.env now r).charged x.amount)
  others : ∀ id r', id ≠ sid → x.store.subs.find? id = some r' → r'.userId = x.userId →
    ∃ r'', st.subs.find? id = some r'' ∧ ResetOnly x.env now r' r''
  recorded : st.records.find? x.requestId =
    some (consumedRecord x.requestId x.userId sid x.amount)

variable (x : RequestRace ι) (st : SubscriptionStore)

/-- The request has charged nothing yet. -/
def Untouched : Prop :=
  st.records.find? x.requestId = none ∧ st.ofUser x.userId = x.store.ofUser x.userId

/-- **The result names the stored record.** -/
def Reports (res : SubscriptionPreConsumeResult) : Prop :=
  ∃ record, st.records.find? x.requestId = some record ∧
    res.userSubscriptionId = record.userSubscriptionId ∧ res.preConsumed = record.preConsumed

/-- **The request is charged once**: nothing, or the amount once; and the calls that have succeeded
report the stored record. -/
structure ConsumedOnce (x : RequestRace ι) (p : ConsumeRace ι) : Prop where
  charged : x.Untouched p.shared.store ∨
    ∃ i sid r, (x.calls i).requestId = x.requestId ∧
      x.UserCharged p.shared.store (x.calls i).now sid r
  reports : ∀ i res, (x.calls i).requestId = x.requestId → (p.phase i).phase = .done res →
    x.Reports p.shared.store res

/-! ### The invariant -/

/-- **The charge of one call**, which is all that has happened to the user. -/
structure ChargedBy (x : RequestRace ι) (st : SubscriptionStore) (i : ι)
    (saved : List UserSubscription) (sub : UserSubscription) : Prop where
  scans : Scans x.env (x.calls i) (x.candidates i) saved (.inserting sub)
  recorded : st.records.find? x.requestId =
    some (consumedRecord x.requestId x.userId sub.id x.amount)
  rows : st.ofUser x.userId =
    (saved ++ [sub.charged x.amount]).foldl Table.save (x.store.ofUser x.userId)

def Outcome : Prop :=
  x.Untouched st ∨
    ∃ i saved sub, (x.calls i).requestId = x.requestId ∧ x.ChargedBy st i saved sub

/-- **The candidates that a call has read**: those of the beginning, or those after the charge. -/
def Read (i : ι) (cands : List UserSubscription) : Prop :=
  cands = x.candidates i ∨
    x.level = .readCommitted ∧ st.records.find? x.requestId ≠ none ∧
      cands = activeSubscriptions (st.ofUser x.userId) x.userId (x.calls i).now

/-- The snapshot is older than the charge. -/
def OldSnapshot (tx : ConsumeTx) : Prop :=
  ∃ seen, tx.snapshot = some seen ∧ x.Untouched seen

/-- **A call that has come to a candidate** through the ones that it has read. -/
structure Scanning (x : RequestRace ι) (st : SubscriptionStore) (i : ι) (tx : ConsumeTx)
    (phase : ConsumePhase) : Prop where
  inserted : tx.inserted = none
  snapshot : x.level = .repeatableRead → x.OldSnapshot tx
  scans : ∃ cands, x.Read st i cands ∧ Scans x.env (x.calls i) cands tx.saved phase

/-- **A call that has inserted its record**: nothing has happened to the user yet. -/
structure Charging (x : RequestRace ι) (db : ConsumeDb ι) (i : ι) (tx : ConsumeTx)
    (saved : List UserSubscription) (sub : UserSubscription) : Prop where
  inserted : tx.inserted = some (consumedRecord x.requestId x.userId sub.id x.amount)
  holds : db.locks (.key x.requestId) = some i
  free : db.store.records.find? x.requestId = none
  scans : Scans x.env (x.calls i) (x.candidates i) saved (.inserting sub)

def ReadOnly (tx : ConsumeTx) : Prop := tx.saved = [] ∧ tx.inserted = none

/-- **What holds of a call with the request id**, phase by phase. -/
def CallInv (db : ConsumeDb ι) (i : ι) (tx : ConsumeTx) : Prop :=
  match tx.phase with
  | .started => ReadOnly tx
  | .found existing => ReadOnly tx ∧ db.store.records.find? x.requestId = some existing
  | .searching => ReadOnly tx ∧ (x.level = .repeatableRead → x.OldSnapshot tx)
  | .resetting sub rest => x.Scanning db.store i tx (.resetting sub rest)
  | .inserting sub => x.Scanning db.store i tx (.inserting sub)
  | .refused sub => x.Scanning db.store i tx (.inserting sub)
  | .charging sub => x.Charging db i tx tx.saved sub
  | .committing res =>
    ReadOnly tx ∧ x.Reports db.store res ∨
      ∃ saved sub, tx.saved = saved ++ [sub.charged x.amount] ∧ x.Charging db i tx saved sub ∧
        res = (x.calls i).chargeResult sub
  | .done res => x.Reports db.store res
  | .rollingBack _ => True
  | .failed _ => True

/-- **What holds of every call**: it writes rows of its own user, and its own record. -/
structure Sound (x : RequestRace ι) (i : ι) (tx : ConsumeTx) : Prop where
  saved : ∀ r ∈ tx.saved, OwnRow x.store.subs (x.calls i).userId r
  rows : ∀ r ∈ tx.phase.rows, OwnRow x.store.subs (x.calls i).userId r
  snapshot : ∀ seen, tx.snapshot = some seen → SameOwners x.store.subs seen.subs
  inserted : ∀ record, tx.inserted = some record → record.requestId = (x.calls i).requestId

/-- **What holds in every state of a run.** -/
structure Inv (x : RequestRace ι) (p : ConsumeRace ι) : Prop where
  owners : SameOwners x.store.subs p.shared.store.subs
  sound : ∀ i, x.Sound i (p.phase i)
  outcome : x.Outcome p.shared.store
  call : ∀ i, (x.calls i).requestId = x.requestId → x.CallInv p.shared i (p.phase i)

/-! ### What a commit does to the user -/

def Keeps (st st' : SubscriptionStore) : Prop :=
  st'.records.find? x.requestId = st.records.find? x.requestId ∧
    st'.ofUser x.userId = st.ofUser x.userId

section Commit

variable {x : RequestRace ι} {st st' : SubscriptionStore} {db db' : ConsumeDb ι} {tx : ConsumeTx}
  {i j : ι}

theorem Keeps.refl : x.Keeps st st := ⟨rfl, rfl⟩

theorem Outcome.of_keeps (h : x.Outcome st) (hkeeps : x.Keeps st st') : x.Outcome st' := by
  rcases h with ⟨hnone, hrows⟩ | ⟨i, saved, sub, hi, hscans, hrecorded, hrows⟩
  · exact .inl ⟨hkeeps.1.trans hnone, hkeeps.2.trans hrows⟩
  · exact .inr ⟨i, saved, sub, hi, hscans, hkeeps.1.trans hrecorded, hkeeps.2.trans hrows⟩

theorem Outcome.untouched (h : x.Outcome st) (hnone : st.records.find? x.requestId = none) :
    x.Untouched st := by
  rcases h with h | ⟨i, saved, sub, -, -, hrecorded, -⟩
  · exact h
  · rw [hnone] at hrecorded
    cases hrecorded

theorem Untouched.activeSubscriptions_eq (h : x.Untouched st) (i : ι) :
    activeSubscriptions st.subs x.userId (x.calls i).now = x.candidates i := by
  rw [← activeSubscriptions_ofUser, h.2, activeSubscriptions_ofUser, candidates]

theorem Sound.keeps_commit (h : x.Sound i tx) (hi : (x.calls i).requestId ≠ x.requestId)
    (howners : SameOwners x.store.subs st.subs) : x.Keeps st (tx.commit st) := by
  constructor
  · rw [commit]
    cases hrecord : tx.inserted with
    | none => rfl
    | some record =>
      dsimp only
      rw [insertIgnore]
      cases hinsert : st.records.insert? record with
      | none => rfl
      | some records =>
        rw [Option.getD_some]
        refine find?_insert?_of_ne hinsert fun heq => hi ?_
        rw [← h.inserted record hrecord]
        exact heq.symm
  · exact (howners.foldl_save h.saved x.userId).2.trans
      (foldl_save_of_ne howners h.saved (x.others i hi))

theorem Charging.chargedBy_commit {saved : List UserSubscription} {sub : UserSubscription}
    (h : x.Charging db i tx saved sub) (hsaved : tx.saved = saved ++ [sub.charged x.amount])
    (hsound : x.Sound i tx) (houtcome : x.Outcome db.store)
    (howners : SameOwners x.store.subs db.store.subs) :
    x.ChargedBy (tx.commit db.store) i saved sub := by
  refine ⟨h.scans, ?_, ?_⟩
  · obtain ⟨records, hrecords⟩ := exists_insert?
      (a := consumedRecord x.requestId x.userId sub.id x.amount) h.free
    rw [commit, h.inserted]
    dsimp only
    rw [insertIgnore, hrecords, Option.getD_some]
    exact find?_insert? hrecords
  · have hrows := (howners.foldl_save hsound.saved x.userId).2
    rw [hsaved] at hrows
    rw [SubscriptionStore.ofUser, commit, hsaved]
    refine hrows.trans ?_
    rw [← (houtcome.untouched h.free).2]
    rfl

variable {res : SubscriptionPreConsumeResult}

theorem CallInv.commit (h : x.CallInv db i tx) (hphase : tx.phase = .committing res)
    (hsound : x.Sound i tx) (houtcome : x.Outcome db.store)
    (howners : SameOwners x.store.subs db.store.subs) :
    tx.commit db.store = db.store ∧ x.Reports db.store res ∨
      db.store.records.find? x.requestId = none ∧ db.locks (.key x.requestId) = some i ∧
        ∃ saved sub, x.ChargedBy (tx.commit db.store) i saved sub ∧
          res = (x.calls i).chargeResult sub := by
  rw [CallInv, hphase] at h
  rcases h with ⟨hread, hreports⟩ | ⟨saved, sub, hsaved, hcharging, hres⟩
  · exact .inl ⟨by rw [ConsumeTx.commit, hread.1, hread.2]; rfl, hreports⟩
  · exact .inr ⟨hcharging.free, hcharging.holds, saved, sub,
      hcharging.chargedBy_commit hsaved hsound houtcome howners, hres⟩

/-! ### The others -/

theorem Scanning.of_keeps {phase : ConsumePhase} (h : x.Scanning st i tx phase)
    (hkeeps : x.Keeps st st') : x.Scanning st' i tx phase := by
  obtain ⟨hinserted, hsnapshot, cands, hread, hscans⟩ := h
  refine ⟨hinserted, hsnapshot, cands, ?_, hscans⟩
  rcases hread with hread | ⟨hlevel, hsome, hread⟩
  · exact .inl hread
  · rw [← hkeeps.1] at hsome
    rw [← hkeeps.2] at hread
    exact .inr ⟨hlevel, hsome, hread⟩

theorem Charging.of_keeps {saved : List UserSubscription} {sub : UserSubscription}
    (h : x.Charging db i tx saved sub) (hkeeps : x.Keeps db.store db'.store)
    (hlocks : ∀ k, db.locks k = some i → db'.locks k = some i) : x.Charging db' i tx saved sub :=
  ⟨h.inserted, hlocks _ h.holds, hkeeps.1.trans h.free, h.scans⟩

theorem CallInv.imp (h : x.CallInv db i tx)
    (hfound : ∀ record, db.store.records.find? x.requestId = some record →
      db'.store.records.find? x.requestId = some record)
    (hscanning : ∀ phase, x.Scanning db.store i tx phase → x.Scanning db'.store i tx phase)
    (hcharging : ∀ saved sub, x.Charging db i tx saved sub → x.Charging db' i tx saved sub) :
    x.CallInv db' i tx := by
  have hreports : ∀ res, x.Reports db.store res → x.Reports db'.store res :=
    fun _ ⟨record, hrecord, hres⟩ => ⟨record, hfound record hrecord, hres⟩
  rw [CallInv] at h ⊢
  cases hphase : tx.phase with
    rw [hphase] at h
  | started | searching | rollingBack err | failed err => exact h
  | found existing =>
    exact ⟨h.1, hfound existing h.2⟩
  | resetting sub rest | inserting sub | refused sub =>
    exact hscanning _ h
  | charging sub =>
    exact hcharging _ _ h
  | committing res =>
    rcases h with ⟨hread, h⟩ | ⟨saved, sub, hsaved, h, hres⟩
    · exact .inl ⟨hread, hreports res h⟩
    · exact .inr ⟨saved, sub, hsaved, hcharging saved sub h, hres⟩
  | done res =>
    exact hreports res h

theorem CallInv.of_keeps (h : x.CallInv db i tx) (hkeeps : x.Keeps db.store db'.store)
    (hlocks : ∀ k, db.locks k = some i → db'.locks k = some i) : x.CallInv db' i tx :=
  h.imp (fun _ => hkeeps.1.trans) (fun _ hscanning => hscanning.of_keeps hkeeps)
    fun _ _ hcharging => hcharging.of_keeps hkeeps hlocks

theorem Scanning.of_none {phase : ConsumePhase} (h : x.Scanning st i tx phase)
    (hnone : st.records.find? x.requestId = none) : x.Scanning st' i tx phase := by
  obtain ⟨hinserted, hsnapshot, cands, hread, hscans⟩ := h
  rcases hread with hread | ⟨-, hsome, -⟩
  · exact ⟨hinserted, hsnapshot, cands, .inl hread, hscans⟩
  · exact absurd hnone hsome

/-- **Another call** has found no record, and does not hold the key. -/
theorem CallInv.of_charge (h : x.CallInv db j tx)
    (hnone : db.store.records.find? x.requestId = none)
    (hlock : db.locks (.key x.requestId) = some i) (hne : j ≠ i) : x.CallInv db' j tx := by
  refine h.imp (fun record hrecord => ?_) (fun _ hscanning => hscanning.of_none hnone)
    fun saved sub hcharging => ?_
  · cases hnone.symm.trans hrecord
  · exact absurd (Option.some.inj (hcharging.holds.symm.trans hlock)) hne

end Commit

/-! ### What a read finds -/

section View

variable {x : RequestRace ι} {db : ConsumeDb ι} {tx : ConsumeTx} {i : ι}

theorem Sound.owners_view (h : x.Sound i tx) (howners : SameOwners x.store.subs db.store.subs)
    (level : Isolation) : SameOwners x.store.subs (tx.view level db).subs := by
  cases level with
  | readCommitted => exact howners
  | repeatableRead =>
    rw [view]
    cases hseen : tx.snapshot with
    | none => exact howners
    | some seen => exact h.snapshot seen hseen

theorem Scanning.callInv (h : x.Scanning db.store i tx tx.phase) : x.CallInv db i tx := by
  obtain ⟨cands, -, hscans⟩ := h.scans
  rw [CallInv]
  rcases hscans.phase_cases with ⟨sub, rest, hphase⟩ | ⟨sub, hphase⟩ | ⟨err, hphase⟩
  · rw [hphase] at h ⊢
    exact h
  · rw [hphase] at h ⊢
    exact h
  · rw [hphase]
    trivial

theorem read_view (hsnapshot : x.level = .repeatableRead → x.OldSnapshot tx)
    (houtcome : x.Outcome db.store) : x.Read db.store i
      (activeSubscriptions (tx.view x.level db).subs x.userId (x.calls i).now) := by
  cases hlevel : x.level with
  | readCommitted =>
    by_cases hnone : db.store.records.find? x.requestId = none
    · exact .inl ((houtcome.untouched hnone).activeSubscriptions_eq i)
    · exact .inr ⟨hlevel, hnone, (activeSubscriptions_ofUser ..).symm⟩
  | repeatableRead =>
    obtain ⟨seen, hseen, huntouched⟩ := hsnapshot hlevel
    rw [view, hseen]
    exact .inl (huntouched.activeSubscriptions_eq i)

/-- **With a stable choice, a refused call has chosen what was charged**, and has saved nothing. -/
theorem Stable.refused (hstable : x.Stable) (hi : (x.calls i).requestId = x.requestId)
    (houtcome : x.Outcome db.store) {sub : UserSubscription}
    (h : x.Scanning db.store i tx (.inserting sub)) {dup : SubscriptionPreConsumeRecord}
    (hdup : db.store.records.find? x.requestId = some dup) :
    tx.saved = [] ∧ sub.id = dup.userSubscriptionId := by
  obtain ⟨c, hpicks⟩ := hstable
  obtain ⟨cands, hread, hscans⟩ := h.scans
  rcases houtcome with ⟨hnone, -⟩ | ⟨w, saved, charged, hw, hcharged⟩
  · rw [hnone] at hdup
    cases hdup
  · obtain ⟨rfl, rfl⟩ := hcharged.scans.inserting_of_picks (hpicks w hw).1
    have hid : dup.userSubscriptionId = charged.id := by
      have hrecorded := hcharged.recorded
      rw [hdup] at hrecorded
      rw [Option.some.inj hrecorded]
      rfl
    rcases hread with rfl | ⟨-, -, rfl⟩
    · obtain ⟨hsaved, rfl⟩ := hscans.inserting_of_picks (hpicks i hi).1
      exact ⟨hsaved, hid.symm⟩
    · -- read after the charge: the rows of the beginning, with the charged one
      have hown : OwnRow x.store.subs x.userId (charged.charged x.amount) :=
        hcharged.scans.ownRow_charged x.amount _ mem_cons_self
      have hrows : db.store.ofUser x.userId =
          (x.store.subs.save (charged.charged x.amount)).filter (·.userId = x.userId) := by
        rw [(sameOwners_refl x.store.subs).filter_save hown]
        exact hcharged.rows
      rw [hrows, activeSubscriptions_filter] at hscans
      obtain ⟨hsaved, rfl⟩ := hscans.inserting_of_picks (hpicks i hi).2
      exact ⟨hsaved, hid.symm⟩

/-! The statements of a call with the request id, one after the other. -/

theorem callInv_started (h : ReadOnly tx) (houtcome : x.Outcome db.store)
    (hsnapshot : tx.snapshot = some db.store)
    (hphase : tx.phase = afterLookup (db.store.records.find? x.requestId)) : x.CallInv db i tx := by
  rw [CallInv, hphase]
  cases hrecord : db.store.records.find? x.requestId with
  | none => exact ⟨h, fun _ => ⟨db.store, hsnapshot, houtcome.untouched hrecord⟩⟩
  | some existing =>
    rw [afterLookup]
    by_cases hrefunded : existing.status = .refunded
    · rw [if_pos hrefunded]
      trivial
    · rw [if_neg hrefunded]
      exact ⟨h, rfl⟩

theorem callInv_found {existing : SubscriptionPreConsumeRecord} (h : ReadOnly tx)
    (hrecord : db.store.records.find? x.requestId = some existing) {subs : SubscriptionTable}
    (hphase : tx.phase = afterFound existing (subs.find? existing.userSubscriptionId)) :
    x.CallInv db i tx := by
  rw [CallInv, hphase]
  cases hsub : subs.find? existing.userSubscriptionId with
  | none => trivial
  | some sub => exact .inl ⟨h, existing, hrecord, (find?_eq_some.mp hsub).2, rfl⟩

theorem callInv_refused (hcond : x.level = .repeatableRead ∨ x.Stable)
    (hi : (x.calls i).requestId = x.requestId) (houtcome : x.Outcome db.store)
    {sub : UserSubscription} (h : x.Scanning db.store i tx (.inserting sub)) {tx' : ConsumeTx}
    (hsaved : tx'.saved = tx.saved) (hinserted : tx'.inserted = tx.inserted) (hphase : tx'.phase =
      afterRefused sub ((tx.view x.level db).records.find? x.requestId)) : x.CallInv db i tx' := by
  rw [CallInv, hphase]
  cases hrecord : (tx.view x.level db).records.find? x.requestId with
  | none => trivial
  | some dup =>
    rw [afterRefused]
    by_cases hrefunded : dup.status = .refunded
    · rw [if_pos hrefunded]
      trivial
    · rw [if_neg hrefunded]
      cases hlevel : x.level with
      | repeatableRead =>
        -- the transaction does not see the record that it collides with
        obtain ⟨seen, hseen, hnone, -⟩ := h.snapshot hlevel
        rw [hlevel, view, hseen, Option.getD_some, hnone] at hrecord
        cases hrecord
      | readCommitted =>
        rw [hlevel, view] at hrecord
        rw [hlevel] at hcond
        have hstable : x.Stable := hcond.resolve_left (by decide)
        obtain ⟨hnothing, hid⟩ := hstable.refused hi houtcome h hrecord
        exact .inl ⟨⟨hsaved.trans hnothing, hinserted.trans h.inserted⟩, dup, hrecord, hid, rfl⟩

end View

/-! ### The call that takes a step -/

section Step

variable [DecidableEq ι] {x : RequestRace ι} {db : ConsumeDb ι} {tx : ConsumeTx} {i : ι}

theorem Sound.statement (h : x.Sound i tx) (howners : SameOwners x.store.subs db.store.subs) :
    x.Sound i ((x.calls i).statement x.level x.env i db tx).2 := by
  have hnone : ∀ phase : ConsumePhase, phase.rows = [] →
      ∀ r ∈ phase.rows, OwnRow x.store.subs (x.calls i).userId r := by
    intro phase hrows r hr
    rw [hrows] at hr
    exact absurd hr not_mem_nil
  have hwait : ∀ {c : Prop} [Decidable c] {r : ConsumeDb ι × ConsumeTx}, (c → x.Sound i r.2) →
      x.Sound i (if c then r else (db, tx)).2 := waits (P := fun _ tx => x.Sound i tx) h
  have hrows := h.rows
  rw [ConsumeCall.statement]
  cases hphase : tx.phase with
  | started =>
    refine ⟨h.saved, hnone _ (rows_afterLookup _), ?_, h.inserted⟩
    rintro seen ⟨⟩
    exact howners
  | found existing =>
    exact ⟨h.saved, hnone _ (rows_afterFound _ _), h.snapshot, h.inserted⟩
  | searching =>
    refine ⟨h.saved, ?_, h.snapshot, h.inserted⟩
    dsimp only
    split
    · exact hnone _ rfl
    · exact ownRow_considerCandidates (ownRow_activeSubscriptions (h.owners_view howners x.level) _)
  | resetting sub rest =>
    rw [hphase] at hrows
    exact hwait fun _ => ⟨forall_mem_concat h.saved (hrows sub mem_cons_self),
      ownRow_afterReset hrows, h.snapshot, h.inserted⟩
  | inserting sub =>
    rw [hphase] at hrows
    refine hwait fun _ => ?_
    split
    · exact ⟨h.saved, hrows, h.snapshot, h.inserted⟩
    · refine ⟨h.saved, hrows, h.snapshot, ?_⟩
      rintro record ⟨⟩
      rfl
  | refused sub =>
    exact ⟨h.saved, hnone _ (rows_afterRefused _ _), h.snapshot, h.inserted⟩
  | charging sub =>
    rw [hphase] at hrows
    exact hwait fun _ => ⟨forall_mem_concat h.saved ((hrows sub mem_cons_self).charged _),
      hnone _ rfl, h.snapshot, h.inserted⟩
  | committing res => exact ⟨h.saved, hnone _ rfl, h.snapshot, h.inserted⟩
  | rollingBack err => exact ⟨h.saved, hnone _ rfl, h.snapshot, h.inserted⟩
  | done res | failed err => exact h

theorem Sound.abort (h : x.Sound i tx) (text : String) (db : ConsumeDb ι) :
    x.Sound i (tx.abort i text db).2 := by
  rw [ConsumeTx.abort]
  split
  · exact h
  · exact h
  · exact ⟨h.saved, fun r hr => absurd hr not_mem_nil, h.snapshot, h.inserted⟩

theorem CallInv.statement (hcond : x.level = .repeatableRead ∨ x.Stable) (h : x.CallInv db i tx)
    (hi : (x.calls i).requestId = x.requestId) (hsound : x.Sound i tx)
    (houtcome : x.Outcome db.store) (howners : SameOwners x.store.subs db.store.subs) :
    x.CallInv ((x.calls i).statement x.level x.env i db tx).1 i
      ((x.calls i).statement x.level x.env i db tx).2 := by
  obtain ⟨huser, hamount⟩ := x.same i hi
  have hkept := h
  have hwait : ∀ {c : Prop} [Decidable c] {r : ConsumeDb ι × ConsumeTx}, (c → x.CallInv r.1 i r.2) →
      x.CallInv (if c then r else (db, tx)).1 i (if c then r else (db, tx)).2 :=
    waits (P := fun db tx => x.CallInv db i tx) h
  rw [CallInv] at h
  rw [ConsumeCall.statement, hi, huser, hamount]
  cases hphase : tx.phase with
    rw [hphase] at h
  | started =>
    exact callInv_started h houtcome rfl rfl
  | found existing =>
    exact callInv_found h.1 h.2 rfl
  | searching =>
    dsimp only
    by_cases hempty : activeSubscriptions (tx.view x.level db).subs x.userId (x.calls i).now = []
    · rw [if_pos hempty]
      trivial
    · rw [if_neg hempty]
      refine Scanning.callInv ⟨h.1.2, h.2, _, read_view h.2 houtcome, ?_⟩
      dsimp only
      rw [h.1.1]
      exact .read
  | resetting sub rest =>
    obtain ⟨hinserted, hsnapshot, cands, hread, hscans⟩ := h
    exact hwait fun _ =>
      Scanning.callInv ⟨hinserted, hsnapshot, cands, hread, hscans.reset⟩
  | inserting sub =>
    refine hwait fun _ => ?_
    cases hrecord : db.store.records.find? x.requestId with
    | some record =>
      rw [Option.isSome_some, if_pos rfl]
      exact ⟨h.inserted, h.snapshot, h.scans⟩
    | none =>
      rw [Option.isSome_none, if_neg Bool.false_ne_true]
      obtain ⟨cands, hread, hscans⟩ := h.scans
      -- there is no record, so that the candidates are those of the beginning
      rcases hread with rfl | ⟨-, hsome, -⟩
      · exact ⟨rfl, Locks.take_self, hrecord, hscans⟩
      · exact absurd hrecord hsome
  | refused sub =>
    exact callInv_refused hcond hi houtcome h rfl rfl rfl
  | charging sub =>
    exact hwait fun hlock => .inr ⟨tx.saved, sub, rfl,
      ⟨h.inserted, Locks.held_take hlock h.holds, h.free, h.scans⟩, rfl⟩
  | committing res =>
    rcases hkept.commit hphase hsound houtcome howners with
      ⟨hcommit, hreports⟩ | ⟨-, -, saved, sub, hcharged, rfl⟩
    · dsimp only [CallInv]
      rw [hcommit]
      exact hreports
    -- the call reports the record that it has just committed
    · exact ⟨_, hcharged.recorded, rfl, hamount⟩
  | rollingBack err => trivial
  | done res | failed err => exact hkept

theorem CallInv.abort (h : x.CallInv db i tx) (text : String) :
    x.CallInv (tx.abort i text db).1 i (tx.abort i text db).2 := by
  rw [ConsumeTx.abort]
  split
  · exact h
  · exact h
  · trivial

end Step

/-! ### The race -/

section Race

variable [DecidableEq ι] {x : RequestRace ι} {p : ConsumeRace ι}

/-- **What a step does to the user**: nothing, or the charge of the call that takes it. -/
theorem Inv.effect (h : x.Inv p) (e : TxEvent ι) :
    x.Keeps p.shared.store (consumeStep x.level x.env x.calls p e).shared.store ∨
      p.shared.store.records.find? x.requestId = none ∧
        p.shared.locks (.key x.requestId) = some e.who ∧ (x.calls e.who).requestId = x.requestId ∧
        ∃ saved sub, x.ChargedBy (consumeStep x.level x.env x.calls p e).shared.store e.who
          saved sub := by
  rw [consumeStep, shared_interleave]
  rcases consumeNext_store x.level x.env x.calls e p.shared (p.phase e.who) with
    hstore | ⟨res, hphase, hstore⟩
  · rw [hstore]
    exact .inl .refl
  · rw [hstore]
    by_cases hi : (x.calls e.who).requestId = x.requestId
    · rcases (h.call e.who hi).commit hphase (h.sound e.who) h.outcome h.owners with
        ⟨hcommit, -⟩ | ⟨hnone, hlock, saved, sub, hcharged, -⟩
      · rw [hcommit]
        exact .inl .refl
      · exact .inr ⟨hnone, hlock, hi, saved, sub, hcharged⟩
    -- a call of another user
    · exact .inl ((h.sound e.who).keeps_commit hi h.owners)

theorem Inv.owners_step (h : x.Inv p) (e : TxEvent ι) :
    SameOwners x.store.subs (consumeStep x.level x.env x.calls p e).shared.store.subs := by
  rw [consumeStep, shared_interleave]
  rcases consumeNext_store x.level x.env x.calls e p.shared (p.phase e.who) with
    hstore | ⟨res, -, hstore⟩
  · rw [hstore]
    exact h.owners
  · rw [hstore]
    exact (h.owners.foldl_save (h.sound e.who).saved 0).1

theorem Inv.step (hcond : x.level = .repeatableRead ∨ x.Stable) (h : x.Inv p)
    (e : TxEvent ι) : x.Inv (consumeStep x.level x.env x.calls p e) := by
  refine ⟨h.owners_step e, ?_, ?_, ?_⟩
  · refine forall_interleave (J := fun i _ tx => x.Sound i tx) ?_ fun j _ => h.sound j
    cases e with
    | statement i => exact (h.sound i).statement h.owners
    | abort i text => exact (h.sound i).abort text p.shared
  · rcases h.effect e with hkeeps | ⟨-, -, hi, saved, sub, hcharged⟩
    · exact h.outcome.of_keeps hkeeps
    · exact .inr ⟨e.who, saved, sub, hi, hcharged⟩
  · refine forall_interleave
      (J := fun i db tx => (x.calls i).requestId = x.requestId → x.CallInv db i tx) ?_ ?_
    · intro hi
      cases e with
      | statement i => exact (h.call i hi).statement hcond hi (h.sound i) h.outcome h.owners
      | abort i text => exact (h.call i hi).abort text
    · intro j hne hj
      -- another call: nothing has changed for it, or it has lost the race for the record
      rcases h.effect e with hkeeps | ⟨hnone, hlock, -⟩
      · exact (h.call j hj).of_keeps hkeeps fun k hk => consumeNext_locks _ hne hk
      · exact (h.call j hj).of_charge hnone hlock hne

omit [DecidableEq ι] in
theorem inv_start : x.Inv (start x.store) where
  owners := sameOwners_refl x.store.subs
  sound _ :=
    ⟨fun _ hr => absurd hr not_mem_nil, fun _ hr => absurd hr not_mem_nil,
      nofun, nofun⟩
  outcome := .inl ⟨x.fresh, rfl⟩
  call _ _ := ⟨rfl, rfl⟩

/-! ### The charge, in the words of the sequential call -/

theorem resetOnly_userId {env : SubscriptionEnv} {now : Int} {r r' : UserSubscription}
    (h : ResetOnly env now r r') : r'.userId = r.userId := by
  rcases h with rfl | ⟨rfl, -⟩
  · rfl
  · exact dueReset_userId env now r

omit [DecidableEq ι] in
theorem userCharged_of_charged {st st' : SubscriptionStore} {now sid : Int} {r : UserSubscription}
    (h : Charged x.env now x.requestId x.userId x.amount x.store st' sid r)
    (hrows : st'.ofUser x.userId = st.ofUser x.userId) (hrecorded : st.records.find? x.requestId =
      some (consumedRecord x.requestId x.userId sid x.amount)) : x.UserCharged st now sid r := by
  have hfind : ∀ {id r'}, r'.userId = x.userId → st'.subs.find? id = some r' →
      st.subs.find? id = some r' := by
    intro id r' hr' hid
    have hmem := find?_ofUser.mpr ⟨hid, hr'⟩
    rw [hrows] at hmem
    exact (find?_ofUser.mp hmem).1
  refine ⟨h.before, h.user, hfind ((dueReset_userId ..).trans h.user) h.after, ?_, hrecorded⟩
  intro id r' hne hid hr'
  have hrel := h.others id hne
  rw [hid] at hrel
  cases hfound : st'.subs.find? id with
  | none =>
    rw [hfound] at hrel
    cases hrel
  | some r'' =>
    rw [hfound] at hrel
    have hreset := Option.rel_some_some.mp hrel
    exact ⟨r'', hfind ((resetOnly_userId hreset).trans hr') hfound, hreset⟩

omit [DecidableEq ι] in
/-- **The charge of a call is the charge of the sequential call**, for the user. -/
theorem ChargedBy.userCharged {st : SubscriptionStore} {i : ι} {saved : List UserSubscription}
    {sub : UserSubscription} (hi : (x.calls i).requestId = x.requestId)
    (h : x.ChargedBy st i saved sub) : ∃ r, x.UserCharged st (x.calls i).now sub.id r := by
  obtain ⟨huser, hamount⟩ := x.same i hi
  have hfresh : x.store.records.find? (x.calls i).requestId = none := hi ▸ x.fresh
  -- the way of the call is the candidate loop on the tables of the beginning, which charges once
  have hcall := (h.scans.loop x.store).trans (chargeSubscription_none (by exact hfresh))
  rw [huser, hi, hamount] at hcall
  obtain ⟨r, hcharge⟩ := (preConsumeLoop_spec x.fresh
    (fun c hc => (mem_activeSubscriptions.mp hc).1) (nodup_activeSubscriptions ..) hcall).active
  have hrows := ((sameOwners_refl x.store.subs).foldl_save (h.scans.ownRow_charged x.amount)
    x.userId).2.trans h.rows.symm
  rw [foldl_append] at hrows
  exact ⟨r, userCharged_of_charged hcharge hrows h.recorded⟩

end Race

end RequestRace

open RequestRace

variable {ι : Type u} [DecidableEq ι]

/-- **Calls with one request id charge it once, and report that charge**, if their reads are
repeatable, or their choice of a subscription is stable. -/
theorem consumedOnce_run (x : RequestRace ι) (hcond : x.level = .repeatableRead ∨ x.Stable)
    (es : List (TxEvent ι)) :
    x.ConsumedOnce (run (consumeStep x.level x.env x.calls) (start x.store) es) := by
  have hinv : x.Inv (run (consumeStep x.level x.env x.calls) (start x.store) es) :=
    run_induction (fun p e h => h.step hcond e) inv_start es
  refine ⟨?_, ?_⟩
  · rcases hinv.outcome with huntouched | ⟨i, saved, sub, hi, hcharged⟩
    · exact .inl huntouched
    · obtain ⟨r, hr⟩ := hcharged.userCharged hi
      exact .inr ⟨i, sub.id, r, hi, hr⟩
  · intro i res hi hphase
    -- the invariant of a finished call is the report itself
    have hcall := hinv.call i hi
    rw [CallInv, hphase] at hcall
    exact hcall

/-! ### Two calls with one request id -/

def repeatedCall : ConsumeCall where
  requestId := "r"
  userId := 1
  amount := 60
  now := 60
  userId_pos := by decide
  requestId_ne := by decide
  amount_pos := by decide

def repeatedRace (level : Isolation) (env : SubscriptionEnv) (subs : SubscriptionTable) :
    RequestRace Bool where
  level := level
  env := env
  calls := fun _ => repeatedCall
  requestId := "r"
  userId := 1
  amount := 60
  store := ⟨subs, .empty⟩
  fresh := rfl
  same := fun _ _ => ⟨rfl, rfl⟩
  others := fun _ h => absurd rfl h

def repeatedEnv (quotaResetPeriod : String) : SubscriptionEnv :=
  ⟨.utc, 100, fun id => .ok ⟨id, "basic", "month", 1, 0, 0, "", 100, quotaResetPeriod, 50⟩⟩

def repeatedSub (id amountUsed endTime : Int) : UserSubscription where
  id := id
  userId := 1
  planId := 1
  amountTotal := 100
  amountUsed := amountUsed
  startTime := 0
  endTime := endTime
  status := .active
  source := "order"
  lastResetTime := 0
  nextResetTime := 0
  upgradeGroup := ""
  prevUserGroup := ""

def repeatedSubs : SubscriptionTable := ⟨[repeatedSub 1 0 1000, repeatedSub 2 0 2000], by decide⟩

def overtaken (begun : Nat) : List (TxEvent Bool) :=
  List.replicate begun (.statement true) ++ List.replicate 6 (.statement false) ++
    List.replicate 5 (.statement true)

/-- **With committed reads, both halves fail.** A call that is overtaken before it reads the
subscriptions reports the second one; one overtaken after it saves a due reset over the charge. -/
theorem overtaken_not_consumedOnce :
    ¬ (repeatedRace .readCommitted (repeatedEnv "never") repeatedSubs).ConsumedOnce
        (run (consumeStep .readCommitted (repeatedEnv "never") fun _ => repeatedCall)
          (start ⟨repeatedSubs, .empty⟩) (overtaken 1)) ∧
      ¬ (repeatedRace .readCommitted (repeatedEnv "custom")
          (.singleton (repeatedSub 1 50 1000))).ConsumedOnce
        (run (consumeStep .readCommitted (repeatedEnv "custom") fun _ => repeatedCall)
          (start ⟨.singleton (repeatedSub 1 50 1000), .empty⟩) (overtaken 2)) := by
  constructor
  · intro h
    obtain ⟨record, hrecord, hid, -⟩ := h.reports true ⟨2, 60, 100, 0, 0⟩ rfl rfl
    cases hrecord
    exact absurd hid (by decide)
  · intro h
    rcases h.charged with ⟨hnone, -⟩ | ⟨i, sid, r, -, hcharged⟩
    · cases hnone
    · have hrecorded := hcharged.recorded
      cases hrecorded
      have hbefore := hcharged.before
      cases hbefore
      have hafter := hcharged.after
      cases hafter

/-- Repeatable reads keep the same two calls apart, and so does room for both without a reset. -/
theorem overtaken_consumedOnce : (repeatedRace .repeatableRead (repeatedEnv "custom")
        (.singleton (repeatedSub 1 50 1000))).ConsumedOnce
      (run (consumeStep .repeatableRead (repeatedEnv "custom") fun _ => repeatedCall)
        (start ⟨.singleton (repeatedSub 1 50 1000), .empty⟩) (overtaken 2)) ∧
    (repeatedRace .readCommitted (repeatedEnv "never")
        (.singleton { repeatedSub 1 50 1000 with amountTotal := 0 })).ConsumedOnce
      (run (consumeStep .readCommitted (repeatedEnv "never") fun _ => repeatedCall)
        (start ⟨.singleton { repeatedSub 1 50 1000 with amountTotal := 0 }, .empty⟩)
        (overtaken 2)) := by
  refine ⟨consumedOnce_run (repeatedRace .repeatableRead (repeatedEnv "custom") _) (.inl rfl) _,
    consumedOnce_run (repeatedRace .readCommitted (repeatedEnv "never") _) (.inr ?_) _⟩
  exact ⟨{ repeatedSub 1 50 1000 with amountTotal := 0 }, fun i _ => ⟨.inl rfl, .inl rfl⟩⟩

end NomoApi
