import NomoApi.Overrides.Attempts

/-! # Client headers that carry the gateway key

`TokenAuth` (`middleware/auth.go`) takes the client's key from one of five headers. The passthrough
rules of a channel send client headers upstream, except those on a list
(`passthroughSkipHeaderNamesLower`) that has three of the five. -/

namespace NomoApi

open List OverrideRequest

def bearerKey (key : String) : String :=
  if hasPrefix key "Bearer " || hasPrefix key "bearer " then
    trimSpace (String.ofList (key.toList.drop 7))
  else key

/-- The key in a `Sec-WebSocket-Protocol` header, or the whole header. -/
def webSocketKey (header : String) : String :=
  let start := "openai-insecure-api-key"
  match ((split header ',').map trimSpace).find? (hasPrefix · start) with
  | none => header
  | some part =>
    if hasPrefix part (start ++ ".") then String.ofList (part.toList.drop (start.length + 1))
    else part

/-- **The key that `TokenAuth` takes**, with `key` in the query. -/
def tokenAuthKey (req : OverrideRequest) (query : String) : String :=
  let bearer := fun (key auth : String) => if key ≠ "" then "Bearer " ++ key else auth
  let path := req.requestURLPath
  let protocol := req.get "Sec-WebSocket-Protocol"
  let auth := if protocol ≠ "" then "Bearer " ++ webSocketKey protocol else req.get "Authorization"
  let auth :=
    if contains path "/v1/messages" || contains path "/v1/models" then
      bearer (req.get "x-api-key") auth
    else auth
  let auth :=
    if hasPrefix path "/v1beta/models" || hasPrefix path "/v1beta/openai/models" ||
        hasPrefix path "/v1/models/" then
      bearer (req.get "x-goog-api-key") (bearer query auth)
    else auth
  let key := bearerKey auth
  let key :=
    if key = "" ∨ key = "midjourney-proxy" then bearerKey (req.get "mj-api-secret") else key
  let key := if hasPrefix key "sk-" then String.ofList (key.toList.drop 3) else key
  (split key '-').headD ""

def keyHeaders : List String :=
  ["authorization", "x-api-key", "x-goog-api-key", "mj-api-secret", "sec-websocket-protocol"]

def unskippedKeyHeaders : List String := ["mj-api-secret", "sec-websocket-protocol"]

variable {Body : Type} {world : HeaderWorld Body} {req : OverrideRequest} {st : RuntimeHeaders}
  {a : OverrideAttempt Body} {rules : List PassthroughRule}

def OnlyRules (world : HeaderWorld Body) (st : RuntimeHeaders) (a : OverrideAttempt Body) : Prop :=
  ∀ entry ∈ (getEffectiveHeaderOverride world st a).rows, isHeaderPassthroughRuleKey entry.1 = true

theorem explicitHeaders_of_rules {apiKey : String} {entries : List (String × String)}
    (h : ∀ entry ∈ entries, isHeaderPassthroughRuleKey entry.1 = true) (m : HeaderMap) :
    explicitHeaders world req apiKey m entries = .ok m := by
  induction entries with
  | nil => rfl
  | cons entry entries ih =>
    obtain ⟨hentry, hrest⟩ := forall_mem_cons.mp h
    rw [explicitHeaders, if_pos (.inl hentry)]
    exact ih hrest

theorem processHeaderOverride_of_rules (h : OnlyRules world st a) :
    processHeaderOverride world req st a =
      (activeRules world req (getEffectiveHeaderOverride world st a).rows).map
        (passHeadersOn req) := by
  unfold processHeaderOverride
  dsimp only
  cases activeRules world req (getEffectiveHeaderOverride world st a).rows with
  | error e => rfl
  | ok rules => exact explicitHeaders_of_rules h _

def Passes (rules : List PassthroughRule) (name value : String) : Prop :=
  ¬ (shouldSkipPassthroughHeader name ∨ rules.any (·.passes name) = false ∨ value = "")
deriving Decidable

def passOn (req : OverrideRequest) (rules : List PassthroughRule) (m : HeaderMap)
    (entry : String × String) : HeaderMap :=
  let value := trimSpace (req.get entry.1)
  if Passes rules entry.1 value then m.put (toLower (trimSpace entry.1), value) else m

theorem passHeadersOn_eq (req : OverrideRequest) (rules : List PassthroughRule) :
    passHeadersOn req rules = req.headers.foldl (passOn req rules) .empty := by
  unfold passHeadersOn
  congr 1
  funext m entry
  unfold passOn
  dsimp only
  by_cases hpass : Passes rules entry.1 (trimSpace (req.get entry.1))
  · rw [if_pos hpass]
    exact if_neg hpass
  · rw [if_neg hpass]
    exact if_pos (not_not.mp hpass)

theorem headerValue_passHeadersOn_eq_none {name : String} :
    headerValue (passHeadersOn req rules) name = none ↔
      ∀ entry ∈ req.headers, Passes rules entry.1 (trimSpace (req.get entry.1)) →
        toLower (trimSpace entry.1) ≠ name := by
  have hfold : ∀ (l : List (String × String)) (m : HeaderMap),
      headerValue (l.foldl (passOn req rules) m) name = none ↔
        headerValue m name = none ∧
          ∀ entry ∈ l, Passes rules entry.1 (trimSpace (req.get entry.1)) →
            toLower (trimSpace entry.1) ≠ name := by
    intro l
    induction l with
    | nil => simp
    | cons entry l ih =>
      intro m
      rw [foldl_cons, ih, forall_mem_cons, passOn]
      by_cases hpass : Passes rules entry.1 (trimSpace (req.get entry.1))
      · by_cases hname : name = toLower (trimSpace entry.1)
        · simp [hpass, headerValue, Table.find?_put, hname]
        · simp [hpass, headerValue, Table.find?_put, hname, eq_comm]
      · simp [hpass]
  rw [passHeadersOn_eq, hfold]
  exact and_iff_right rfl

theorem unskipped_of_passes {name value : String} (h : Passes rules name value)
    (hkey : toLower (trimSpace name) ∈ keyHeaders) :
    toLower (trimSpace name) ∈ unskippedKeyHeaders := by
  by_contra hskipped
  refine h (.inl ?_)
  rw [shouldSkipPassthroughHeader, Bool.or_eq_true, decide_eq_true_eq, decide_eq_true_eq]
  refine .inr ?_
  revert hkey hskipped
  generalize toLower (trimSpace name) = lower
  simp only [keyHeaders, unskippedKeyHeaders, passthroughSkipHeaderNamesLower, mem_cons,
    not_mem_nil, or_false]
  tauto

theorem passes_of_unskipped {name : String} (htrim : trimSpace name = name)
    (hkey : toLower name ∈ unskippedKeyHeaders) (hpasses : rules.any (·.passes name) = true) :
    Passes rules name "key" := by
  have hskip : toLower name ∉ passthroughSkipHeaderNamesLower ∧ name ≠ "" := by
    constructor
    · revert hkey
      generalize toLower name = lower
      simp only [unskippedKeyHeaders, passthroughSkipHeaderNamesLower, mem_cons,
        not_mem_nil, or_false]
      rintro (rfl | rfl) <;> decide
    · rintro rfl
      exact absurd hkey (by decide)
  simp [Passes, shouldSkipPassthroughHeader, htrim, hskip, hpasses]

def ordinaryHeaders (headers : List (String × String)) : List (String × String) :=
  headers.filter fun entry => toLower entry.1 ∉ keyHeaders

/-- Capitals at the start and after every hyphen. -/
def capitalize : Bool → List Char → List Char
  | _, [] => []
  | start, c :: cs => (if start then c.toUpper else c) :: capitalize (c = '-') cs

/-- **The name under which `net/http` keeps a header**, as in `Mj-Api-Secret`. -/
def canonicalHeaderKey (name : String) : String :=
  String.ofList (capitalize true (toLower name).toList)

def CanonicalNames (headers : List (String × String)) : Prop :=
  ∀ entry ∈ headers, canonicalHeaderKey entry.1 = entry.1 ∧ trimSpace entry.1 = entry.1

theorem get_ordinaryHeaders (headers : List (String × String)) {name : String}
    (h : toLower name ∉ keyHeaders) : get { req with headers := ordinaryHeaders headers } name =
      get { req with headers } name := by
  unfold OverrideRequest.get ordinaryHeaders
  rw [find?_filter]
  congr 3
  funext entry
  by_cases hname : toLower entry.1 = toLower name
  · simp [hname, h]
  · simp [hname]

/-- **The rules match neither of the two headers.** -/
def HidesKeys (rules : List PassthroughRule) : Prop :=
  ∀ name ∈ ["Mj-Api-Secret", "Sec-Websocket-Protocol"], rules.any (·.passes name) = false
deriving Decidable

/-- The two headers have one name each. -/
theorem mem_unskipped {name : String} (hname : canonicalHeaderKey name = name)
    (hkey : toLower name ∈ unskippedKeyHeaders) :
    name ∈ ["Mj-Api-Secret", "Sec-Websocket-Protocol"] := by
  rw [← hname, canonicalHeaderKey]
  revert hkey
  generalize toLower name = lower
  simp only [unskippedKeyHeaders, mem_cons, not_mem_nil, or_false]
  rintro (rfl | rfl)
  · exact .inl (by decide)
  · exact .inr (by decide)

theorem HidesKeys.not_passes (h : HidesKeys rules) {name : String}
    (hname : canonicalHeaderKey name = name ∧ trimSpace name = name)
    (hkey : toLower name ∈ keyHeaders) (value : String) : ¬ Passes rules name value := by
  intro hpass
  have hunskipped := unskipped_of_passes hpass (by rwa [hname.2])
  rw [hname.2] at hunskipped
  exact hpass (.inr (.inl (h name (mem_unskipped hname.1 hunskipped))))

theorem HidesKeys.passHeadersOn_eq (h : HidesKeys rules) {headers : List (String × String)}
    (hnames : CanonicalNames headers) : passHeadersOn { req with headers } rules =
      passHeadersOn { req with headers := ordinaryHeaders headers } rules := by
  rw [NomoApi.passHeadersOn_eq, NomoApi.passHeadersOn_eq]
  conv_rhs => rw [ordinaryHeaders, foldl_filter]
  refine foldl_ext _ _ _ fun m entry hentry => ?_
  by_cases hkey : toLower entry.1 ∈ keyHeaders
  · rw [passOn, if_neg (h.not_passes (hnames entry hentry) hkey _), if_neg (by simpa using hkey)]
  · rw [if_pos (by simpa using hkey)]
    have hget := @get_ordinaryHeaders req headers _ hkey
    rw [ordinaryHeaders] at hget
    simp only [passOn, hget]

/-- **The gateway key stays with the gateway**: the headers sent upstream do not depend on it, and
none of them carries it. -/
def KeyStays (world : HeaderWorld Body) (req : OverrideRequest) (st : RuntimeHeaders)
    (a : OverrideAttempt Body) : Prop :=
  ∀ h₁ h₂, CanonicalNames h₁ → CanonicalNames h₂ → ordinaryHeaders h₁ = ordinaryHeaders h₂ →
    ∃ m, processHeaderOverride world { req with headers := h₁ } st a = .ok m ∧
      processHeaderOverride world { req with headers := h₂ } st a = .ok m ∧
      ∀ name ∈ keyHeaders, headerValue m name = none

/-- **The key stays iff the rules of the channel match neither of the two headers** that the list
lacks. -/
theorem passthrough_hides_key_iff (honly : OnlyRules world st a)
    (hrules : activeRules world req (getEffectiveHeaderOverride world st a).rows = .ok rules) :
    KeyStays world req st a ↔ HidesKeys rules := by
  have hprocess : ∀ headers, processHeaderOverride world { req with headers } st a =
      .ok (passHeadersOn { req with headers } rules) := by
    intro headers
    rw [processHeaderOverride_of_rules honly]
    exact congrArg (Except.map _) hrules
  constructor
  · intro h name hname
    by_contra hpasses
    have hspelled : canonicalHeaderKey name = name ∧ trimSpace name = name ∧
        toLower name ∈ unskippedKeyHeaders := by
      clear hpasses
      revert name
      decide +kernel
    obtain ⟨hcanonical, htrim, hkey⟩ := hspelled
    have hnames : CanonicalNames [(name, "key")] := by
      simpa [CanonicalNames] using ⟨hcanonical, htrim⟩
    obtain ⟨m, hm, -, hnone⟩ := h _ _ hnames hnames rfl
    rw [hprocess] at hm
    cases hm
    have hsent := headerValue_passHeadersOn_eq_none.mp
      (hnone (toLower name) (mem_append_right ["authorization", "x-api-key", "x-goog-api-key"]
        hkey)) (name, "key") (by simp)
    have hget : get { req with headers := [(name, "key")] } name = "key" := by
      simp [OverrideRequest.get]
    rw [htrim, hget, show trimSpace "key" = "key" by decide] at hsent
    exact hsent (passes_of_unskipped htrim hkey (by simpa using hpasses)) rfl
  · intro h h₁ h₂ hnames₁ hnames₂ hsame
    refine ⟨_, hprocess h₁, ?_, fun name hname => ?_⟩
    · rw [hprocess, h.passHeadersOn_eq hnames₁, h.passHeadersOn_eq hnames₂, hsame]
    · refine headerValue_passHeadersOn_eq_none.mpr fun entry hentry hpass heq => ?_
      have hspelled := hnames₁ entry hentry
      rw [hspelled.2] at heq
      exact h.not_passes hspelled (heq ▸ hname) _ hpass

def ruleAttempt (key : String) : OverrideAttempt Unit :=
  { attemptOf "sk-upstream" none 0 with headersOverride := [(key, .str "")] }

/-- A world whose patterns stand for themselves. -/
def literalWorld : HeaderWorld Unit :=
  { plainWorld with compileRegex := fun pattern => .ok (contains · pattern) }

def secretRequest : OverrideRequest :=
  ⟨[("Mj-Api-Secret", "sk-client-7"), ("X-Trace-Id", "1")], "mj", "/mj/submit/imagine", false⟩

/-- **The rule passes on `X-Trace-Id`**, and the key stays. -/
theorem passthrough_hides_key_trace :
    ((processHeaderOverride literalWorld secretRequest .fresh (ruleAttempt "re:race")).map
        (headerValue · "x-trace-id")) = .ok (some "1") ∧
      KeyStays literalWorld secretRequest .fresh (ruleAttempt "re:race") := by
  have honly : OnlyRules literalWorld .fresh (ruleAttempt "re:race") := by
    unfold OnlyRules
    decide +kernel
  refine ⟨by decide +kernel, (@passthrough_hides_key_iff Unit literalWorld secretRequest .fresh _
    [.named (contains · "race")] honly rfl).mpr ?_⟩
  decide +kernel

/-- **All headers are passed on, and with them the client's key.** -/
theorem passthrough_sends_key : tokenAuthKey secretRequest "" = "client" ∧
      ((processHeaderOverride plainWorld secretRequest .fresh (ruleAttempt "*")).map
        (headerValue · "mj-api-secret")) = .ok (some "sk-client-7") := by
  decide +kernel

end NomoApi
