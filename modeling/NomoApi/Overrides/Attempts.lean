import NomoApi.Lib.Run
import NomoApi.Lib.Transaction
import NomoApi.Overrides.HeaderOps

/-! # Header overrides across the attempts of a request

What the operations of a parameter override leave in `header_override` is copied to
`RuntimeHeadersOverride` of the `RelayInfo`, which all attempts share, and replaces the header
overrides of every later channel (`GetEffectiveHeaderOverride`). An attempt is modelled up to the
override headers that it sends (`processHeaderOverride`, `relay/channel/api_request.go`). -/

namespace NomoApi

/-! ### The request, the channels and the attempts -/

structure OverrideRequest where
  /-- `c.Request.Header`: canonical names, first values. -/
  headers : List (String × String)
  originModelName : String
  requestURLPath : String
  isChannelTest : Bool

/-- **An attempt**: the `ChannelMeta`, the retry context, and the converted body. -/
structure OverrideAttempt (Body : Type) where
  apiKey : String
  upstreamModelName : String
  paramOverride : ParamOverride
  headersOverride : List (String × JsonValue)
  /-- The body is passed through; the parameter override is not applied. -/
  passThroughBody : Bool
  retryIndex : Nat
  lastError : Option LastError
  body : Body

def OverrideAttempt.withoutOverrides {Body : Type} (a : OverrideAttempt Body) :
    OverrideAttempt Body :=
  { a with paramOverride := ⟨[], none⟩, headersOverride := [] }

structure RuntimeHeaders where
  headers : HeaderMap
  use : Bool

def RuntimeHeaders.fresh : RuntimeHeaders := ⟨.empty, false⟩

structure HeaderWorld (Body : Type) extends JsonEngine Body where
  compileRegex : String → Except String (String → Bool)
  quote : String → String

inductive AttemptError where
  | paramOverride (e : OverrideError)
  | headerOverrideInvalid (message : String)
  deriving DecidableEq

section

variable {Body : Type} (world : HeaderWorld Body) (req : OverrideRequest) (st : RuntimeHeaders)
  (a : OverrideAttempt Body)

/-! ### The parameter override of an attempt -/

def getEffectiveHeaderOverride : HeaderMap :=
  sanitizeHeaderOverrideMap world.format
    -- once an override has been applied, its map stands in for that of every later channel
    (if st.use then headerEntries st.headers else a.headersOverride)

def OverrideRequest.get (name : String) : String :=
  ((req.headers.find? fun entry => toLower entry.1 = toLower name).map Prod.snd).getD ""

def OverrideRequest.requestHeaders : List (String × String) :=
  (req.headers.map fun entry => (entry.1, trimSpace (req.get entry.1))).filter (·.2 ≠ "")

def buildParamOverrideContext : OverrideContext where
  upstreamModel := a.upstreamModelName
  originalModel := req.originModelName
  requestPath := req.requestURLPath
  requestHeaders := buildRequestHeadersContext req.requestHeaders
  headerOverride :=
    sanitizeHeaderOverrideMap world.format (headerEntries (getEffectiveHeaderOverride world st a))
  retryIndex := a.retryIndex
  lastError := a.lastError
  isChannelTest := req.isChannelTest

def applyParamOverrideWithRelayInfo : Except OverrideError RuntimeHeaders :=
  if a.paramOverride.isEmpty then .ok st
  else do
    let (_, ctx) ← applyParamOverride world.toJsonEngine a.paramOverride a.body
      (buildParamOverrideContext world req st a)
    -- the map is read back whether or not an operation has changed it
    return ⟨sanitizeHeaderOverrideMap world.format (headerEntries ctx.headerOverride), true⟩

def prepareAttempt : Except OverrideError RuntimeHeaders :=
  if a.passThroughBody then .ok st else applyParamOverrideWithRelayInfo world req st a

/-- **What an attempt leaves in the `RelayInfo`.** -/
def nextRuntime : RuntimeHeaders :=
  match prepareAttempt world req st a with
  | .ok st' => st'
  | .error _ => st

/-! ### The override headers of an attempt -/

inductive PassthroughRule where
  | all
  | named (matches? : String → Bool)

def passthroughRule (k : String) : Except String (Option PassthroughRule) :=
  let key := trimSpace (toLower k)
  let named := fun (pattern : List Char) =>
    let pattern := trimSpace (String.ofList pattern)
    if pattern = "" then .error ("header passthrough regex pattern is empty: " ++ world.quote k)
    else (world.compileRegex pattern).map fun re => some (.named re)
  if key = "*" then .ok (some .all)
  else if hasPrefix key "re:" then named (key.toList.drop "re:".length)
  else if hasPrefix key "regex:" then named (key.toList.drop "regex:".length)
  else .ok none

def passthroughRules : List (String × String) → Except String (List PassthroughRule)
  | [] => .ok []
  | entry :: entries => do
      let rule ← passthroughRule world entry.1
      let rules ← passthroughRules entries
      return rule.toList ++ rules

def activeRules (source : List (String × String)) : Except String (List PassthroughRule) :=
  if req.isChannelTest then .ok [] else passthroughRules world source

def passthroughSkipHeaderNamesLower : List String :=
  ["connection", "keep-alive", "proxy-authenticate", "proxy-authorization", "te", "trailer",
    "transfer-encoding", "upgrade", "cookie", "host", "content-length", "accept-encoding",
    "authorization", "x-api-key", "x-goog-api-key", "sec-websocket-key", "sec-websocket-version",
    "sec-websocket-extensions"]

def shouldSkipPassthroughHeader (name : String) : Bool :=
  trimSpace name = "" || toLower (trimSpace name) ∈ passthroughSkipHeaderNamesLower

def PassthroughRule.passes (name : String) : PassthroughRule → Bool
  | .all => true
  | .named matches? => matches? name

def passHeadersOn (rules : List PassthroughRule) : HeaderMap :=
  req.headers.foldl (fun m entry =>
    let value := trimSpace (req.get entry.1)
    if shouldSkipPassthroughHeader entry.1 ∨ rules.any (·.passes entry.1) = false ∨ value = ""
    then m
    else m.put (toLower (trimSpace entry.1), value)) .empty

def clientHeaderPlaceholderPrefix : String := "\x7bclient_header:"

def apiKeyPlaceholder : String := "\x7bapi_key\x7d"

def applyHeaderOverridePlaceholders (template apiKey : String) : Except String (Option String) :=
  let trimmed := trimSpace template
  if hasPrefix trimmed clientHeaderPlaceholderPrefix then
    match (trimmed.toList.drop clientHeaderPlaceholderPrefix.length).span (· ≠ '\x7d') with
    | (name, [_]) =>
      let name := trimSpace (String.ofList name)
      if name = "" then
        .error ("client_header placeholder name is empty: " ++ world.quote template)
      else
        let value := req.get name
        .ok (if trimSpace value = "" then none else some value)
    | _ => .error ("client_header placeholder must be the full value: " ++ world.quote template)
  else
    let template :=
      if contains template apiKeyPlaceholder then replaceAll template apiKeyPlaceholder apiKey
      else template
    .ok (if trimSpace template = "" then none else some template)

/-- The loop of `processHeaderOverride` over the overrides that are no rules. -/
def explicitHeaders (apiKey : String) : HeaderMap → List (String × String) → Except String HeaderMap
  | m, [] => .ok m
  | m, entry :: entries =>
    let key := trimSpace (toLower entry.1)
    if isHeaderPassthroughRuleKey entry.1 ∨ key = "" then explicitHeaders apiKey m entries
    else if req.isChannelTest ∧ hasPrefix (trimSpace entry.2) clientHeaderPlaceholderPrefix then
      explicitHeaders apiKey m entries
    else do
      match ← applyHeaderOverridePlaceholders world req entry.2 apiKey with
      | none => explicitHeaders apiKey m entries
      | some value => explicitHeaders apiKey (m.put (key, value)) entries

/-- The rules first, so that the explicit overrides win. -/
def processHeaderOverride : Except String HeaderMap := do
  let source := getEffectiveHeaderOverride world st a
  let rules ← activeRules world req source.rows
  explicitHeaders world req a.apiKey (passHeadersOn req rules) source.rows

/-- **The override headers that an attempt sends**, as a map. -/
def sentHeaders : Except AttemptError (String → Option String) :=
  match prepareAttempt world req st a with
  | .error e => .error (.paramOverride e)
  | .ok st' =>
    match processHeaderOverride world req st' a with
    | .error message => .error (.headerOverrideInvalid message)
    | .ok m => .ok (headerValue m)

/-- **The attempt leaves no override**: there is none, or it is not applied, or it fails. -/
def LeavesNoOverride : Prop :=
  a.passThroughBody = true ∨ a.paramOverride.isEmpty = true ∨
    ∃ e, applyParamOverride world.toJsonEngine a.paramOverride a.body
      (buildParamOverrideContext world req .fresh a) = .error e

end

/-! ### What an attempt leaves -/

section

variable {Body : Type} {world : HeaderWorld Body} {req : OverrideRequest}

variable {st : RuntimeHeaders} {a : OverrideAttempt Body}

/-- **What the override part of an attempt does** to the `RelayInfo`: nothing, or it sets the flag.
-/
theorem prepareAttempt_ok {st' : RuntimeHeaders} (h : prepareAttempt world req st a = .ok st') :
    (st' = st ∧ (a.passThroughBody = true ∨ a.paramOverride.isEmpty = true)) ∨
      (st'.use = true ∧ ∃ r, applyParamOverride world.toJsonEngine a.paramOverride a.body
        (buildParamOverrideContext world req st a) = .ok r) := by
  unfold prepareAttempt applyParamOverrideWithRelayInfo at h
  split at h
  · rename_i hpass
    cases h
    exact .inl ⟨rfl, .inl hpass⟩
  · by_cases hempty : a.paramOverride.isEmpty = true
    · rw [if_pos hempty] at h
      cases h
      exact .inl ⟨rfl, .inr hempty⟩
    · rw [if_neg hempty] at h
      cases hres : applyParamOverride world.toJsonEngine a.paramOverride a.body
          (buildParamOverrideContext world req st a) with
      | error e =>
        rw [hres] at h
        cases h
      | ok r =>
        rw [hres] at h
        cases h
        exact .inr ⟨rfl, r, rfl⟩

theorem nextRuntime_use (a : OverrideAttempt Body) (h : st.use = true) :
    (nextRuntime world req st a).use = true := by
  unfold nextRuntime
  split
  · rename_i st' hprep
    rcases prepareAttempt_ok hprep with ⟨rfl, -⟩ | ⟨huse, -⟩
    · exact h
    · exact huse
  · exact h

theorem nextRuntime_fresh_of_leaves (h : LeavesNoOverride world req a) :
    nextRuntime world req .fresh a = .fresh := by
  unfold nextRuntime
  split
  · rename_i st' hprep
    rcases prepareAttempt_ok hprep with ⟨hst, -⟩ | ⟨-, r, hr⟩
    · exact hst
    · -- an override that succeeds is neither empty nor skipped, unless nothing was applied at all
      rcases h with hpass | hempty | ⟨e, he⟩
      · rw [prepareAttempt, if_pos hpass] at hprep
        cases hprep
        rfl
      · rw [prepareAttempt, applyParamOverrideWithRelayInfo, if_pos hempty, ite_self] at hprep
        cases hprep
        rfl
      · rw [hr] at he
        cases he
  · rfl

theorem nextRuntime_fresh_use (h : ¬ LeavesNoOverride world req a) :
    (nextRuntime world req .fresh a).use = true := by
  simp only [LeavesNoOverride, not_or] at h
  obtain ⟨hpass, hempty, hfails⟩ := h
  unfold nextRuntime
  split
  · rename_i st' hprep
    rcases prepareAttempt_ok hprep with ⟨-, hnone⟩ | ⟨huse, -⟩
    · exact absurd hnone (not_or.mpr ⟨hpass, hempty⟩)
    · exact huse
  · rename_i e hprep
    refine absurd ⟨e, ?_⟩ hfails
    rw [prepareAttempt, if_neg hpass, applyParamOverrideWithRelayInfo, if_neg hempty] at hprep
    cases hres : applyParamOverride world.toJsonEngine a.paramOverride a.body
        (buildParamOverrideContext world req .fresh a) with
    | error e' =>
      rw [hres] at hprep
      cases hprep
      rfl
    | ok r =>
      rw [hres] at hprep
      cases hprep

theorem run_use_iff (pre : List (OverrideAttempt Body)) :
    (run (nextRuntime world req) .fresh pre).use = false ↔
      ∀ a ∈ pre, LeavesNoOverride world req a := by
  have hconst : AllSteps (fun _ a => LeavesNoOverride world req a) (nextRuntime world req)
      .fresh pre ↔ ∀ a ∈ pre, LeavesNoOverride world req a := allSteps_const_iff
  rw [← hconst]
  refine run_iff_allSteps (I := fun st => st = RuntimeHeaders.fresh) (B := (·.use = true))
    (P := (·.use = false)) (A := fun _ _ => True) ?_ ?_ ?_ ?_ ?_ rfl
    (allSteps_of_forall (fun _ _ => trivial) _ _)
  · rintro st a rfl - hleaves
    exact nextRuntime_fresh_of_leaves hleaves
  · rintro st a rfl - hleaves
    exact nextRuntime_fresh_use hleaves
  · intro st a huse _
    exact nextRuntime_use a huse
  · rintro st rfl
    rfl
  · intro st huse hdown
    rw [huse] at hdown
    cases hdown

theorem run_eq_fresh {pre : List (OverrideAttempt Body)}
    (h : ∀ a ∈ pre, LeavesNoOverride world req a) :
    run (nextRuntime world req) .fresh pre = .fresh := by
  refine run_induction_mem (I := fun st => st = RuntimeHeaders.fresh) ?_ rfl
  rintro st a ha rfl
  exact nextRuntime_fresh_of_leaves (h a ha)

theorem run_withoutOverrides (pre : List (OverrideAttempt Body)) :
    run (nextRuntime world req) .fresh (pre.map .withoutOverrides) = .fresh := by
  refine run_eq_fresh fun a ha => ?_
  obtain ⟨b, -, rfl⟩ := List.mem_map.mp ha
  exact .inr (.inl rfl)

/-! ### A channel that can tell -/

/-- **A plain header override**: in normal form, no rule, and without placeholders. -/
structure PlainHeader (name value : String) : Prop where
  name_ne : name ≠ ""
  name_normal : normalizeHeaderContextKey name = name
  no_rule : isHeaderPassthroughRuleKey name = false
  value_ne : value ≠ ""
  value_trim : trimSpace value = value
  no_client_header : hasPrefix value clientHeaderPlaceholderPrefix = false
  no_api_key : contains value apiKeyPlaceholder = false

variable {name value : String}

section

variable (h : PlainHeader name value)

include h

theorem sanitize_plain (format : JsonValue → String) :
    sanitizeHeaderOverrideMap format [(name, .str value)] = Table.singleton (name, value) := by
  rw [sanitizeHeaderOverrideMap, List.foldl_cons, List.foldl_nil, sanitizeHeader]
  simp [sprint, h.name_normal, h.value_trim, if_neg h.name_ne, if_neg h.value_ne, Table.put_empty]

theorem passthroughRule_plain : passthroughRule world name = .ok none := by
  have hkey : trimSpace (toLower name) = name := h.name_normal
  have hrule := h.no_rule
  rw [isHeaderPassthroughRuleKey, hkey] at hrule
  simp only [Bool.or_eq_false_iff, beq_eq_false_iff_ne] at hrule
  obtain ⟨⟨hall, hre⟩, hregex⟩ := hrule
  simp only [passthroughRule, hkey, hall, hre, hregex, if_false, Bool.false_eq_true]

theorem explicitHeaders_plain (apiKey : String) (m : HeaderMap) :
    explicitHeaders world req apiKey m [(name, value)] = .ok (m.put (name, value)) := by
  have hkey : trimSpace (toLower name) = name := h.name_normal
  have hvalue : applyHeaderOverridePlaceholders world req value apiKey = .ok (some value) := by
    simp only [applyHeaderOverridePlaceholders, h.value_trim, h.no_client_header, h.no_api_key,
      if_neg h.value_ne, if_false, Bool.false_eq_true]
  simp only [explicitHeaders, hkey, h.no_rule, h.name_ne, h.value_trim, h.no_client_header, hvalue,
    Bool.false_eq_true, or_self, and_false, if_false]
  rfl

/-- **A channel with one plain header override sends it**, when no attempt has set the flag. -/
theorem sentHeaders_plain (hpass : a.passThroughBody = true)
    (hover : a.headersOverride = [(name, .str value)]) :
    ∃ f, sentHeaders world req .fresh a = .ok f ∧ f name = some value := by
  have heff : getEffectiveHeaderOverride world .fresh a = Table.singleton (name, value) := by
    rw [getEffectiveHeaderOverride, hover]
    exact sanitize_plain h world.format
  have hrules : activeRules world req [(name, value)] = .ok [] := by
    rw [activeRules, passthroughRules, passthroughRule_plain h]
    exact ite_self _
  have hprocess : processHeaderOverride world req .fresh a =
      .ok ((passHeadersOn req []).put (name, value)) := by
    rw [processHeaderOverride, heff]
    exact bind_eq_ok.mpr ⟨[], hrules, explicitHeaders_plain h a.apiKey _⟩
  refine ⟨headerValue ((passHeadersOn req []).put (name, value)), ?_, ?_⟩
  · simp only [sentHeaders, prepareAttempt, hpass, if_true, hprocess]
  · simp only [headerValue, Table.find?_put, if_true, Option.map_some]

end

def markedAttempt (a : OverrideAttempt Body) (mark : String) : OverrideAttempt Body :=
  { a with passThroughBody := true, headersOverride := [("x-channel", .str mark)] }

theorem sentHeaders_marked_of_use (h : st.use = true) (a : OverrideAttempt Body)
    (mark mark' : String) : sentHeaders world req st (markedAttempt a mark) =
      sentHeaders world req st (markedAttempt a mark') := by
  have heff : ∀ m, getEffectiveHeaderOverride world st (markedAttempt a m) =
      sanitizeHeaderOverrideMap world.format (headerEntries st.headers) := by
    intro m
    rw [getEffectiveHeaderOverride, if_pos h]
  simp only [sentHeaders, prepareAttempt, markedAttempt, if_true, processHeaderOverride] at heff ⊢
  rw [heff mark, heff mark']

theorem exists_marked_ne (a : OverrideAttempt Body) (h : st.use = true) :
    ∃ b : OverrideAttempt Body, sentHeaders world req st b ≠ sentHeaders world req .fresh b := by
  have ha : PlainHeader "x-channel" "a" := by constructor <;> decide +kernel
  have hb : PlainHeader "x-channel" "b" := by constructor <;> decide +kernel
  have hplain : ∀ mark, PlainHeader "x-channel" mark →
      ∃ f, sentHeaders world req .fresh (markedAttempt a mark) = .ok f ∧
        f "x-channel" = some mark := fun mark h => sentHeaders_plain h rfl rfl
  obtain ⟨f, hf, hfa⟩ := hplain "a" ha
  obtain ⟨g, hg, hgb⟩ := hplain "b" hb
  by_contra hall
  push Not at hall
  -- if no channel could tell, both marks would be sent alike
  have hfg : f = g := by
    have heq := (hall (markedAttempt a "a")).symm.trans
      ((sentHeaders_marked_of_use h a "a" "b").trans (hall (markedAttempt a "b")))
    rw [hf, hg] at heq
    cases heq
    rfl
  rw [hfg, hgb] at hfa
  exact absurd hfa (by decide)

end

/-- **Independence of the attempts.** Every channel that is tried next is sent the headers that it
is sent after channels without overrides, iff each attempt so far has left no override. -/
theorem sentHeaders_independent_iff {Body : Type} (world : HeaderWorld Body)
    (req : OverrideRequest) (pre : List (OverrideAttempt Body)) :
    (∀ b, sentHeaders world req (run (nextRuntime world req) .fresh pre) b = sentHeaders world req
          (run (nextRuntime world req) .fresh (pre.map .withoutOverrides)) b) ↔
      ∀ a ∈ pre, LeavesNoOverride world req a := by
  rw [run_withoutOverrides]
  constructor
  · intro hsame
    rw [← run_use_iff]
    by_contra huse
    rw [Bool.not_eq_false] at huse
    -- an attempt was made, since a new `RelayInfo` has its flag down
    cases pre with
    | nil => cases huse
    | cons a pre =>
      obtain ⟨b, hb⟩ : ∃ b,
          sentHeaders world req (run (nextRuntime world req) .fresh (a :: pre)) b ≠
            sentHeaders world req .fresh b := exists_marked_ne a huse
      exact hb (hsame b)
  · intro hleaves b
    rw [run_eq_fresh hleaves]

/-! ### A key that reaches another channel -/

def plainWorld : HeaderWorld Unit where
  checkConditions _ _ _ _ := .ok true
  edit _ body _ := .ok body
  merge body _ := .ok body
  get _ _ := none
  set body _ _ := .ok body
  returnError _ := .text "return_error value is required"
  passThroughNames _ := .error (.text "pass_headers value is required")
  format _ := "<nil>"
  compileRegex _ := .error "missing regexp"
  quote s := s

def plainRequest : OverrideRequest := ⟨[], "gpt-4o", "/v1/chat/completions", false⟩

def attemptOf (apiKey : String) (operations : Option (List ParamOperation)) (retryIndex : Nat) :
    OverrideAttempt Unit where
  apiKey := apiKey
  upstreamModelName := "gpt-4o"
  paramOverride := ⟨[], operations⟩
  headersOverride := []
  passThroughBody := false
  retryIndex := retryIndex
  lastError := none
  body := ()

def setHeaderOperation (name value : String) : ParamOperation :=
  ⟨name, .setHeader, .str value, false, "", "", [], "OR"⟩

def sentHeader (st : RuntimeHeaders) (a : OverrideAttempt Unit) (name : String) :
    Except AttemptError (Option String) :=
  (sentHeaders plainWorld plainRequest st a).map (· name)

/-- **A key that leaks.** The first channel sets its credentials by a header operation; the second
one, without overrides, is sent them. -/
theorem header_override_leaks :
    let first := attemptOf "sk-first"
      (some [setHeaderOperation "Authorization" "Bearer sk-first"]) 0
    let second := attemptOf "sk-second" none 1
    let afterAttempt := fun a => run (nextRuntime plainWorld plainRequest) .fresh [a]
    sentHeader (afterAttempt first) second "authorization" = .ok (some "Bearer sk-first") ∧
      sentHeader (afterAttempt first.withoutOverrides) second "authorization" = .ok none := by
  constructor <;> rfl

end NomoApi
