import NomoApi.Lib.Text
import NomoApi.Lib.While

/-! # The retry loop of a relayed request

A request is relayed to one channel after another until one answers (`Relay`,
`controller/relay.go`). The distributor chooses the first channel, `CacheGetRandomSatisfiedChannel`
(`service/channel_select.go`) each later one; for the group `auto` it walks through a list of
groups. The selection itself sets the number of the retry back to zero and can suppress its next
increase. -/

namespace NomoApi

/-! ### Errors that are retried -/

structure RelayError where
  errorCode : String
  skipRetry : Bool
  statusCode : Int

structure StatusCodeRange where
  start : Int
  stop : Int

def isChannelError (err : RelayError) : Bool := hasPrefix err.errorCode "channel:"

def isAlwaysSkipRetryCode (errorCode : String) : Bool := errorCode == "bad_response_body"

def isAlwaysSkipRetryStatusCode (code : Int) : Bool := code == 504 || code == 524

/-- `shouldMatchStatusCodeRanges`; the ranges are sorted. -/
def matchesRanges (code : Int) : List StatusCodeRange → Bool
  | [] => false
  | r :: ranges =>
    if code < r.start then false
    else if code ≤ r.stop then true
    else matchesRanges code ranges

def shouldMatchStatusCodeRanges (ranges : List StatusCodeRange) (code : Int) : Bool :=
  if code < 100 || code > 599 then false else matchesRanges code ranges

/-! ### The request -/

structure PreferredChannel where
  enabled : Bool
  /-- The groups for which it is enabled (`IsChannelEnabledForGroupModel`). -/
  serves : String → Bool

/-- **The settings and the request** that the loop depends on. -/
structure RelayConfig where
  retryTimes : Nat
  tokenGroup : String
  autoGroupSetting : List String
  usable : String → Bool
  crossGroupRetry : Bool
  specificChannel : Bool
  skipRetryAfterAffinity : Bool
  preferred : Option PreferredChannel
  /-- The default is all but 2xx, 400, 408, 504 and 524. -/
  automaticRetryStatusCodeRanges : List StatusCodeRange :=
    [⟨100, 199⟩, ⟨300, 399⟩, ⟨401, 407⟩, ⟨409, 499⟩, ⟨500, 503⟩, ⟨505, 523⟩, ⟨525, 599⟩]

inductive RelayOutcome
  | success
  | bodyFailed
  | failed (err : RelayError)

structure RelayWorld where
  /-- Does the query for a channel, of a group and at a priority, find one? -/
  available : Nat → String → Nat → Bool
  ready : Nat → Bool
  outcome : Nat → RelayOutcome

structure RelayState where
  retry : Nat := 0
  resetNextTry : Bool := false
  /-- `ContextKeyAutoGroupIndex`, zero when it is not set. -/
  groupIndex : Nat := 0
  queries : Nat := 0
  /-- The attempts so far, with the places of their groups: zero if not `auto`, none for a channel
  that the token names. -/
  visited : List (Option Nat) := []

namespace RelayConfig

def autoGroups (cfg : RelayConfig) : List String := cfg.autoGroupSetting.filter cfg.usable

def shouldRetryByStatusCode (cfg : RelayConfig) (code : Int) : Bool :=
  if isAlwaysSkipRetryStatusCode code then false
  else shouldMatchStatusCodeRanges cfg.automaticRetryStatusCodeRanges code

/-- **Is an attempt's error retried?** (`shouldRetry`) -/
def shouldRetry (cfg : RelayConfig) (err : RelayError) (retryTimes : Int) : Bool :=
  if cfg.skipRetryAfterAffinity then false
  else if isChannelError err then true
  else if err.skipRetry then false
  else if retryTimes ≤ 0 then false
  else if cfg.specificChannel then false
  else if err.statusCode ≥ 200 && err.statusCode < 300 then false
  else if err.statusCode < 100 || err.statusCode > 599 then true
  else if isAlwaysSkipRetryCode err.errorCode then false
  else cfg.shouldRetryByStatusCode err.statusCode

end RelayConfig

/-! ### The selection -/

def RelayState.increaseRetry (s : RelayState) : RelayState :=
  if s.resetNextTry then { s with resetNextTry := false } else { s with retry := s.retry + 1 }

variable (cfg : RelayConfig) (w : RelayWorld)

/-- The loop over the groups from the place `i` on. -/
def searchGroups (startGroupIndex : Nat) : List String → Nat → RelayState → Option Nat × RelayState
  | [], _, s => (none, s)
  | autoGroup :: rest, i, s =>
    let priorityRetry := if i > startGroupIndex then 0 else s.retry
    let asked := { s with queries := s.queries + 1 }
    if w.available s.queries autoGroup priorityRetry then
      if cfg.crossGroupRetry && priorityRetry ≥ cfg.retryTimes then
        -- This attempt is still made in the group, the next one in the group after it.
        (some i, { asked with groupIndex := i + 1, retry := 0, resetNextTry := true })
      else (some i, { asked with groupIndex := i })
    else
      searchGroups startGroupIndex rest (i + 1)
        { asked with groupIndex := i + 1, retry := 0 }

def cacheGetRandomSatisfiedChannel (s : RelayState) : Option Nat × RelayState :=
  if cfg.tokenGroup = "auto" then
    if cfg.autoGroupSetting = [] then (none, s)
    else searchGroups cfg w s.groupIndex (cfg.autoGroups.drop s.groupIndex) s.groupIndex s
  else
    (if w.available s.queries cfg.tokenGroup s.retry then some 0 else none,
      { s with queries := s.queries + 1 })

/-! ### The loop -/

/-- The distributor's selection. Only what is kept in the context reaches the loop. -/
def distributeSelect : Option (Option Nat × RelayState) :=
  match cacheGetRandomSatisfiedChannel cfg w {} with
  | (none, _) => none
  | (some g, s) => some (some g, { s with retry := 0, resetNextTry := false })

def distribute : Option (Option Nat × RelayState) :=
  if cfg.specificChannel then some (none, {})
  else
    match cfg.preferred with
    | none => distributeSelect cfg w
    | some preferred =>
      if !preferred.enabled then
        if cfg.skipRetryAfterAffinity then none else distributeSelect cfg w
      else if cfg.tokenGroup = "auto" then
        -- The group is recorded in the context, its place in the list is not.
        match cfg.autoGroups.findIdx? preferred.serves with
        | some g => some (some g, {})
        | none => distributeSelect cfg w
      else if preferred.serves cfg.tokenGroup then some (some 0, {})
      else distributeSelect cfg w

/-- **An attempt**, up to the end of the round. -/
def relayAttempt (g : Option Nat) (s : RelayState) : RelayState ⊕ List (Option Nat) :=
  let visited := s.visited ++ [g]
  match w.outcome s.visited.length with
  | .success => .inr visited
  | .bodyFailed => .inr visited
  | .failed err =>
    if cfg.shouldRetry err ((cfg.retryTimes : Int) - s.retry) then
      .inl ({ s with visited := visited }).increaseRetry
    else .inr visited

/-- **A round of the loop** after the first one (`Relay` with `getChannel`). -/
def relayStep (s : RelayState) : RelayState ⊕ List (Option Nat) :=
  if s.retry ≤ cfg.retryTimes then
    match cacheGetRandomSatisfiedChannel cfg w s with
    | (none, s') => .inr s'.visited
    | (some g, s') =>
      if w.ready s'.visited.length then relayAttempt cfg w (some g) s' else .inr s'.visited
  else .inr s.visited

/-- **A request**: its attempts, nothing if the loop has not ended after `fuel` rounds. -/
def relay (fuel : Nat) : Option (List (Option Nat)) :=
  match distribute cfg w with
  | none => some []
  | some (g, s) =>
    -- The first round takes the distributor's channel, without a query.
    match relayAttempt cfg w g s with
    | .inr visited => some visited
    | .inl s' => iterate (relayStep cfg w) fuel s'

end NomoApi
