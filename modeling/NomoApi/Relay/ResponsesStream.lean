import NomoApi.Claude.MessageBlocks

/-! # The Responses API for a chat client

`OaiResponsesToChatStreamHandler` (`relay/channel/openai/chat_via_responses.go`) turns the events of
a Responses upstream into chat chunks, `ResponsesResponseToChatCompletionsResponse`
(`service/openaicompat/responses_to_chat.go`) a whole result into one answer, which has no tool
calls if there is any text; the stream sends none once text was sent. Arguments come as deltas and
again as a whole. -/

namespace NomoApi

open List Function

/-! ### The stream -/

/-- A `function_call` item (`ResponsesOutput`). -/
structure FunctionCall where
  id : String
  callId : String
  name : String
  arguments : String
  deriving DecidableEq

inductive ResponsesEvent
  | outputTextDelta (delta : String)
  /-- `response.output_item.added` or `response.output_item.done`. -/
  | outputItem (item : FunctionCall)
  | argumentsDelta (itemId delta : String)
  | completed
  deriving DecidableEq

structure ChatRelay where
  outputText : String := ""
  sentStart : Bool := false
  /-- The finish reason, if it was sent (`sentStop`). -/
  stop : Option String := none
  sawToolCall : Bool := false
  /-- `toolCallIndexByID`: the ids in the order of their indexes. -/
  callIds : List String := []
  toolCallNameById : String → String := fun _ => ""
  toolCallArgsById : String → String := fun _ => ""
  toolCallNameSent : List String := []
  toolCallCanonicalIdByItemId : String → String := fun _ => ""
  sent : List ChunkDelta := []

open ChatRelay

variable (s : ChatRelay)

def ChatRelay.sendStartIfNeeded : ChatRelay :=
  { s with sentStart := true, sent := if s.sentStart then s.sent else s.sent ++ [{}] }

def ChatRelay.sendToolCallDelta (callId name argsDelta : String) : ChatRelay :=
  if callId = "" ∨ s.outputText ≠ "" then s
  else
    let callIds := if callId ∈ s.callIds then s.callIds else s.callIds ++ [callId]
    let names := if name ≠ "" then Function.update s.toolCallNameById callId name
      else s.toolCallNameById
    let sendsName := names callId ≠ "" ∧ callId ∉ s.toolCallNameSent
    { s.sendStartIfNeeded with
      callIds
      toolCallNameById := names
      toolCallNameSent := if sendsName then callId :: s.toolCallNameSent else s.toolCallNameSent
      sawToolCall := true
      sent := s.sendStartIfNeeded.sent ++ [{ toolCalls := [{
        index := some (callIds.idxOf callId), id := callId
        name := if sendsName then names callId else "", arguments := argsDelta }] }] }

def FunctionCall.key (item : FunctionCall) : String :=
  if trimSpace item.callId = "" then trimSpace item.id else trimSpace item.callId

def newPart (prevArgs newArgs : String) : String :=
  if hasPrefix newArgs prevArgs then
    String.ofList (newArgs.toList.drop prevArgs.toList.length)
  else newArgs

def ChatRelay.noteItem (item : FunctionCall) : ChatRelay :=
  let itemId := trimSpace item.id
  let callId := item.key
  let name := trimSpace item.name
  { s with
    toolCallCanonicalIdByItemId :=
      if itemId ≠ "" ∧ callId ≠ "" then
        Function.update s.toolCallCanonicalIdByItemId itemId callId
      else s.toolCallCanonicalIdByItemId
    toolCallNameById :=
      if name ≠ "" then Function.update s.toolCallNameById callId name else s.toolCallNameById
    toolCallArgsById :=
      if item.arguments = "" then s.toolCallArgsById
      else Function.update s.toolCallArgsById callId item.arguments }

/-- `response.output_item.added` and `response.output_item.done`. -/
def ChatRelay.onOutputItem (item : FunctionCall) : ChatRelay :=
  let argsDelta := if item.arguments = "" then ""
    else newPart (s.toolCallArgsById item.key) item.arguments
  (s.noteItem item).sendToolCallDelta item.key (trimSpace item.name) argsDelta

def ChatRelay.callIdOf (itemId : String) : String :=
  if s.toolCallCanonicalIdByItemId itemId = "" then itemId
  else s.toolCallCanonicalIdByItemId itemId

def ChatRelay.noteDelta (callId delta : String) : ChatRelay :=
  { s with
    toolCallArgsById :=
      Function.update s.toolCallArgsById callId (s.toolCallArgsById callId ++ delta) }

/-- `response.function_call_arguments.delta`. -/
def ChatRelay.onArgumentsDelta (itemId delta : String) : ChatRelay :=
  let callId := s.callIdOf (trimSpace itemId)
  if callId = "" then s else (s.noteDelta callId delta).sendToolCallDelta callId "" delta

/-- The chunks that end the stream, unless they were sent. -/
def ChatRelay.sendStop : ChatRelay :=
  let finishReason := if s.sawToolCall = true ∧ s.outputText = "" then "tool_calls" else "stop"
  { s.sendStartIfNeeded with stop := some (s.stop.getD finishReason) }

def ChatRelay.step : ResponsesEvent → ChatRelay
  | .outputTextDelta delta =>
    let s := s.sendStartIfNeeded
    if delta = "" then s
    else { s with outputText := s.outputText ++ delta, sent := s.sent ++ [{ content := delta }] }
  | .outputItem item => s.onOutputItem item
  | .argumentsDelta itemId delta => s.onArgumentsDelta itemId delta
  | .completed => s.sendStop

/-- **`OaiResponsesToChatStreamHandler`**: what has been sent at the end. -/
def oaiResponsesToChatStream (events : List ResponsesEvent) : ChatRelay :=
  (run step {} events).sendStop

def ChatRelay.text : String := String.join (s.sent.map (·.content))

def ChatRelay.fragments : List ToolCallFragment := s.sent.flatMap (·.toolCalls)

/-! ### The whole answer -/

inductive OutputItem
  | message (parts : List String)
  | functionCall (id callId name : String) (parts : List String)

def OutputItem.text : OutputItem → String
  | .message parts => String.join parts
  | .functionCall _ _ _ _ => ""

def extractOutputText (items : List OutputItem) : String := String.join (items.map OutputItem.text)

def OutputItem.call? : OutputItem → Option FunctionCall
  | .message _ => none
  | .functionCall id callId name parts => some ⟨id, callId, name, String.join parts⟩

def FunctionCall.answer (item : FunctionCall) : ToolCallFragment :=
  { id := item.key, name := trimSpace item.name, arguments := item.arguments }

def responsesResponseToChat (items : List OutputItem) : ChatMessage :=
  let text := extractOutputText items
  let toolCalls :=
    if text = "" then
      ((items.filterMap OutputItem.call?).filter (trimSpace ·.name ≠ "")).map FunctionCall.answer
    else []
  { content := if toolCalls ≠ [] then "" else text
    toolCalls
    finishReason := if toolCalls ≠ [] then "tool_calls" else "stop" }

/-- The events of an item, in the order of the protocol. -/
def OutputItem.events : OutputItem → List ResponsesEvent
  | .message parts => parts.map .outputTextDelta
  | .functionCall id callId name parts =>
    .outputItem ⟨id, callId, name, ""⟩ :: parts.map (.argumentsDelta id) ++
      [.outputItem ⟨id, callId, name, String.join parts⟩]

/-! ### Calls without text -/

/-- **Fragments of one call**: its id, its name once unless it is blank, and parts of its
arguments. -/
structure Tells (fs : List ToolCallFragment) (id name arguments : String) : Prop where
  ne : fs ≠ []
  ids : ∀ t ∈ fs, t.id = id
  names : (fs.map (·.name)).filter (· ≠ "") = [name].filter (· ≠ "")
  arguments : String.join (fs.map (·.arguments)) = arguments

/-- The call has an id, and one that no call before it has. -/
def FunctionCall.Fresh (c : FunctionCall) (order : List FunctionCall) : Prop :=
  c.key ≠ "" ∧ c.key ∉ order.map FunctionCall.key

/-- **Whose arguments come under an item id**: those of the call that was last sent with it. -/
def FunctionCall.claims (c : FunctionCall) (owner : String → String) : String → String :=
  if trimSpace c.id = "" then owner else Function.update owner (trimSpace c.id) c.key

open FunctionCall OutputItem

-- keeps the unifier from evaluating it
seal trimSpace

/-- **Events of calls, interleaved**, with the calls in the order of their announcement, the
arguments that they have got, and the owners of the item ids. -/
inductive Interleaved : List ResponsesEvent → List FunctionCall → (String → String) →
    (String → String) → Prop
  | nil : Interleaved [] [] (fun _ => "") fun _ => ""
  | added {es order got owner c} (h : Interleaved es order got owner) (hc : c.Fresh order) :
      Interleaved (es ++ [.outputItem { c with arguments := "" }]) (order ++ [c]) got
        (c.claims owner)
  | delta {es order got owner c} (h : Interleaved es order got owner) (hc : c ∈ order)
      (hid : owner (trimSpace c.id) = c.key) (d : String) :
      Interleaved (es ++ [.argumentsDelta c.id d]) order
        (update got c.key (got c.key ++ d)) owner
  | done {es order got owner c} (h : Interleaved es order got owner) (hc : c ∈ order)
      (hargs : got c.key = c.arguments ∨ got c.key = "") :
      Interleaved (es ++ [.outputItem c]) order (update got c.key c.arguments)
        (c.claims owner)
  /-- Arguments without an item id are dropped; `done` brings them again. -/
  | lost {es order got owner id} (h : Interleaved es order got owner) (hid : trimSpace id = "")
      (d : String) : Interleaved (es ++ [.argumentsDelta id d]) order got owner
  | nameless {es order got owner c} (h : Interleaved es order got owner) (hc : c.key = "") :
      Interleaved (es ++ [.outputItem c]) order got owner
  | noText {es order got owner} (h : Interleaved es order got owner) :
      Interleaved (es ++ [.outputTextDelta ""]) order got owner

/-- **The state after such events.** -/
structure ChatRelay.Relayed (order : List FunctionCall) (got owner : String → String)
    (s : ChatRelay) : Prop where
  noText : s.outputText = ""
  saw : s.sawToolCall = true ↔ order ≠ []
  ids : s.callIds = order.map key
  distinct : (order.map key).Nodup
  owners : s.toolCallCanonicalIdByItemId = owner ∧ owner "" = ""
  known : ∀ c ∈ order, c.key ≠ "" ∧ s.toolCallNameById c.key = trimSpace c.name ∧
    (trimSpace c.name ≠ "" → c.key ∈ s.toolCallNameSent)
  unknown : ∀ id ≠ "", id ∉ order.map key →
    got id = "" ∧ id ∉ s.toolCallNameSent ∧ s.toolCallNameById id = ""
  args : ∀ id ≠ "", s.toolCallArgsById id = got id
  told : ∀ j c, order[j]? = some c →
    Tells (s.fragments.filter (·.index = some j)) c.key (trimSpace c.name) (got c.key)
  bounded : ∀ t ∈ s.fragments, ∃ j < order.length, t.index = some j

variable {s} {order : List FunctionCall} {got owner : String → String}
  {c : FunctionCall} {es : List ResponsesEvent}

theorem Tells.append {fs : List ToolCallFragment} {id name arguments : String}
    (h : Tells fs id name arguments) (index : Option Nat) (d : String) :
    Tells (fs ++ [{ index, id, arguments := d }]) id name (arguments ++ d) where
  ne := by simp
  ids := by simpa [or_imp, forall_and] using h.ids
  names := by simpa using h.names
  arguments := by simp [String.join_append, h.arguments]

@[simp] theorem fragments_sendStart (s : ChatRelay) :
    s.sendStartIfNeeded.fragments = s.fragments := by
  by_cases hstart : s.sentStart = true <;>
    simp [sendStartIfNeeded, fragments, hstart]

theorem fragments_sendStop (s : ChatRelay) : s.sendStop.fragments = s.fragments :=
  fragments_sendStart s

theorem fragments_send {s' : ChatRelay} {t : ToolCallFragment}
    (h : s'.sent = s.sendStartIfNeeded.sent ++ [{ toolCalls := [t] }]) :
    s'.fragments = s.fragments ++ [t] := by
  rw [← fragments_sendStart s, fragments, h, flatMap_append]
  rfl

theorem idxOf_key (hnodup : (order.map key).Nodup) {j : Nat}
    (hj : order[j]? = some c) : (order.map key).idxOf c.key = j := by
  obtain ⟨hlt, rfl⟩ := List.getElem?_eq_some_iff.mp hj
  have hlt' : j < (order.map key).length := by simpa using hlt
  have hget : (order.map key)[j] = order[j].key := by simp
  rw [← hget]
  exact hnodup.idxOf_getElem _ _

theorem claims_blank (c : FunctionCall) (h : owner "" = "") : c.claims owner "" = "" := by
  unfold claims
  split
  · exact h
  · rename_i hid
    rwa [update_of_ne (Ne.symm hid)]

/-- **A fragment of a known call** is sent under its index, without the name. -/
theorem ChatRelay.Relayed.send (h : s.Relayed order got owner) (hc : c ∈ order) {name : String}
    (hname : name = "" ∨ name = trimSpace c.name) (d : String) {a : String → String}
    (hargs : ∀ id ≠ "", a id = update got c.key (got c.key ++ d) id) :
    ({ s with toolCallArgsById := a : ChatRelay }.sendToolCallDelta c.key name d).Relayed
      order (update got c.key (got c.key ++ d)) owner := by
  obtain ⟨j, hj⟩ := List.mem_iff_getElem?.mp hc
  obtain ⟨hkey, hnm, hnamed⟩ := h.known c hc
  have hmem : c.key ∈ s.callIds := h.ids ▸ mem_map_of_mem hc
  have hidx : s.callIds.idxOf c.key = j := h.ids ▸ idxOf_key h.distinct hj
  have hnames : (if name ≠ "" then update s.toolCallNameById c.key name
      else s.toolCallNameById) = s.toolCallNameById := by
    rcases hname with rfl | rfl
    · simp
    · rw [← hnm, update_eq_self, ite_self]
  have hquiet : ¬ (s.toolCallNameById c.key ≠ "" ∧ c.key ∉ s.toolCallNameSent) := by
    rw [hnm]
    exact fun hsend => hsend.2 (hnamed hsend.1)
  have hout : { s with toolCallArgsById := a : ChatRelay }.sendToolCallDelta c.key name d =
      { s with
        sentStart := true, toolCallArgsById := a, sawToolCall := true
        sent := s.sendStartIfNeeded.sent ++ [{ toolCalls := [{
          index := some j, id := c.key, arguments := d }] }] } := by
    simp only [sendToolCallDelta, sendStartIfNeeded, hnames, if_neg hquiet]
    simp [hkey, h.noText, hmem, hidx]
  have hfrags := fragments_send (congrArg sent hout)
  rw [hout] at hfrags ⊢
  have hsaw : (true : Bool) = true ↔ order ≠ [] := by simpa using ne_nil_of_mem hc
  refine ⟨h.noText, hsaw, h.ids, h.distinct, h.owners, h.known, fun id hid hnew => ?_, hargs,
    fun i e he => ?_, ?_⟩
  · have hne : id ≠ c.key := fun heq => hnew (heq ▸ mem_map_of_mem hc)
    simpa only [update_of_ne hne] using h.unknown id hid hnew
  · rw [hfrags, filter_append]
    have htold := h.told i e he
    by_cases hi : i = j
    · subst hi
      obtain rfl : e = c := Option.some.inj (he.symm.trans hj)
      simpa using htold.append (some i) d
    · have hne : e.key ≠ c.key := fun heq => hi (by
        rw [← idxOf_key h.distinct he, heq, idxOf_key h.distinct hj])
      simpa [update_of_ne hne, Ne.symm hi] using htold
  · rw [hfrags, List.forall_mem_append]
    exact ⟨h.bounded, by simpa using (List.getElem?_eq_some_iff.mp hj).1⟩

/-- **A new call** gets the next index, and its name is sent unless it is blank. -/
theorem ChatRelay.Relayed.announce (h : s.Relayed order got owner) (hc : c.Fresh order) :
    (s.onOutputItem { c with arguments := "" }).Relayed (order ++ [c]) got (c.claims owner) := by
  obtain ⟨hkey, hnew⟩ := hc
  obtain ⟨hgot, hunsent, hunnamed⟩ := h.unknown c.key hkey hnew
  obtain ⟨howner, hblank⟩ := h.owners
  have hkey' : key { c with arguments := "" } = c.key := rfl
  have hidx : (order.map key ++ [c.key]).idxOf c.key = order.length := by
    rw [idxOf_append_of_notMem hnew]
    simp
  have hout : s.onOutputItem { c with arguments := "" } = { s with
      sentStart := true, sawToolCall := true, callIds := order.map key ++ [c.key]
      toolCallCanonicalIdByItemId := c.claims owner
      toolCallNameById := if trimSpace c.name = "" then s.toolCallNameById
        else update s.toolCallNameById c.key (trimSpace c.name)
      toolCallNameSent :=
        if trimSpace c.name = "" then s.toolCallNameSent else c.key :: s.toolCallNameSent
      sent := s.sendStartIfNeeded.sent ++ [{ toolCalls := [{
        index := some order.length, id := c.key, name := trimSpace c.name }] }] } := by
    simp only [onOutputItem, noteItem, sendToolCallDelta, sendStartIfNeeded, hkey', h.ids, howner,
      claims]
    by_cases hid : trimSpace c.id = "" <;> by_cases hname : trimSpace c.name = "" <;>
      simp [hkey, h.noText, hnew, hidx, hunsent, hid, hname, hunnamed]
  have hfrags := fragments_send (congrArg sent hout)
  rw [hout] at hfrags ⊢
  refine ⟨h.noText, by simp, by simp, ?_, ⟨rfl, ?_⟩, ?_, fun id hid hold => ?_, h.args,
    fun j d hd => ?_, ?_⟩
  · rw [map_append, nodup_append']
    exact ⟨h.distinct, nodup_singleton _, by simpa using hnew⟩
  · exact claims_blank c hblank
  · rw [forall_mem_append]
    refine ⟨fun d hd => ?_, by
      by_cases hname : trimSpace c.name = "" <;> simp [hkey, hname, hunnamed]⟩
    obtain ⟨hkey, hname, hnamed⟩ := h.known d hd
    have hne : d.key ≠ c.key := fun heq => hnew (heq ▸ mem_map_of_mem hd)
    dsimp only
    split
    · exact ⟨hkey, hname, hnamed⟩
    · rw [update_of_ne hne]
      exact ⟨hkey, hname, fun hd => mem_cons_of_mem _ (hnamed hd)⟩
  · rw [map_append, mem_append, not_or] at hold
    have hne : id ≠ c.key := by simpa using hold.2
    obtain ⟨hgot, hunsent, hunnamed⟩ := h.unknown id hid hold.1
    dsimp only
    split
    · exact ⟨hgot, hunsent, hunnamed⟩
    · rw [update_of_ne hne]
      exact ⟨hgot, by simp [hne, hunsent], hunnamed⟩
  · rw [hfrags, filter_append]
    by_cases hj : j < order.length
    · rw [getElem?_append_left hj] at hd
      simpa [Nat.ne_of_gt hj] using h.told j d hd
    · obtain ⟨hlt, heq⟩ := List.getElem?_eq_some_iff.mp hd
      obtain rfl : j = order.length := by simp at hlt; omega
      obtain rfl : c = d := by simpa using heq
      have hnone : s.fragments.filter (·.index = some order.length) = [] := by
        refine List.filter_eq_nil_iff.mpr fun t ht => ?_
        obtain ⟨i, hi, hindex⟩ := h.bounded t ht
        simp [hindex, Nat.ne_of_lt hi]
      rw [hnone]
      exact ⟨by simp, by simp, by simp, by simp [hgot]⟩
  · rw [hfrags, forall_mem_append]
    refine ⟨fun t ht => ?_, by simp⟩
    obtain ⟨j, hj, hindex⟩ := h.bounded t ht
    exact ⟨j, by simp; omega, hindex⟩

theorem ChatRelay.Relayed.claim (h : s.Relayed order got owner) (c : FunctionCall) :
    { s with toolCallCanonicalIdByItemId := c.claims owner : ChatRelay }.Relayed order got
      (c.claims owner) := by
  obtain ⟨hout, hsaw, hids, hdistinct, ⟨-, hblank⟩, hknown, hunknown, hargs, htold, hbounded⟩ := h
  exact ⟨hout, hsaw, hids, hdistinct, ⟨rfl, claims_blank c hblank⟩, hknown, hunknown, hargs, htold,
    hbounded⟩

/-- **A call is done**: what is left of its arguments is sent. -/
theorem ChatRelay.Relayed.done (h : s.Relayed order got owner) (hc : c ∈ order)
    (hargs : got c.key = c.arguments ∨ got c.key = "") :
    (s.onOutputItem c).Relayed order (update got c.key c.arguments) (c.claims owner) := by
  obtain ⟨hkey, hname, -⟩ := h.known c hc
  have hrest : got c.key ++ (if c.arguments = "" then ""
      else newPart (s.toolCallArgsById c.key) c.arguments) = c.arguments := by
    rw [h.args c.key hkey]
    rcases hargs with hargs | hargs
    · simp [hargs, newPart, hasPrefix]
    · by_cases hempty : c.arguments = "" <;> simp [hargs, hempty, newPart, hasPrefix]
  have hout : s.onOutputItem c =
      { { s with toolCallCanonicalIdByItemId := c.claims owner : ChatRelay } with
        toolCallArgsById := if c.arguments = "" then s.toolCallArgsById
          else update s.toolCallArgsById c.key c.arguments : ChatRelay }.sendToolCallDelta c.key
        (trimSpace c.name) (if c.arguments = "" then ""
          else newPart (s.toolCallArgsById c.key) c.arguments) := by
    have hclaims : (if trimSpace c.id ≠ "" ∧ c.key ≠ "" then
        update s.toolCallCanonicalIdByItemId (trimSpace c.id) c.key
        else s.toolCallCanonicalIdByItemId) = c.claims owner := by
      rw [h.owners.1, claims]
      by_cases hid : trimSpace c.id = "" <;> simp [hid, hkey]
    simp only [onOutputItem, noteItem, hclaims]
    rw [← hname, update_eq_self, ite_self]
  have hsend := (h.claim c).send hc (.inr rfl) (if c.arguments = "" then ""
    else newPart (s.toolCallArgsById c.key) c.arguments)
    (a := if c.arguments = "" then s.toolCallArgsById
      else update s.toolCallArgsById c.key c.arguments)
  rw [hrest] at hsend
  rw [hout]
  refine hsend fun id hid => ?_
  by_cases heq : id = c.key
  · subst heq
    rw [update_self]
    split
    · rename_i hempty
      rw [h.args _ hid, hempty]
      rcases hargs with hargs | hargs
      · rw [hargs, hempty]
      · exact hargs
    · rw [update_self]
  · rw [update_of_ne heq, ← h.args id hid]
    split
    · rfl
    · rw [update_of_ne heq]

theorem ChatRelay.Relayed.start (h : s.Relayed order got owner) :
    s.sendStartIfNeeded.Relayed order got owner := by
  obtain ⟨hout, hsaw, hids, hdistinct, howners, hknown, hunknown, hargs, htold, hbounded⟩ := h
  rw [← fragments_sendStart] at hbounded
  simp only [← fragments_sendStart s] at htold
  exact ⟨hout, hsaw, hids, hdistinct, howners, hknown, hunknown, hargs, htold, hbounded⟩

theorem FunctionCall.trimSpace_id_of_key (h : c.key = "") : trimSpace c.id = "" := by
  unfold key at h
  split at h
  · exact h
  · contradiction

/-- **A call without an id** is noted, but not sent. -/
theorem ChatRelay.Relayed.nameless (h : s.Relayed order got owner) (hc : c.key = "") :
    (s.onOutputItem c).Relayed order got owner := by
  have hid := trimSpace_id_of_key hc
  have hout : s.onOutputItem c = { s with
      toolCallNameById := if trimSpace c.name ≠ "" then
        update s.toolCallNameById "" (trimSpace c.name) else s.toolCallNameById
      toolCallArgsById := if c.arguments = "" then s.toolCallArgsById
        else update s.toolCallArgsById "" c.arguments } := by
    simp [onOutputItem, noteItem, sendToolCallDelta, hc, hid]
  have hname : ∀ id ≠ "", (if trimSpace c.name ≠ "" then
      update s.toolCallNameById "" (trimSpace c.name) else s.toolCallNameById) id =
      s.toolCallNameById id := by
    intro id hne
    split
    · exact update_of_ne hne ..
    · rfl
  rw [hout]
  refine ⟨h.noText, h.saw, h.ids, h.distinct, h.owners, fun d hd => ?_, fun id hne hold => ?_,
    fun id hne => ?_, h.told, h.bounded⟩
  · obtain ⟨hkey, hnm, hnamed⟩ := h.known d hd
    exact ⟨hkey, (hname d.key hkey).trans hnm, hnamed⟩
  · obtain ⟨hgot, hunsent, hunnamed⟩ := h.unknown id hne hold
    exact ⟨hgot, hunsent, (hname id hne).trans hunnamed⟩
  · rw [← h.args id hne]
    dsimp only
    split
    · rfl
    · exact update_of_ne hne ..

/-- **Interleaved calls keep the state in order.** -/
theorem Interleaved.relayed (h : Interleaved es order got owner) :
    (run step {} es).Relayed order got owner := by
  induction h with
  | nil =>
    exact ⟨rfl, by simp, rfl, nodup_nil, ⟨rfl, rfl⟩, by simp, by simp, fun _ _ => rfl, by simp,
      nofun⟩
  | added h hc ih =>
    rw [run_append, run_cons, run_nil, step]
    exact ih.announce hc
  | @delta es order got owner c h hc hid d ih =>
    have hkey := (ih.known c hc).1
    rw [run_append, run_cons, run_nil, step, onArgumentsDelta, callIdOf, ih.owners.1, hid,
      if_neg hkey, if_neg hkey, noteDelta]
    refine ih.send hc (.inl rfl) d fun id hne => ?_
    by_cases heq : id = c.key
    · subst heq
      rw [update_self, update_self, ih.args _ hne]
    · rw [update_of_ne heq, update_of_ne heq, ih.args id hne]
  | done h hc hargs ih =>
    rw [run_append, run_cons, run_nil, step]
    exact ih.done hc hargs
  | lost h hid d ih =>
    rw [run_append, run_cons, run_nil, step, onArgumentsDelta, hid, callIdOf, ih.owners.1,
      ih.owners.2, if_pos rfl, if_pos rfl]
    exact ih
  | nameless h hc ih =>
    rw [run_append, run_cons, run_nil, step]
    exact ih.nameless hc
  | noText h ih =>
    rw [run_append, run_cons, run_nil, step, if_pos rfl]
    exact ih.start

/-- **Interleaved calls are relayed exactly**, up to the space around ids and names: the `j`-th
announced call has the index `j`, its name comes once, and its fragments make up its arguments. -/
theorem oaiResponsesToChatStream_relays (h : Interleaved es order got owner)
    (hdone : ∀ c ∈ order, got c.key = c.arguments) :
    let fs := (oaiResponsesToChatStream (es ++ [.completed])).fragments
    (∀ j c, order[j]? = some c →
      Tells (fs.filter (·.index = some j)) c.key (trimSpace c.name) c.arguments) ∧
    ∀ t ∈ fs, ∃ j < order.length, t.index = some j := by
  have hfs : (oaiResponsesToChatStream (es ++ [.completed])).fragments =
      (run step {} es).fragments := by
    rw [oaiResponsesToChatStream, run_append, run_cons, run_nil, step,
      fragments_sendStop, fragments_sendStop]
  rw [hfs]
  refine ⟨fun j c hj => ?_, h.relayed.bounded⟩
  rw [← hdone c (mem_of_getElem? hj)]
  exact h.relayed.told j c hj

def sampleCall (n arguments : String) : FunctionCall := ⟨"fc_" ++ n, "call_" ++ n, "f", arguments⟩

theorem oaiResponsesToChatStream_relays_sample :
    let a := sampleCall "1" "[]"
    let b := sampleCall "2" "1"
    let es : List ResponsesEvent := [] ++ [.outputItem { a with arguments := "" }] ++
      [.argumentsDelta a.id "["] ++ [.outputItem { b with arguments := "" }] ++
      [.argumentsDelta b.id "1"] ++ [.argumentsDelta a.id "]"] ++ [.outputItem b] ++ [.outputItem a]
    let fs := (oaiResponsesToChatStream (es ++ [.completed])).fragments
    Tells (fs.filter (·.index = some 0)) a.key (trimSpace a.name) "[]" ∧
      Tells (fs.filter (·.index = some 1)) b.key (trimSpace b.name) "1" := by
  intro a b es fs
  have ha : a.Fresh [] := ⟨by decide +kernel, by decide +kernel⟩
  have hb : b.Fresh [a] := ⟨by decide +kernel, by decide +kernel⟩
  have hstart := ((Interleaved.nil.added ha).delta (mem_singleton.mpr rfl) (by decide +kernel)
    "[").added hb
  have h := (((hstart.delta (c := b) (by simp) (by decide +kernel) "1").delta (c := a) (by simp)
    (by decide +kernel) "]").done (c := b) (by simp) (by decide +kernel)).done (c := a) (by simp)
    (by decide +kernel)
  have hrel := (oaiResponsesToChatStream_relays h (by decide +kernel)).1
  exact ⟨hrel 0 a rfl, hrel 1 b rfl⟩

/-- **Ids that differ in the space around them** are taken for one call. -/
theorem oaiResponsesToChatStream_merges :
    let a : FunctionCall := ⟨"fc_1", "call_1", "f", ""⟩
    let b : FunctionCall := ⟨"fc_2", "call_1 ", "g", ""⟩
    let fs := (oaiResponsesToChatStream
      [.outputItem a, .outputItem b, .outputItem a, .outputItem b, .completed]).fragments
    a.id ≠ b.id ∧ a.callId ≠ b.callId ∧ fs.map (·.index) = List.replicate 4 (some 0) := by
  decide +kernel

/-! ### A result and its stream -/

/-- **The stream gives the same answer** as the whole result: text, tool calls and finish reason. -/
def SameAnswer (items : List OutputItem) : Prop :=
  let whole := responsesResponseToChat items
  let s := oaiResponsesToChatStream (items.flatMap events ++ [.completed])
  s.text = whole.content ∧ (∀ k, accumulatedCall s.fragments k = whole.toolCalls[k]?) ∧
    s.stop = some whole.finishReason

/-- The function calls that have an id. -/
def keyedCalls (items : List OutputItem) : List FunctionCall :=
  (items.filterMap call?).filter (·.key ≠ "")

/-- There is text before the first of these calls. -/
def TextFirst (items : List OutputItem) : Prop :=
  ∃ pre post, items = pre ++ post ∧ keyedCalls pre = [] ∧ extractOutputText pre ≠ ""

/-- **The stream can agree with the whole result**: text comes before the calls; or there is none,
the calls with an id are those with a name, and no id comes twice. -/
def StreamAgrees (items : List OutputItem) : Prop :=
  if extractOutputText items = "" then
    ((keyedCalls items).map key).Nodup ∧
      ∀ c ∈ items.filterMap call?, c.key ≠ "" ↔ trimSpace c.name ≠ ""
  else TextFirst items

def ResponsesEvent.text : ResponsesEvent → String
  | .outputTextDelta delta => delta
  | _ => ""

/-- Events that send no fragment of a call. -/
def ResponsesEvent.Quiet : ResponsesEvent → Prop
  | .outputTextDelta _ => True
  | .outputItem item => item.key = ""
  | .argumentsDelta itemId _ => trimSpace itemId = ""
  | .completed => False

/-- **Text so far**, and no end yet. -/
structure ChatRelay.Says (s : ChatRelay) (text : String) : Prop where
  output : s.outputText = text
  text : s.text = text
  stop : s.stop = none
  owner : s.toolCallCanonicalIdByItemId "" = ""

@[simp] theorem text_sendStart (s : ChatRelay) : s.sendStartIfNeeded.text = s.text := by
  by_cases hstart : s.sentStart = true <;>
    simp [sendStartIfNeeded, ChatRelay.text, hstart, String.join_append]

theorem text_sendStop (s : ChatRelay) : s.sendStop.text = s.text := text_sendStart s

theorem ChatRelay.Says.tool {s' : ChatRelay} {text : String} (h : s'.Says text)
    (hfrags : s'.fragments = s.fragments) (callId name argsDelta : String) :
    (s'.sendToolCallDelta callId name argsDelta).Says text ∧
      (text ≠ "" ∨ callId = "" →
        (s'.sendToolCallDelta callId name argsDelta).fragments = s.fragments) := by
  obtain ⟨houtput, htext, hstop, howner⟩ := h
  by_cases hskip : callId = "" ∨ s'.outputText ≠ ""
  · rw [sendToolCallDelta, if_pos hskip]
    exact ⟨⟨houtput, htext, hstop, howner⟩, fun _ => hfrags⟩
  · rw [sendToolCallDelta, if_neg hskip]
    refine ⟨⟨houtput, ?_, hstop, howner⟩, fun hquiet => absurd ?_ hskip⟩
    · rw [← htext, ← text_sendStart s']
      simp [ChatRelay.text, String.join_append]
    · exact hquiet.symm.imp_right fun hne => houtput ▸ hne

/-- **One event** sends its text; once there is text, no tool call is sent. -/
theorem ChatRelay.Says.on {text : String} (h : s.Says text) {e : ResponsesEvent}
    (he : e ≠ .completed) : (s.step e).Says (text ++ e.text) ∧
      (text ≠ "" ∨ e.Quiet → (s.step e).fragments = s.fragments) := by
  cases e with
  | outputTextDelta delta =>
    have hstart : s.sendStartIfNeeded.Says text :=
      ⟨h.output, (text_sendStart s).trans h.text, h.stop, h.owner⟩
    rw [step, ResponsesEvent.text]
    split
    · rename_i hdelta
      rw [hdelta, String.append_empty]
      exact ⟨hstart, fun _ => fragments_sendStart s⟩
    · refine ⟨⟨by rw [hstart.output], ?_, h.stop, h.owner⟩, fun _ => ?_⟩
      · rw [← hstart.text]
        simp [ChatRelay.text, String.join_append]
      · rw [← fragments_sendStart s]
        simp [fragments]
  | outputItem item =>
    have hnone : (ResponsesEvent.outputItem item).text = "" := rfl
    rw [step, onOutputItem, hnone, String.append_empty]
    have hnote : (s.noteItem item).Says text := by
      refine ⟨h.output, h.text, h.stop, ?_⟩
      unfold noteItem
      dsimp only
      split
      · rename_i hid
        rw [update_of_ne (Ne.symm hid.1), h.owner]
      · exact h.owner
    exact hnote.tool (by simp only [fragments, noteItem]) _ _ _
  | argumentsDelta itemId delta =>
    have hnone : (ResponsesEvent.argumentsDelta itemId delta).text = "" := rfl
    rw [hnone, String.append_empty, step, onArgumentsDelta]
    by_cases hid : s.callIdOf (trimSpace itemId) = ""
    · rw [if_pos hid]
      exact ⟨h, fun _ => rfl⟩
    · rw [if_neg hid]
      have hnote : (s.noteDelta (s.callIdOf (trimSpace itemId)) delta).Says text :=
        ⟨h.output, h.text, h.stop, h.owner⟩
      obtain ⟨hsaid, hquiet⟩ := hnote.tool (s := s) (by simp only [fragments, noteDelta])
        (s.callIdOf (trimSpace itemId)) "" delta
      refine ⟨hsaid, fun hq => hquiet (hq.imp_right fun hblank => absurd ?_ hid)⟩
      have hblank : trimSpace itemId = "" := hblank
      rw [callIdOf, hblank, h.owner, if_pos rfl]
  | completed => exact absurd rfl he

theorem ChatRelay.Says.onAll {text : String} (h : s.Says text) (hes : .completed ∉ es) :
    (run step s es).Says (text ++ String.join (es.map ResponsesEvent.text)) ∧
      (text ≠ "" ∨ (∀ e ∈ es, e.Quiet) → (run step s es).fragments = s.fragments) := by
  induction es generalizing s text with
  | nil => simpa using h
  | cons e es ih =>
    rw [mem_cons, not_or] at hes
    obtain ⟨hsaid, hquiet⟩ := h.on (Ne.symm hes.1)
    obtain ⟨hsaid', hquiet'⟩ := ih hsaid hes.2
    rw [run_cons, map_cons, String.join_cons, ← String.append_assoc, forall_mem_cons]
    refine ⟨hsaid', fun hq => ?_⟩
    rcases hq with hne | ⟨he, hrest⟩
    · rw [hquiet' (.inl (by simp [hne])), hquiet (.inl hne)]
    · rw [hquiet' (.inr hrest), hquiet (.inr he)]

/-- **Fragments are only added**, each with an index. -/
theorem step_grows (s : ChatRelay) (e : ResponsesEvent) :
    ∃ fs, (s.step e).fragments = s.fragments ++ fs ∧ ∀ t ∈ fs, t.index.isSome = true := by
  have htool : ∀ s' : ChatRelay, s'.fragments = s.fragments → ∀ callId name argsDelta,
      ∃ fs, (s'.sendToolCallDelta callId name argsDelta).fragments = s.fragments ++ fs ∧
        ∀ t ∈ fs, t.index.isSome = true := by
    intro s' hs' callId name argsDelta
    unfold sendToolCallDelta
    split
    · exact ⟨[], by simp [hs'], by simp⟩
    · refine ⟨_, (fragments_send rfl).trans (congrArg (· ++ _) hs'), by simp⟩
  cases e with
  | outputTextDelta delta =>
    refine ⟨[], ?_, by simp⟩
    rw [append_nil, ← fragments_sendStart s, step]
    split
    · rfl
    · simp [fragments]
  | outputItem item => exact htool _ (by simp only [fragments, noteItem]) _ _ _
  | argumentsDelta itemId delta =>
    rw [step, onArgumentsDelta]
    split
    · exact ⟨[], by simp, by simp⟩
    · exact htool _ (by simp only [fragments, noteDelta]) _ _ _
  | completed => exact ⟨[], by rw [append_nil]; exact fragments_sendStop s, by simp⟩

theorem run_grows (s : ChatRelay) (es : List ResponsesEvent) :
    ∃ fs, (run step s es).fragments = s.fragments ++ fs ∧ ∀ t ∈ fs, t.index.isSome = true := by
  induction es generalizing s with
  | nil => exact ⟨[], by simp, by simp⟩
  | cons e es ih =>
    obtain ⟨fs, hfs, hindex⟩ := step_grows s e
    obtain ⟨gs, hgs, hindex'⟩ := ih (s.step e)
    refine ⟨fs ++ gs, ?_, forall_mem_append.mpr ⟨hindex, hindex'⟩⟩
    rw [run_cons, hgs, hfs, append_assoc]

section

variable (items : List OutputItem)

theorem completed_notMem_events : .completed ∉ items.flatMap events := by
  intro h
  obtain ⟨item, -, h⟩ := mem_flatMap.mp h
  cases item <;> simp [events] at h

theorem join_text_events : String.join ((items.flatMap events).map ResponsesEvent.text) =
      extractOutputText items := by
  induction items with
  | nil => rfl
  | cons item items ih =>
    have hitem : String.join (item.events.map ResponsesEvent.text) = item.text := by
      cases item <;> simp [events, OutputItem.text, ResponsesEvent.text,
        comp_def, join_replicate_empty]
    rw [flatMap_cons, map_append, String.join_append, hitem, ih]
    exact String.join_cons.symm

theorem oaiResponsesToChatStream_says :
    let s := run step {} (items.flatMap events)
    let out := oaiResponsesToChatStream (items.flatMap events ++ [.completed])
    out.text = extractOutputText items ∧ out.fragments = s.fragments ∧
      out.stop = some (if s.sawToolCall = true ∧ extractOutputText items = "" then "tool_calls"
        else "stop") := by
  intro s out
  have hstart : ({} : ChatRelay).Says "" := ⟨rfl, rfl, rfl, rfl⟩
  obtain ⟨⟨houtput, htext, hstop, -⟩, -⟩ := hstart.onAll (completed_notMem_events items)
  rw [join_text_events, String.empty_append] at houtput htext
  have hout : out = s.sendStop.sendStop := congrArg sendStop (run_append ..)
  rw [hout, fragments_sendStop, fragments_sendStop, text_sendStop, text_sendStop]
  refine ⟨htext, rfl, ?_⟩
  simp [sendStop, hstop, houtput, s]

end

/-! ### Results with text -/

theorem quiet_events {item : OutputItem} (h : keyedCalls [item] = []) :
    ∀ e ∈ item.events, e.Quiet := by
  cases item with
  | message parts =>
    intro e he
    obtain ⟨part, -, rfl⟩ := mem_map.mp he
    trivial
  | functionCall id callId name parts =>
    have hkey : key ⟨id, callId, name, String.join parts⟩ = "" := by
      simpa [keyedCalls, call?] using h
    have hid := trimSpace_id_of_key hkey
    simp only [events, cons_append, forall_mem_cons, forall_mem_append, forall_mem_map,
      not_mem_nil, false_imp_iff, implies_true, and_true]
    exact ⟨hkey, fun _ _ => hid, hkey⟩

theorem TextFirst.fragments_eq {items : List OutputItem} (h : TextFirst items) :
    (run step {} (items.flatMap events)).fragments = [] := by
  obtain ⟨pre, post, rfl, hpre, htext⟩ := h
  have hstart : ({} : ChatRelay).Says "" := ⟨rfl, rfl, rfl, rfl⟩
  obtain ⟨hsaid, hquiet⟩ := hstart.onAll (completed_notMem_events pre)
  rw [join_text_events, String.empty_append] at hsaid
  obtain ⟨-, hquiet'⟩ := hsaid.onAll (completed_notMem_events post)
  rw [flatMap_append, run_append, hquiet' (.inl htext), hquiet (.inr fun e he => ?_)]
  · rfl
  · obtain ⟨item, hitem, he⟩ := mem_flatMap.mp he
    refine quiet_events ?_ e he
    have hsub : [item].Sublist pre := singleton_sublist.mpr hitem
    exact sublist_nil.mp (hpre ▸ (hsub.filterMap _).filter _)

/-- **A call with an id before the text is sent.** -/
theorem textFirst_of_quiet {items : List OutputItem} (hs : s.Says "")
    (hquiet : (run step s (items.flatMap events)).fragments = s.fragments)
    (htext : extractOutputText items ≠ "") : TextFirst items := by
  induction items generalizing s with
  | nil => exact absurd rfl htext
  | cons item items ih =>
    rw [flatMap_cons, run_append] at hquiet
    have hcompleted : .completed ∉ item.events := by
      simpa using completed_notMem_events [item]
    obtain ⟨hsaid, hsilent⟩ := hs.onAll hcompleted
    have hitem : String.join (item.events.map ResponsesEvent.text) = item.text := by
      simpa [extractOutputText] using join_text_events [item]
    rw [hitem, String.empty_append] at hsaid
    by_cases hnext : keyedCalls [item] = []
    · by_cases hspoken : item.text = ""
      · rw [hspoken] at hsaid
        have hrest : extractOutputText items ≠ "" := by
          simpa [extractOutputText, hspoken] using htext
        obtain ⟨pre, post, rfl, hpre, htext⟩ := ih hsaid
          (hquiet.trans (hsilent (.inr (quiet_events hnext))).symm) hrest
        refine ⟨item :: pre, post, rfl, ?_, by simpa [extractOutputText, hspoken] using htext⟩
        rw [keyedCalls, filterMap_cons, ← hpre]
        cases hcall : item.call? with
        | none => rfl
        | some c =>
          have hkey : c.key = "" := by simpa [keyedCalls, hcall] using hnext
          simp [keyedCalls, hkey]
      · exact ⟨[item], items, rfl, hnext, by simpa [extractOutputText] using hspoken⟩
    · cases item with
      | message parts => exact absurd rfl hnext
      | functionCall id callId name parts =>
        have hkey : key ⟨id, callId, name, ""⟩ ≠ "" := by
          simpa [keyedCalls, call?, key] using hnext
        have hsent : (s.step (.outputItem ⟨id, callId, name, ""⟩)).fragments.length =
            s.fragments.length + 1 := by
          have houtput : (s.noteItem ⟨id, callId, name, ""⟩).outputText = "" := hs.output
          rw [step, onOutputItem, sendToolCallDelta,
            if_neg (by rw [houtput]; simpa using hkey), fragments_send rfl, length_append]
          rfl
        rw [events, cons_append, run_cons, ← run_append] at hquiet
        obtain ⟨fs, hfs, -⟩ := run_grows (s.step (.outputItem ⟨id, callId, name, ""⟩))
          (parts.map (.argumentsDelta id) ++ [.outputItem ⟨id, callId, name, String.join parts⟩] ++
            items.flatMap events)
        have hlen := congrArg length (hfs.symm.trans hquiet)
        rw [length_append, hsent] at hlen
        omega

theorem sameAnswer_iff_textFirst {items : List OutputItem} (h : extractOutputText items ≠ "") :
    SameAnswer items ↔ TextFirst items := by
  obtain ⟨hcontent, hfrags, hstop⟩ := oaiResponsesToChatStream_says items
  have hstart : ({} : ChatRelay).Says "" := ⟨rfl, rfl, rfl, rfl⟩
  have hsame : SameAnswer items ↔ ∀ k, accumulatedCall
      (run step {} (items.flatMap events)).fragments k = none := by
    simp [SameAnswer, hcontent, hfrags, hstop, responsesResponseToChat, h]
  rw [hsame]
  constructor
  · intro hnone
    refine textFirst_of_quiet hstart ?_ h
    obtain ⟨fs, hfs, hindex⟩ := run_grows {} (items.flatMap events)
    rw [hfs] at hnone ⊢
    suffices hnil : fs = [] by rw [hnil, append_nil]
    refine eq_nil_iff_forall_not_mem.mpr fun t ht => ?_
    obtain ⟨k, hk⟩ := Option.isSome_iff_exists.mp (hindex t ht)
    have hmem : t ∈ (({} : ChatRelay).fragments ++ fs).filter (·.index = some k) :=
      mem_filter.mpr ⟨mem_append_right _ ht, by simp [hk]⟩
    have hk' := hnone k
    rw [accumulatedCall] at hk'
    split at hk'
    · rename_i hnil
      rw [hnil] at hmem
      cases hmem
    · cases hk'
  · intro htext k
    rw [htext.fragments_eq]
    rfl

/-! ### Results without text -/

theorem Interleaved.deltas (h : Interleaved es order got owner) (hc : c ∈ order)
    (hid : owner (trimSpace c.id) = c.key) (parts : List String) :
    Interleaved (es ++ parts.map (.argumentsDelta c.id)) order
      (update got c.key (got c.key ++ String.join parts)) owner := by
  induction parts generalizing es got with
  | nil => simpa using h
  | cons part parts ih =>
    have hrest := ih (h.delta hc hid part)
    rw [update_self, update_idem, String.append_assoc, ← String.join_cons, append_assoc] at hrest
    exact hrest

theorem Interleaved.losts (h : Interleaved es order got owner) {id : String}
    (hid : trimSpace id = "") (parts : List String) :
    Interleaved (es ++ parts.map (.argumentsDelta id)) order got owner := by
  induction parts generalizing es with
  | nil => simpa using h
  | cons part parts ih =>
    have hrest := ih (h.lost hid part)
    rwa [append_assoc] at hrest

theorem Interleaved.empties (h : Interleaved es order got owner)
    {parts : List String} (hparts : String.join parts = "") :
    Interleaved (es ++ parts.map .outputTextDelta) order got owner := by
  induction parts generalizing es with
  | nil => simpa using h
  | cons part parts ih =>
    rw [String.join_cons, String.append_eq_empty_iff] at hparts
    have hrest := ih h.noText hparts.2
    rwa [append_assoc, ← hparts.1] at hrest

/-- **All arguments of the calls have arrived.** -/
def StreamSettled (es : List ResponsesEvent) (order : List FunctionCall) : Prop :=
  ∃ got owner, Interleaved es order got owner ∧ ∀ c ∈ order, got c.key = c.arguments

theorem StreamSettled.item (h : StreamSettled es order) {item : OutputItem} (htext : item.text = "")
    (hfresh : ∀ c ∈ keyedCalls [item], c.key ∉ order.map key) :
    StreamSettled (es ++ item.events) (order ++ keyedCalls [item]) := by
  obtain ⟨got, owner, h, hgot⟩ := h
  cases item with
  | message parts =>
    have hnone : keyedCalls [.message parts] = [] := rfl
    rw [hnone, append_nil]
    exact ⟨got, owner, h.empties htext, hgot⟩
  | functionCall id callId name parts =>
    set c : FunctionCall := ⟨id, callId, name, String.join parts⟩ with hcall
    by_cases hkey : c.key = ""
    · have hnone : keyedCalls [.functionCall id callId name parts] = [] :=
        filter_cons_of_neg (by simpa using hkey)
      have hid : trimSpace id = "" := trimSpace_id_of_key (c := c) hkey
      have hadded : key ⟨id, callId, name, ""⟩ = "" := hkey
      have hall := ((h.nameless hadded).losts hid parts).nameless hkey
      rw [hnone, append_nil]
      rw [append_assoc, append_assoc] at hall
      exact ⟨got, owner, hall, hgot⟩
    · have hone : keyedCalls [.functionCall id callId name parts] = [c] :=
        filter_cons_of_pos (decide_eq_true hkey)
      rw [hone] at hfresh ⊢
      have hnew := hfresh c (mem_singleton.mpr rfl)
      have hc : c ∈ order ++ [c] := by simp
      have hunset : got c.key = "" := (h.relayed.unknown c.key hkey hnew).1
      have hadded := h.added (c := c) ⟨hkey, hnew⟩
      have hdone : Interleaved (es ++ events (.functionCall id callId name parts))
          (order ++ [c]) (update got c.key (String.join parts)) (c.claims (c.claims owner)) := by
        by_cases hid : trimSpace id = ""
        · have hall := (hadded.losts hid parts).done hc (.inr hunset)
          rwa [append_assoc, append_assoc] at hall
        · have howner : c.claims owner (trimSpace c.id) = c.key := by
            rw [claims, if_neg hid, update_self]
          have hdeltas := hadded.deltas hc howner parts
          rw [hunset, String.empty_append] at hdeltas
          have hall := hdeltas.done hc (.inl (update_self ..))
          rwa [update_idem, append_assoc, append_assoc] at hall
      refine ⟨_, _, hdone, fun d hd => ?_⟩
      rcases mem_append.mp hd with hd | hd
      · have hne : d.key ≠ c.key := fun heq => hnew (heq ▸ mem_map_of_mem hd)
        simpa only [update_of_ne hne] using hgot d hd
      · obtain rfl : d = c := mem_singleton.mp hd
        exact update_self ..

theorem keyedCalls_cons (item : OutputItem) (items : List OutputItem) :
    keyedCalls (item :: items) = keyedCalls [item] ++ keyedCalls items := by
  rw [keyedCalls, ← singleton_append, filterMap_append, filter_append]
  rfl

theorem StreamSettled.items (h : StreamSettled es order) {items : List OutputItem}
    (htext : extractOutputText items = "")
    (hnodup : ((order ++ keyedCalls items).map key).Nodup) :
    StreamSettled (es ++ items.flatMap events) (order ++ keyedCalls items) := by
  induction items generalizing es order with
  | nil => simpa [keyedCalls] using h
  | cons item items ih =>
    rw [extractOutputText, map_cons, String.join_cons, String.append_eq_empty_iff] at htext
    rw [keyedCalls_cons, ← append_assoc] at hnodup ⊢
    rw [flatMap_cons, ← append_assoc]
    refine ih (h.item htext.1 fun c hc hmem => ?_) htext.2 hnodup
    rw [map_append, map_append, append_assoc] at hnodup
    exact (disjoint_of_nodup_append hnodup) hmem (mem_append_left _ (mem_map_of_mem hc))

theorem join_filter_ne_empty (ss : List String) :
    String.join (ss.filter (· ≠ "")) = String.join ss := by
  induction ss with
  | nil => rfl
  | cons s ss ih => by_cases hs : s = "" <;> simp_all

theorem StreamSettled.accumulatedCall_eq (h : StreamSettled es order) (k : Nat) :
    accumulatedCall (run step {} es).fragments k =
      (order.map answer)[k]? := by
  obtain ⟨got, owner, h, hgot⟩ := h
  rw [accumulatedCall, getElem?_map]
  cases hk : order[k]? with
  | none =>
    have hnil : (run step {} es).fragments.filter (·.index = some k) = [] := by
      refine filter_eq_nil_iff.mpr fun t ht => ?_
      obtain ⟨j, hj, hindex⟩ := h.relayed.bounded t ht
      have hlen := getElem?_eq_none_iff.mp hk
      simp only [hindex, Option.some.injEq, decide_eq_true_eq]
      omega
    rw [hnil]
    rfl
  | some c =>
    obtain ⟨hne, hids, hnames, hargs⟩ := h.relayed.told k c hk
    rw [hgot c (mem_of_getElem? hk)] at hargs
    have hname := congrArg String.join hnames
    rw [join_filter_ne_empty] at hname
    cases hfs : (run step {} es).fragments.filter (·.index = some k) with
    | nil => exact absurd hfs hne
    | cons t ts =>
      rw [hfs] at hids hargs hname
      rw [join_filter_ne_empty] at hname
      simp only [hids t mem_cons_self, hargs, hname]
      simp [answer]

/-- **The same calls** have an id as have a name, if they give the same answers. -/
theorem map_answer_eq_iff (calls : List FunctionCall) : (calls.filter (·.key ≠ "")).map answer =
        (calls.filter (trimSpace ·.name ≠ "")).map answer ↔
      ∀ c ∈ calls, c.key ≠ "" ↔ trimSpace c.name ≠ "" := by
  constructor
  · intro h c hc
    constructor
    · intro hkey
      have hmem : c.answer ∈ (calls.filter (·.key ≠ "")).map answer :=
        mem_map_of_mem (mem_filter.mpr ⟨hc, decide_eq_true hkey⟩)
      rw [h] at hmem
      obtain ⟨d, hd, heq⟩ := mem_map.mp hmem
      have hname : trimSpace d.name = trimSpace c.name := congrArg ToolCallFragment.name heq
      exact hname ▸ of_decide_eq_true (mem_filter.mp hd).2
    · intro hname
      have hmem : c.answer ∈ (calls.filter (trimSpace ·.name ≠ "")).map answer :=
        mem_map_of_mem (mem_filter.mpr ⟨hc, decide_eq_true hname⟩)
      rw [← h] at hmem
      obtain ⟨d, hd, heq⟩ := mem_map.mp hmem
      have hkey : d.key = c.key := congrArg ToolCallFragment.id heq
      exact hkey ▸ of_decide_eq_true (mem_filter.mp hd).2
  · intro h
    have hfilter : calls.filter (·.key ≠ "") = calls.filter (trimSpace ·.name ≠ "") :=
      filter_congr fun c hc => decide_eq_decide.mpr (h c hc)
    rw [hfilter]

theorem sameAnswer_iff_of_nodup {items : List OutputItem} (htext : extractOutputText items = "")
    (hnodup : ((keyedCalls items).map key).Nodup) :
    SameAnswer items ↔
      ∀ c ∈ items.filterMap call?, c.key ≠ "" ↔ trimSpace c.name ≠ "" := by
  have hsettled : StreamSettled ([] ++ items.flatMap events) ([] ++ keyedCalls items) :=
    StreamSettled.items ⟨_, _, .nil, by simp⟩ htext (by simpa using hnodup)
  rw [nil_append, nil_append] at hsettled
  have hcalls := hsettled.accumulatedCall_eq
  obtain ⟨got, owner, hint, -⟩ := hsettled
  obtain ⟨hcontent, hfrags, hstop⟩ := oaiResponsesToChatStream_says items
  rw [← map_answer_eq_iff]
  simp only [SameAnswer, hcontent, hfrags, hstop, responsesResponseToChat, htext, if_true,
    hint.relayed.saw, and_true, hcalls]
  constructor
  · exact fun h => ext_getElem? h.2.1
  · intro h
    have hnil : keyedCalls items ≠ [] ↔ ((items.filterMap call?).filter
        (trimSpace ·.name ≠ "")).map answer ≠ [] := by
      rw [← h]
      simp [keyedCalls]
    refine ⟨by simp, fun k => congrArg (·[k]?) h, ?_⟩
    simp only [hnil]

/-- **The stream agrees with the whole result** if text comes before the calls, or there is none and
the calls can be told from each other; and only then, unless an id comes twice. -/
theorem oaiResponsesToChatStream_sameAnswer (items : List OutputItem) :
    (StreamAgrees items → SameAnswer items) ∧
      (extractOutputText items ≠ "" ∨ ((keyedCalls items).map key).Nodup →
        SameAnswer items → StreamAgrees items) := by
  unfold StreamAgrees
  by_cases htext : extractOutputText items = ""
  · rw [if_pos htext]
    exact ⟨fun h => (sameAnswer_iff_of_nodup htext h.1).mpr h.2, fun hids h =>
      have hnodup := hids.resolve_left (not_not.mpr htext)
      ⟨hnodup, (sameAnswer_iff_of_nodup htext hnodup).mp h⟩⟩
  · rw [if_neg htext, sameAnswer_iff_textFirst htext]
    exact ⟨id, fun _ => id⟩

/-- **A call before the text** is sent by the stream and left out of the whole answer. -/
theorem oaiResponsesToChatStream_differs :
    let items := [OutputItem.functionCall "fc_1" "call_1" "f" ["[", "]"], .message ["Hi"]]
    let s := oaiResponsesToChatStream (items.flatMap events ++ [.completed])
    accumulatedCall s.fragments 0 = some { id := "call_1", name := "f", arguments := "[]" } ∧
      (responsesResponseToChat items).toolCalls = [] ∧ ¬ SameAnswer items := by
  intro items s
  have hstream : accumulatedCall s.fragments 0 =
      some { id := "call_1", name := "f", arguments := "[]" } := by decide +kernel
  have hwhole : (responsesResponseToChat items).toolCalls = [] := by decide +kernel
  refine ⟨hstream, hwhole, fun h => ?_⟩
  have hcall := h.2.1 0
  rw [hstream, hwhole] at hcall
  cases hcall

end NomoApi
