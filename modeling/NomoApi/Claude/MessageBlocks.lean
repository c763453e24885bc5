import Mathlib.Data.List.Sort
import NomoApi.Convert.ClaudeGrammar

/-! # Claude messages for an OpenAI client

`StreamResponseClaude2OpenAI` and `ResponseClaude2OpenAI` (`relay/channel/claude/relay-claude.go`)
turn a Claude message, streamed or whole, into an OpenAI answer. The stream takes the index of a
tool call from the number of its block, less one; the whole form keeps the last text and the last
reasoning. -/

namespace NomoApi

open List

def claudeStopReasonToOpenAIFinishReason (stopReason : String) : String :=
  match toLower stopReason with
  | "stop_sequence" => "stop"
  | "end_turn" => "stop"
  | "max_tokens" => "length"
  | "tool_use" => "tool_calls"
  | "refusal" => "content_filter"
  | _ => stopReason

/-! ### A streamed message -/

def deltaChunk (delta : ChunkDelta) : StreamChunk := { choices := [{ delta }] }

def stopChunk (stopReason : String) : StreamChunk :=
  let finishReason := claudeStopReasonToOpenAIFinishReason stopReason
  { choices := [{
      delta := {}, finishReason := if finishReason ≠ "null" then some finishReason else none }] }

def streamResponseClaude2OpenAI : ClaudeEvent → Option StreamChunk
  | .messageStart id model _ => some { deltaChunk {} with id, model }
  | .contentBlockStart index (.toolUse id name) =>
    -- `fcIdx`, which is not below zero
    some (deltaChunk { toolCalls := [{ index := some (index - 1), id, name }] })
  | .contentBlockStart _ _ => some (deltaChunk {})
  | .contentBlockDelta _ (.textDelta text) => some (deltaChunk { content := text })
  | .contentBlockDelta _ (.thinkingDelta thinking) => some (deltaChunk { reasoning := thinking })
  | .contentBlockDelta index (.inputJsonDelta partialJson) =>
    some (deltaChunk { toolCalls := [{ index := some (index - 1), arguments := partialJson }] })
  | .messageDelta _ stopReason => some (stopChunk stopReason)
  | .contentBlockStop _ | .messageStop => none

structure MessageBlock where
  block : ContentBlock
  parts : List String
  deriving DecidableEq

open MessageBlock

def MessageBlock.content (b : MessageBlock) : String := String.join b.parts

def ContentBlock.delta (part : String) : ContentBlock → BlockDelta
  | .text => .textDelta part
  | .thinking => .thinkingDelta part
  | .toolUse _ _ => .inputJsonDelta part

open ContentBlock

variable (b : MessageBlock) (index : Nat)

def MessageBlock.events : List ClaudeEvent :=
  .contentBlockStart index b.block ::
    b.parts.map (fun part => .contentBlockDelta index (b.block.delta part)) ++
    [.contentBlockStop index]

def MessageBlock.chunks : List StreamChunk :=
  (b.events index).filterMap streamResponseClaude2OpenAI

def messageChunks (id model stopReason : String) (blocks : List MessageBlock) : List StreamChunk :=
  let events : List ClaudeEvent :=
    .messageStart id model 0 :: blocks.zipIdx.flatMap (fun x => x.1.events x.2) ++
      [.messageDelta {} stopReason, .messageStop]
  events.filterMap streamResponseClaude2OpenAI

def fragmentsIn (chunks : List StreamChunk) : List ToolCallFragment :=
  chunks.flatMap (·.delta.toolCalls)

def MessageBlock.isTool : Bool := b.block.kind = .toolUse

variable (blocks : List MessageBlock)

def toolBlocks : List (MessageBlock × Nat) :=
  blocks.zipIdx.filter (·.1.isTool)

/-- **The tool calls are numbered from zero**, all fragments of one with its number. -/
def NumbersTools : Prop :=
  ∀ j b p, (toolBlocks blocks)[j]? = some (b, p) →
    ∀ t ∈ fragmentsIn (b.chunks p), t.index = some j

/-- The block of the `j`-th tool call has the number `j + 1`, or else the first one has zero. -/
def ToolsFollowOne : Prop :=
  ∀ j b p, (toolBlocks blocks)[j]? = some (b, p) → p - 1 = j

def ContentBlock.startDelta : ContentBlock → ChunkDelta
  | .toolUse id name => { toolCalls := [{ index := some (index - 1), id, name }] }
  | _ => {}

def ContentBlock.partDelta (part : String) : ContentBlock → ChunkDelta
  | .text => { content := part }
  | .thinking => { reasoning := part }
  | .toolUse _ _ => { toolCalls := [{ index := some (index - 1), arguments := part }] }

theorem MessageBlock.chunks_eq (p : Nat) : b.chunks p = deltaChunk (b.block.startDelta p) ::
      b.parts.map fun part => deltaChunk (b.block.partDelta p part) := by
  obtain ⟨block, parts⟩ := b
  have hstop : [ClaudeEvent.contentBlockStop p].filterMap streamResponseClaude2OpenAI = [] := rfl
  cases block <;>
    simp [chunks, events, streamResponseClaude2OpenAI, hstop,
      delta, startDelta, partDelta, filterMap_map,
      Function.comp_def]

def MessageBlock.fragments (j : Nat) : List ToolCallFragment :=
  match b.block with
  | .toolUse id name =>
    { index := some j, id, name } :: b.parts.map fun part => { index := some j, arguments := part }
  | _ => []

theorem fragmentsIn_chunks (p : Nat) : fragmentsIn (b.chunks p) = b.fragments (p - 1) := by
  have hchunks : fragmentsIn (b.chunks p) = (b.block.startDelta p).toolCalls ++
      b.parts.flatMap fun part => (b.block.partDelta p part).toolCalls := by
    rw [chunks_eq, fragmentsIn, flatMap_cons, flatMap_map]
    rfl
  rw [hchunks, fragments]
  cases b.block with
  | text => simp [startDelta, partDelta]
  | thinking => simp [startDelta, partDelta]
  | toolUse id name => exact congrArg _ map_eq_flatMap.symm

/-- **When the tool calls are numbered from zero.** -/
theorem numbersTools_iff (blocks : List MessageBlock) :
    NumbersTools blocks ↔ ToolsFollowOne blocks := by
  refine forall_congr' fun j => forall_congr' fun b => forall_congr' fun p =>
    forall_congr' fun hb => ?_
  have htool := (mem_filter.mp (mem_of_getElem? hb)).2
  rw [fragmentsIn_chunks, fragments]
  obtain ⟨block, parts⟩ := b
  cases block with
  | text => cases htool
  | thinking => cases htool
  | toolUse id name =>
    simp only [forall_mem_cons, forall_mem_map, Option.some.injEq]
    exact ⟨fun h => h.1, fun h => ⟨h, fun _ _ => h⟩⟩

/-- **Two tool calls with the index zero**, one tool call with the index one. -/
theorem not_numbersTools :
    let two := [⟨.toolUse "toolu_1" "search", []⟩, ⟨.toolUse "toolu_2" "fetch", []⟩]
    let late := [⟨.thinking, ["hm"]⟩, ⟨.text, ["Let me look."]⟩, ⟨.toolUse "toolu_1" "search", []⟩]
    (fragmentsIn (messageChunks "msg" "claude" "tool_use" two)).map (·.index) = [some 0, some 0] ∧
      (fragmentsIn (messageChunks "msg" "claude" "tool_use" late)).map (·.index) = [some 1] ∧
      ¬ NumbersTools two ∧ ¬ NumbersTools late := by
  intro two late
  refine ⟨by decide +kernel, by decide +kernel, fun h => ?_, fun h => ?_⟩
  · exact absurd (h 1 _ _ rfl) (by decide +kernel)
  · exact absurd (h 0 _ _ rfl) (by decide +kernel)

/-! ### A whole message -/

structure ChatMessage where
  content : String := ""
  reasoningContent : String := ""
  toolCalls : List ToolCallFragment := []
  finishReason : String
  deriving DecidableEq

/-- **The encoding of tool inputs**: `json.Unmarshal`, `json.Marshal`, and the object without
fields. -/
structure InputCodec (Input : Type) where
  decode : String → Option Input
  marshal : Input → String
  noInput : Input

/-- What was decoded, or has no fields, is encoded so that it is decoded again. -/
structure InputCodec.Lawful {Input : Type} (codec : InputCodec Input) : Prop where
  decoded : ∀ text v, codec.decode text = some v → codec.decode (codec.marshal v) = some v
  noInput : codec.decode (codec.marshal codec.noInput) = some codec.noInput

section Whole

variable {Input : Type} (codec : InputCodec Input)

/-- The input of a tool call in the whole message: that of the streamed text, of which there is none
for a call without input. -/
def MessageBlock.input (b : MessageBlock) : Input := (codec.decode b.content).getD codec.noInput

def ChatMessage.addBlock (m : ChatMessage) (b : MessageBlock) : ChatMessage :=
  match b.block with
  | .toolUse id name =>
    { m with toolCalls :=
        m.toolCalls ++ [{ id, name, arguments := codec.marshal (b.input codec) }] }
  | .thinking => { m with reasoningContent := b.content }
  | .text => { m with content := b.content }

/-- The reasoning of the first block is overwritten after the loop. -/
def responseClaude2OpenAI (stopReason : String) (blocks : List MessageBlock) : ChatMessage :=
  let responseText := match blocks with
    | { block := .text, parts } :: _ => String.join parts
    | _ => ""
  blocks.foldl (ChatMessage.addBlock codec)
    { content := responseText, finishReason := claudeStopReasonToOpenAIFinishReason stopReason }

def contentsOf (kind : BlockKind) (blocks : List MessageBlock) : List String :=
  (blocks.filter (·.block.kind = kind)).map content

def MessageBlock.call (b : MessageBlock) : ToolCallFragment :=
  match b.block with
  | .toolUse id name => { id, name, arguments := codec.marshal (b.input codec) }
  | _ => {}

def callsOf (blocks : List MessageBlock) : List ToolCallFragment :=
  (blocks.filter isTool).map (call codec)

def accumulatedCall (fragments : List ToolCallFragment) (k : Nat) : Option ToolCallFragment :=
  match fragments.filter (·.index = some k) with
  | [] => none
  | t :: ts =>
    some { id := t.id, name := String.join ((t :: ts).map (·.name)),
           arguments := String.join ((t :: ts).map (·.arguments)) }

theorem contentsOf_cons (kind : BlockKind) (b : MessageBlock) (blocks : List MessageBlock) :
    contentsOf kind (b :: blocks) =
      (if b.block.kind = kind then [b.content] else []) ++ contentsOf kind blocks := by
  by_cases hkind : b.block.kind = kind <;> simp [contentsOf, hkind]

theorem foldl_addBlock (blocks : List MessageBlock) (m : ChatMessage) :
    blocks.foldl (ChatMessage.addBlock codec) m = { m with
        content := (contentsOf .text blocks).getLastD m.content
        reasoningContent := (contentsOf .thinking blocks).getLastD m.reasoningContent
        toolCalls := m.toolCalls ++ callsOf codec blocks } := by
  induction blocks generalizing m with
  | nil => simp [contentsOf, callsOf]
  | cons b blocks ih =>
    obtain ⟨block, parts⟩ := b
    rw [foldl_cons, ih]
    cases block <;>
      simp [ChatMessage.addBlock, contentsOf_cons, callsOf, kind, getLast?_cons, isTool, call]

theorem responseClaude2OpenAI_eq (stopReason : String) (blocks : List MessageBlock) :
    responseClaude2OpenAI codec stopReason blocks =
      { content := (contentsOf .text blocks).getLastD ""
        reasoningContent := (contentsOf .thinking blocks).getLastD ""
        toolCalls := callsOf codec blocks
        finishReason := claudeStopReasonToOpenAIFinishReason stopReason } := by
  unfold responseClaude2OpenAI
  simp only [foldl_addBlock]
  split <;> simp [contentsOf_cons, kind, getLast?_cons, content]

end Whole

theorem getLastD_eq_join_iff (ss : List String) :
    ss.getLastD "" = String.join ss ↔ String.join ss.dropLast = "" := by
  cases ss using reverseRecOn with
  | nil => simp
  | append_singleton ss s =>
    rw [dropLast_concat, String.join_append, ← String.toList_inj, ← String.toList_inj]
    simp

/-! ### What a client puts together -/

def accumulated (field : ChunkDelta → String) (chunks : List StreamChunk) : String :=
  String.join (chunks.map fun c => field c.delta)

theorem messageChunks_eq (id model stopReason : String) (blocks : List MessageBlock) :
    ∃ first last : StreamChunk, first.delta = {} ∧ last.delta = {} ∧
      messageChunks id model stopReason blocks =
        first :: (blocks.zipIdx.flatMap fun x => x.1.chunks x.2) ++ [last] := by
  have hfirst : streamResponseClaude2OpenAI (.messageStart id model 0) =
      some { deltaChunk {} with id, model } := rfl
  refine ⟨{ deltaChunk {} with id, model }, stopChunk stopReason, rfl, rfl, ?_⟩
  rw [messageChunks, cons_append, filterMap_cons_some hfirst, filterMap_append, filterMap_flatMap]
  rfl

theorem join_replicate_empty (n : Nat) : String.join (List.replicate n "") = "" := by
  induction n with
  | zero => rfl
  | succ n ih => rw [replicate_succ, String.join_cons, ih, String.append_empty]

theorem accumulated_messageChunks {field : ChunkDelta → String} {kind : BlockKind}
    (hempty : field {} = "") (hstart : ∀ i block, field (startDelta i block) = "")
    (hpart : ∀ i part block,
      field (partDelta i part block) = if block.kind = kind then part else "")
    (id model stopReason : String) (blocks : List MessageBlock) :
    accumulated field (messageChunks id model stopReason blocks) =
      String.join (contentsOf kind blocks) := by
  have happend : ∀ cs ds, accumulated field (cs ++ ds) =
      accumulated field cs ++ accumulated field ds := by
    intro cs ds
    rw [accumulated, map_append, String.join_append, accumulated, accumulated]
  have hblock : ∀ (b : MessageBlock) i, accumulated field (b.chunks i) =
      if b.block.kind = kind then b.content else "" := by
    intro b i
    have hparts : (b.parts.map fun part => deltaChunk (b.block.partDelta i part)).map
        (fun c => field c.delta) = b.parts.map fun part => field (b.block.partDelta i part) := by
      rw [map_map]
      rfl
    have hfirst : field (deltaChunk (b.block.startDelta i)).delta = "" := hstart i b.block
    rw [chunks_eq, accumulated, map_cons, String.join_cons, hparts, hfirst]
    by_cases hkind : b.block.kind = kind
    · simp [hpart, hkind, content]
    · simp [hpart, hkind, join_replicate_empty]
  have hblocks : ∀ k, accumulated field ((blocks.zipIdx k).flatMap fun x => x.1.chunks x.2) =
      String.join (contentsOf kind blocks) := by
    induction blocks with
    | nil => intro k; rfl
    | cons b blocks ih =>
      intro k
      rw [zipIdx_cons, flatMap_cons, happend, ih, hblock, contentsOf_cons]
      by_cases hkind : b.block.kind = kind <;> simp [hkind]
  obtain ⟨first, last, hfirst, hlast, heq⟩ := messageChunks_eq id model stopReason blocks
  rw [heq, cons_append, ← singleton_append, happend, happend, hblocks]
  simp [accumulated, hfirst, hlast, hempty]

theorem fragmentsIn_messageChunks (id model stopReason : String) (blocks : List MessageBlock) :
    fragmentsIn (messageChunks id model stopReason blocks) =
      (toolBlocks blocks).flatMap fun x => x.1.fragments (x.2 - 1) := by
  obtain ⟨first, last, hfirst, hlast, heq⟩ := messageChunks_eq id model stopReason blocks
  have hblocks : ∀ l : List (MessageBlock × Nat), fragmentsIn (l.flatMap fun x => x.1.chunks x.2) =
        (l.filter (·.1.isTool)).flatMap fun x => x.1.fragments (x.2 - 1) := by
    intro l
    induction l with
    | nil => rfl
    | cons bp l ih =>
      have hcons : fragmentsIn ((bp :: l).flatMap fun x => x.1.chunks x.2) =
          fragmentsIn (bp.1.chunks bp.2) ++ fragmentsIn (l.flatMap fun x => x.1.chunks x.2) := by
        rw [flatMap_cons]
        exact flatMap_append
      rw [hcons, ih, fragmentsIn_chunks]
      obtain ⟨⟨block, parts⟩, p⟩ := bp
      cases block <;> rfl
  rw [heq, toolBlocks, ← hblocks]
  simp [fragmentsIn, hfirst, hlast]

theorem index_of_mem_fragments {b : MessageBlock} {j : Nat} {t : ToolCallFragment}
    (h : t ∈ b.fragments j) : t.index = some j := by
  obtain ⟨block, parts⟩ := b
  cases block with
  | text => cases h
  | thinking => cases h
  | toolUse id name =>
    rcases mem_cons.mp h with rfl | h
    · rfl
    · obtain ⟨part, -, rfl⟩ := mem_map.mp h
      rfl

/-- **The calls that a client has**, by their indexes in ascending order, are these: their ids and
names, and what their arguments decode to. -/
def SameCalls {Input : Type} (decode : String → Option Input) (fragments : List ToolCallFragment)
    (calls : List ToolCallFragment) : Prop :=
  ∃ indexes : List Nat, indexes.Pairwise (· < ·) ∧
    (∀ k, (accumulatedCall fragments k).isSome = true ↔ k ∈ indexes) ∧
    List.Forall₂ (fun k call => ∃ got, accumulatedCall fragments k = some got ∧ got.id = call.id ∧
      got.name = call.name ∧ decode got.arguments = decode call.arguments) indexes calls

/-- The first two blocks are not both tool calls, to which the stream gives the index zero. -/
def ToolsApart (blocks : List MessageBlock) : Prop :=
  ∀ b b', blocks[0]? = some b → blocks[1]? = some b' → ¬ (b.isTool = true ∧ b'.isTool = true)

section Tools

variable {ts : List (MessageBlock × Nat)} {blocks : List MessageBlock}

theorem filter_fragments (h : ts.Pairwise fun x y => x.2 - 1 < y.2 - 1) {x : MessageBlock × Nat}
    (hx : x ∈ ts) : (ts.flatMap fun x => x.1.fragments (x.2 - 1)).filter
      (·.index = some (x.2 - 1)) = x.1.fragments (x.2 - 1) := by
  have hall (y : MessageBlock × Nat) : (y.1.fragments (y.2 - 1)).filter
      (·.index = some (x.2 - 1)) = if y.2 - 1 = x.2 - 1 then y.1.fragments (y.2 - 1) else [] := by
    split
    next heq => exact filter_eq_self.mpr fun t ht => by simp [index_of_mem_fragments ht, heq]
    next hne => exact filter_eq_nil_iff.mpr fun t ht => by simp [index_of_mem_fragments ht, hne]
  induction ts with
  | nil => cases hx
  | cons y ts ih =>
    obtain ⟨hy, hts⟩ := pairwise_cons.mp h
    rw [flatMap_cons, filter_append, hall]
    rcases mem_cons.mp hx with rfl | hx
    · have hrest : (ts.flatMap fun x => x.1.fragments (x.2 - 1)).filter
          (·.index = some (x.2 - 1)) = [] := by
        rw [filter_flatMap]
        exact flatMap_eq_nil_iff.mpr fun z hz => (hall z).trans (if_neg (hy z hz).ne')
      rw [if_pos rfl, hrest, append_nil]
    · rw [if_neg (hy x hx).ne, nil_append, ih hts hx]

theorem pairwise_toolBlocks (h : ToolsApart blocks) :
    (toolBlocks blocks).Pairwise fun x y => x.2 - 1 < y.2 - 1 := by
  have hlt : (toolBlocks blocks).Pairwise fun x y => x.2 < y.2 := by
    refine Pairwise.filter _ (pairwise_map.mp ?_)
    rw [zipIdx_map_snd]
    exact pairwise_lt_range' 1
  refine hlt.imp_of_mem fun {x y} hx hy hxy => ?_
  obtain ⟨hx, htx⟩ := mem_filter.mp hx
  obtain ⟨hy, hty⟩ := mem_filter.mp hy
  have hapart : ¬ (x.2 = 0 ∧ y.2 = 1) := by
    rintro ⟨hx0, hy1⟩
    refine h x.1 y.1 ?_ ?_ ⟨htx, hty⟩
    · rw [← hx0]
      exact mk_mem_zipIdx_iff_getElem?.mp hx
    · rw [← hy1]
      exact mk_mem_zipIdx_iff_getElem?.mp hy
  omega

theorem mem_of_accumulatedCall {k : Nat}
    (h : (accumulatedCall (ts.flatMap fun x => x.1.fragments (x.2 - 1)) k).isSome = true) :
    k ∈ ts.map (·.2 - 1) := by
  rw [accumulatedCall] at h
  split at h
  · cases h
  next t _ heq =>
    obtain ⟨hmem, hindex⟩ := mem_filter.mp (heq ▸ mem_cons_self : t ∈ filter _ _)
    obtain ⟨x, hx, ht⟩ := mem_flatMap.mp hmem
    rw [index_of_mem_fragments ht] at hindex
    exact mem_map.mpr ⟨x, hx, by simpa using hindex⟩

theorem accumulatedCall_tool (h : ts.Pairwise fun x y => x.2 - 1 < y.2 - 1)
    {x : MessageBlock × Nat} (hx : x ∈ ts) (htool : x.1.isTool = true) :
    ∃ id name, x.1.block = .toolUse id name ∧
      accumulatedCall (ts.flatMap fun x => x.1.fragments (x.2 - 1)) (x.2 - 1) =
        some { id, name, arguments := x.1.content } := by
  rw [accumulatedCall, filter_fragments h hx]
  obtain ⟨⟨block, parts⟩, p⟩ := x
  cases block with
  | text => cases htool
  | thinking => cases htool
  | toolUse id name =>
    refine ⟨id, name, rfl, ?_⟩
    simp [fragments, content, Function.comp_def, join_replicate_empty]

end Tools

section Agree

variable {Input : Type} {codec : InputCodec Input} {blocks : List MessageBlock}

theorem callsOf_eq : callsOf codec blocks = (toolBlocks blocks).map (·.1.call codec) := by
  have hfst := filter_map (f := Prod.fst) (p := isTool) (l := blocks.zipIdx)
  rw [zipIdx_map_fst] at hfst
  rw [callsOf, hfst, map_map]
  rfl

theorem not_sameCalls (h : ¬ ToolsApart blocks) (decode : String → Option Input) :
    ¬ SameCalls decode ((toolBlocks blocks).flatMap fun x => x.1.fragments (x.2 - 1))
      (callsOf codec blocks) := by
  rintro ⟨indexes, hlt, hindexes, hcalls⟩
  simp only [ToolsApart, not_forall, not_not] at h
  obtain ⟨b, b', hb, hb', htool, htool'⟩ := h
  obtain ⟨rest, rfl⟩ : ∃ rest, blocks = b :: b' :: rest := by
    match blocks, hb, hb' with
    | _ :: _ :: rest, rfl, rfl => exact ⟨rest, rfl⟩
  have hblocks : toolBlocks (b :: b' :: rest) =
      (b, 0) :: (b', 1) :: (rest.zipIdx 2).filter (·.1.isTool) := by
    simp [toolBlocks, zipIdx_cons, htool, htool']
  -- the two first calls share an index, so there are fewer indexes than calls
  have hsub : indexes ⊆ 0 :: ((rest.zipIdx 2).filter (·.1.isTool)).map (·.2 - 1) := by
    intro k hk
    have hmem := mem_of_accumulatedCall ((hindexes k).mpr hk)
    rw [hblocks] at hmem
    simpa using hmem
  have hnodup : indexes.Nodup := hlt.imp Nat.ne_of_lt
  have hle := (hnodup.subperm hsub).length_le
  have hlength := hcalls.length_eq
  rw [callsOf_eq, hblocks] at hlength
  simp only [length_cons, length_map] at hle hlength
  omega

theorem decode_marshal_iff (hcodec : codec.Lawful) (b : MessageBlock) :
    codec.decode b.content = codec.decode (codec.marshal (b.input codec)) ↔
      (codec.decode b.content).isSome = true := by
  rw [MessageBlock.input]
  cases hdecode : codec.decode b.content with
  | none => simp [hcodec.noInput]
  | some v => simp [hcodec.decoded _ v hdecode]

theorem sameCalls_iff (hcodec : codec.Lawful) (hapart : ToolsApart blocks) :
    SameCalls codec.decode ((toolBlocks blocks).flatMap fun x => x.1.fragments (x.2 - 1))
        (callsOf codec blocks) ↔
      ∀ b ∈ blocks, b.isTool = true → (codec.decode b.content).isSome = true := by
  have hpairwise := pairwise_toolBlocks hapart
  have hcall := fun x hx => accumulatedCall_tool (x := x) hpairwise hx (mem_filter.mp hx).2
  have hindexes (k : Nat) : (accumulatedCall ((toolBlocks blocks).flatMap fun x =>
      x.1.fragments (x.2 - 1)) k).isSome = true ↔ k ∈ (toolBlocks blocks).map (·.2 - 1) := by
    refine ⟨mem_of_accumulatedCall, fun hk => ?_⟩
    obtain ⟨x, hx, rfl⟩ := mem_map.mp hk
    obtain ⟨_, _, -, heq⟩ := hcall x hx
    rw [heq]
    rfl
  constructor
  · rintro ⟨indexes, hlt, hmem, hcalls⟩ b hb htool
    obtain rfl := Pairwise.eq_of_mem_iff hlt (pairwise_map.mpr hpairwise)
      fun k => (hmem k).symm.trans (hindexes k)
    rw [callsOf_eq, forall₂_map_left_iff, forall₂_map_right_iff, forall₂_same] at hcalls
    obtain ⟨p, hp⟩ := mem_iff_getElem?.mp hb
    have hx : (b, p) ∈ toolBlocks blocks :=
      mem_filter.mpr ⟨mk_mem_zipIdx_iff_getElem?.mpr hp, htool⟩
    obtain ⟨_, hgot, -, -, hargs⟩ := hcalls _ hx
    obtain ⟨id, name, hblock, heq⟩ := hcall _ hx
    cases hgot.symm.trans heq
    rw [call, hblock] at hargs
    exact (decode_marshal_iff hcodec b).mp hargs
  · intro h
    refine ⟨_, pairwise_map.mpr hpairwise, hindexes, ?_⟩
    rw [callsOf_eq, forall₂_map_left_iff, forall₂_map_right_iff, forall₂_same]
    intro x hx
    obtain ⟨id, name, hblock, heq⟩ := hcall x hx
    have hb : x.1 ∈ blocks :=
      mem_of_getElem? (mk_mem_zipIdx_iff_getElem?.mp (mem_filter.mp hx).1)
    refine ⟨_, heq, ?_⟩
    rw [call, hblock]
    exact ⟨rfl, rfl, (decode_marshal_iff hcodec x.1).mpr (h x.1 hb (mem_filter.mp hx).2)⟩

end Agree

/-- A codec that drops blanks. -/
def compactCodec : InputCodec String where
  decode text :=
    let compact := String.ofList (text.toList.filter (· ≠ ' '))
    if compact = "" then none else some compact
  marshal := id
  noInput := "\x7b\x7d"

theorem compactCodec_lawful : compactCodec.Lawful where
  decoded text v h := by
    simp only [compactCodec, Option.ite_none_left_eq_some, Option.some.injEq] at h ⊢
    obtain ⟨hne, rfl⟩ := h
    simpa [filter_filter] using hne
  noInput := by decide +kernel

def textThenTool : List MessageBlock :=
  [⟨.thinking, ["hm"]⟩, ⟨.text, ["Let me ", "look."]⟩,
    ⟨.toolUse "toolu_1" "search", ["\x7b\"q\": ", "1\x7d"]⟩]

end NomoApi
