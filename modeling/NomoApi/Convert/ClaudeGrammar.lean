import Mathlib.Data.List.Sublists
import NomoApi.Lib.Blocks
import NomoApi.Convert.OpenAI2Claude

/-! # The grammar of Claude streams

When one chunk of an OpenAI stream keeps to the grammar of Claude messages. `ClaudeConvertInfo`
describes the open blocks as an interval of numbers of one type (`Covered`). This is wrong when tool
calls are resumed after other content, and after a first chunk with several tool calls, of which
only one is started. -/

namespace NomoApi

open List Option Blocks StreamChunk

/-! ### The grammar -/

def ClaudeEvent.blockEvent : ClaudeEvent → Option (Event BlockKind)
  | .contentBlockStart i block => some (.start i block.kind)
  | .contentBlockDelta i delta => some (.part i delta.kind)
  | .contentBlockStop i => some (.stop i)
  | _ => none

open ClaudeEvent

def blockEvents (es : List ClaudeEvent) : List (Event BlockKind) :=
  es.filterMap blockEvent

structure GrammarState where
  begun : Bool := false
  ended : Bool := false
  blocks : State BlockKind := .init

/-- What is only allowed between `message_start` and `message_stop`. -/
def GrammarState.inside (g : GrammarState) (next : Option GrammarState) : Option GrammarState :=
  if g.begun && !g.ended then next else none

def GrammarState.onBlock (g : GrammarState) (e : Event BlockKind) : Option GrammarState :=
  (step g.blocks e).map fun blocks => { g with blocks }

/-- **One event**, refused when the grammar does not allow it. -/
def grammarStep (g : GrammarState) : ClaudeEvent → Option GrammarState
  | .messageStart _ _ _ => if g.begun then none else some { g with begun := true }
  | .messageDelta _ _ => g.inside (some g)
  | .messageStop => g.inside (some { g with ended := true })
  | .contentBlockStart i block => g.inside (g.onBlock (.start i block.kind))
  | .contentBlockDelta i delta => g.inside (g.onBlock (.part i delta.kind))
  | .contentBlockStop i => g.inside (g.onBlock (.stop i))

def grammarRun (g : GrammarState) : List ClaudeEvent → Option GrammarState
  | [] => some g
  | e :: es => (grammarStep g e).bind fun g => grammarRun g es

def FollowsGrammar (es : List ClaudeEvent) : Prop :=
  ∃ g, grammarRun {} es = some g ∧ g.begun = true ∧ g.blocks.Closed

def GrammarState.within (b : State BlockKind) : GrammarState := ⟨true, false, b⟩

def ClaudeEvent.Inner (e : ClaudeEvent) : Prop :=
  (∀ id model inputTokens, e ≠ .messageStart id model inputTokens) ∧ e ≠ .messageStop

theorem grammarRun_append (g : GrammarState) (es fs : List ClaudeEvent) :
    grammarRun g (es ++ fs) = (grammarRun g es).bind fun g => grammarRun g fs := by
  induction es generalizing g with
  | nil => rfl
  | cons e es ih =>
    rw [cons_append, grammarRun, grammarRun]
    cases grammarStep g e with
    | none => rfl
    | some g' => exact ih g'

theorem grammarRun_inner {es : List ClaudeEvent} (h : ∀ e ∈ es, e.Inner) (b : State BlockKind) :
    grammarRun (.within b) es = (Blocks.run b (blockEvents es)).map GrammarState.within := by
  induction es generalizing b with
  | nil => rfl
  | cons e es ih =>
    have hrest := fun b => ih (fun e he => h e (mem_cons_of_mem _ he)) b
    have hblock : ∀ be, e.blockEvent = some be →
        grammarStep (.within b) e = (step b be).map GrammarState.within := by
      intro be hbe
      cases e <;> simp only [blockEvent, reduceCtorEq, some.injEq] at hbe <;>
        subst hbe <;> rfl
    rw [grammarRun, blockEvents]
    cases hbe : e.blockEvent with
    | none =>
      -- only `message_delta` is left
      rw [filterMap_cons_none hbe]
      have hstep : grammarStep (.within b) e = some (.within b) := by
        obtain ⟨hstart, hstop⟩ := h e mem_cons_self
        cases e with
        | messageStart id model n => exact absurd rfl (hstart id model n)
        | messageStop => exact absurd rfl hstop
        | messageDelta _ _ => rfl
        | contentBlockStart _ _ => cases hbe
        | contentBlockDelta _ _ => cases hbe
        | contentBlockStop _ => cases hbe
      rw [hstep]
      exact hrest b
    | some be =>
      rw [filterMap_cons_some hbe, Blocks.run_cons, hblock be hbe]
      cases Blocks.step b be with
      | none => rfl
      | some b' => exact hrest b'

/-! ### Streams of chunks -/

variable (c : StreamChunk)

def StreamChunk.delta : ChunkDelta := (c.choices.head?.map (·.delta)).getD {}

def StreamChunk.finished : Option String :=
  c.choices.head?.bind ChunkChoice.finished

def StreamChunk.isFinished : Bool := c.finished.isSome

def StreamChunk.fragments : List (Nat × ToolCallFragment) :=
  fragmentsOf c.delta.toolCalls

inductive ChunkKind where
  | tools
  | content
  | empty
  deriving DecidableEq

def StreamChunk.kind : ChunkKind :=
  if c.delta.toolCalls ≠ [] then .tools
  else if c.delta.reasoning ≠ "" ∨ c.delta.content ≠ "" then .content
  else .empty

def ChunkDelta.OneKind (d : ChunkDelta) : Prop :=
  (d.toolCalls = [] ∨ d.reasoning = "" ∧ d.content = "") ∧ (d.reasoning = "" ∨ d.content = "")
deriving Decidable

/-- **The tool calls are numbered in the order of their first fragments**, `n` being known, and only
a first fragment has a name. -/
def ToolsInOrder : Nat → List (Nat × ToolCallFragment) → Prop
  | _, [] => True
  | n, (k, t) :: fs =>
    (k < n ∧ t.name = "" ∧ ToolsInOrder n fs) ∨ (k = n ∧ t.name ≠ "" ∧ ToolsInOrder (n + 1) fs)

instance ToolsInOrder.decidable : (n : Nat) → (fs : List (Nat × ToolCallFragment)) →
    Decidable (ToolsInOrder n fs)
  | _, [] => isTrue trivial
  | n, (k, t) :: fs =>
    have := ToolsInOrder.decidable n fs
    have := ToolsInOrder.decidable (n + 1) fs
    inferInstanceAs (Decidable ((k < n ∧ t.name = "" ∧ ToolsInOrder n fs) ∨
      (k = n ∧ t.name ≠ "" ∧ ToolsInOrder (n + 1) fs)))

variable (cs : List StreamChunk)

/-- **A stream of an OpenAI upstream.** -/
def ValidStream : Prop :=
  (∀ c ∈ cs, c.delta.OneKind) ∧ ToolsInOrder 0 (cs.flatMap fragments)

instance (cs : List StreamChunk) : Decidable (ValidStream cs) :=
  inferInstanceAs (Decidable (_ ∧ _))

def activeChunks : List StreamChunk → List StreamChunk
  | [] => []
  | c :: cs => if c.isFinished then [c] else c :: activeChunks cs

def Finishes : Prop := ∃ c ∈ cs, c.isFinished = true
deriving Decidable

/-- **The tool calls come in one piece**: no other content between two chunks of them. -/
def ToolsContiguous : Prop :=
  ¬ [ChunkKind.tools, .content, .tools].Sublist (cs.map kind)
deriving Decidable

def OnlyFirstTool : Prop := ∀ c ∈ cs, ∀ f ∈ c.fragments, f.1 = 0
deriving Decidable

/-- **The first chunk does not hide a tool call**: its fragments are of the first one, or no later
fragment is of another. -/
def FirstChunkComplete : Prop :=
  OnlyFirstTool (cs.take 1) ∨ OnlyFirstTool (cs.drop 1)
deriving Decidable

def StreamChunk.Silent : Prop :=
  c.kind ≠ .content ∧ ∀ f ∈ c.fragments, f.2.name = "" ∧ f.2.arguments = ""

/-- The kind of the last chunk that is not empty; `k` if there is none. -/
def lastKind (k : ChunkKind) (cs : List StreamChunk) : ChunkKind :=
  cs.foldl (fun k c => if c.kind = .empty then k else c.kind) k

/-- **A stream that is cut off while no block is open**: nothing has come yet, or tool calls are
resumed by silent chunks only. -/
def CutWhileClosed : Prop :=
  lastKind .empty cs = .empty ∨
    ∃ pre post, cs = pre ++ post ∧ (ToolsContiguous pre ∧ FirstChunkComplete pre) ∧
      lastKind .empty pre = .content ∧ (∀ c ∈ post, c.Silent) ∧ ∃ c ∈ post, c.kind = .tools

/-! ### The open blocks -/

def openFrom (info : ClaudeConvertInfo) : Nat :=
  match info.lastMessagesType with
  | .tools => info.toolCallBaseIndex
  | _ => info.index

def openCount (info : ClaudeConvertInfo) : Nat :=
  match info.lastMessagesType with
  | .none => 0
  | .tools => info.toolCallMaxIndexOffset + 1
  | _ => 1

def openKind (info : ClaudeConvertInfo) : BlockKind :=
  match info.lastMessagesType with
  | .thinking => .thinking
  | .tools => .toolUse
  | _ => .text

/-- **The state describes the open blocks.** -/
def Covered (info : ClaudeConvertInfo) (b : Blocks.State BlockKind) : Prop :=
  Blocks.Interval b (openFrom info) (openFrom info + openCount info) (openKind info)

section

variable (info : ClaudeConvertInfo)

theorem blockEvents_stopOpenBlocks :
    blockEvents (stopOpenBlocks info) = Blocks.stops (openFrom info) (openCount info) := by
  unfold stopOpenBlocks openFrom openCount
  cases info.lastMessagesType with
  | none => rfl
  | text => rfl
  | thinking => rfl
  | tools =>
    rw [blockEvents, filterMap_map, Blocks.stops, ← filterMap_eq_map]
    rfl

theorem advance_events : (stopOpenBlocksAndAdvance info).1 = stopOpenBlocks info := by
  unfold stopOpenBlocksAndAdvance stopOpenBlocks
  cases info.lastMessagesType <;> rfl

theorem advance_index :
    (stopOpenBlocksAndAdvance info).2.index = openFrom info + openCount info := by
  unfold stopOpenBlocksAndAdvance openFrom openCount
  cases info.lastMessagesType <;> rfl

@[simp] theorem advance_done : (stopOpenBlocksAndAdvance info).2.done = info.done := by
  unfold stopOpenBlocksAndAdvance
  cases info.lastMessagesType <;> rfl

end

variable {info : ClaudeConvertInfo} {b : Blocks.State BlockKind}

theorem Covered.advance (h : Covered info b) :
    ∃ b', Blocks.run b (blockEvents (stopOpenBlocks info)) = some b' ∧
      ∀ kind, Blocks.Interval b' (stopOpenBlocksAndAdvance info).2.index
        (stopOpenBlocksAndAdvance info).2.index kind := by
  obtain ⟨b', hrun, hb'⟩ := h.stops
  refine ⟨b', by rw [blockEvents_stopOpenBlocks, hrun], fun kind => ?_⟩
  rw [advance_index]
  exact hb'.restart le_rfl le_rfl kind

theorem blockEvents_append (es fs : List ClaudeEvent) :
    blockEvents (es ++ fs) = blockEvents es ++ blockEvents fs := List.filterMap_append ..

def ContentType (type : LastMessageType) (kind : BlockKind) : Prop :=
  (type = .text ∧ kind = .text) ∨ (type = .thinking ∧ kind = .thinking)

variable {kind : BlockKind}

theorem ContentType.covered_iff (h : ContentType info.lastMessagesType kind) :
    Covered info b ↔ Blocks.Interval b info.index (info.index + 1) kind := by
  rcases h with ⟨htype, rfl⟩ | ⟨htype, rfl⟩ <;>
    simp [Covered, openFrom, openCount, openKind, htype]

variable {type : LastMessageType}

theorem Covered.continueWithDelta (h : Covered info b) {block : ContentBlock} {delta : BlockDelta}
    (htype : ContentType type block.kind) (hkind : delta.kind = block.kind) :
    ∃ b', Blocks.run b (blockEvents (continueWithDelta block delta type info).1) = some b' ∧
      Covered (continueWithDelta block delta type info).2 b' := by
  unfold NomoApi.continueWithDelta
  split
  · -- a delta of another type: the open blocks are stopped, and the next one is started
    obtain ⟨b₁, hstop, hb₁⟩ := h.advance
    obtain ⟨b₂, hstart, hb₂⟩ := (hb₁ block.kind).start le_rfl
    have hpart := hb₂.part le_rfl (Nat.lt_succ_self _)
    refine ⟨b₂, ?_, ?_⟩
    · simp only [advance_events, blockEvents_append, Blocks.run_append, hstop, bind_some]
      simp [blockEvents, blockEvent, Blocks.run_cons, Blocks.run_nil, hstart, hkind,
        hpart]
    · exact (@ContentType.covered_iff { (stopOpenBlocksAndAdvance info).2 with
        lastMessagesType := type } _ _ htype).mpr hb₂
  · rename_i hlast
    push Not at hlast
    subst hlast
    refine ⟨b, ?_, h⟩
    have hpart := (htype.covered_iff.mp h).part le_rfl (Nat.lt_succ_self _)
    simp [blockEvents, blockEvent, Blocks.run_cons, Blocks.run_nil, hkind, hpart]

/-! ### The fragments of tool calls -/

def namedCount (fs : List (Nat × ToolCallFragment)) : Nat := fs.countP fun f => f.2.name ≠ ""

theorem namedCount_cons (k : Nat) (t : ToolCallFragment) (fs : List (Nat × ToolCallFragment)) :
    namedCount ((k, t) :: fs) = namedCount fs + if t.name = "" then 0 else 1 := by
  by_cases hname : t.name = "" <;> simp [namedCount, hname]

variable {n : Nat} {fs : List (Nat × ToolCallFragment)}

theorem toolsInOrder_append {gs : List (Nat × ToolCallFragment)} :
    ToolsInOrder n (fs ++ gs) ↔ ToolsInOrder n fs ∧ ToolsInOrder (n + namedCount fs) gs := by
  induction fs generalizing n with
  | nil => simp [ToolsInOrder, namedCount]
  | cons f fs ih =>
    obtain ⟨k, t⟩ := f
    simp only [cons_append, ToolsInOrder, ih, namedCount_cons]
    by_cases hname : t.name = ""
    · simp [hname, and_assoc]
    · simp [hname, and_assoc, Nat.add_assoc, Nat.add_comm 1]

def fragmentsEvents (base : Nat) (fs : List (Nat × ToolCallFragment)) : List ClaudeEvent :=
  fs.flatMap fun (offset, toolCall) => fragmentEvents (base + offset) toolCall

theorem blockEvents_fragmentEvents (i : Nat) (t : ToolCallFragment) :
    blockEvents (fragmentEvents i t) = (if t.name = "" then [] else [.start i .toolUse]) ++
        (if t.arguments = "" then [] else [.part i .toolUse]) := by
  rw [fragmentEvents, blockEvents_append]
  congr 1 <;> split <;> rfl

theorem run_arguments {lo hi i : Nat} (h : Blocks.Interval b lo hi .toolUse) (hlo : lo ≤ i)
    (hhi : i < hi) (arguments : String) :
    Blocks.run b (if arguments = "" then [] else [.part i .toolUse]) = some b := by
  split
  · rfl
  · rw [Blocks.run_cons, h.part hlo hhi]
    rfl

theorem blockEvents_fragmentsEvents (base : Nat) (fs : List (Nat × ToolCallFragment)) :
    blockEvents (fragmentsEvents base fs) =
      fs.flatMap fun f => blockEvents (fragmentEvents (base + f.1) f.2) := filterMap_flatMap ..

/-- **The fragments of tool calls in order** open the blocks one after the other. -/
theorem run_fragments {base : Nat} (h : Blocks.Interval b base (base + n) .toolUse)
    (horder : ToolsInOrder n fs) :
    ∃ b', Blocks.run b (blockEvents (fragmentsEvents base fs)) = some b' ∧
      Blocks.Interval b' base (base + (n + namedCount fs)) .toolUse := by
  induction fs generalizing b n with
  | nil => exact ⟨b, rfl, h⟩
  | cons f fs ih =>
    obtain ⟨k, t⟩ := f
    rw [blockEvents_fragmentsEvents, flatMap_cons, ← blockEvents_fragmentsEvents, Blocks.run_append,
      blockEvents_fragmentEvents]
    rcases horder with ⟨hk, hname, horder⟩ | ⟨rfl, hname, horder⟩
    · -- a further fragment of a tool call whose block is open
      obtain ⟨b', hrun, hb'⟩ := ih h horder
      refine ⟨b', ?_, by rwa [namedCount_cons, if_pos hname]⟩
      rw [if_pos hname, nil_append, run_arguments h (by omega) (by omega), bind_some, hrun]
    · -- the first fragment of the next tool call
      obtain ⟨b₁, hstart, hb₁⟩ := h.start (by omega)
      obtain ⟨b', hrun, hb'⟩ := ih (n := k + 1) hb₁ horder
      rw [Nat.add_right_comm, Nat.add_assoc k] at hb'
      refine ⟨b', ?_, by rwa [namedCount_cons, if_neg hname]⟩
      rw [if_neg hname, Blocks.run_append, Blocks.run_cons, hstart, bind_some,
        Blocks.run_nil, bind_some, run_arguments hb₁ (by omega) (by omega),
        bind_some, hrun]

theorem ToolsInOrder.le_of_name_ne (horder : ToolsInOrder n fs) :
    ∀ f ∈ fs, f.2.name ≠ "" → n ≤ f.1 := by
  induction fs generalizing n with
  | nil => simp
  | cons f fs ih =>
    rcases horder with ⟨-, hname, horder⟩ | ⟨hk, -, horder⟩
    · exact forall_mem_cons.mpr ⟨fun hne => absurd hname hne, ih horder⟩
    · exact forall_mem_cons.mpr ⟨fun _ => hk.ge, fun g hg hne => Nat.le_of_lt (ih horder g hg hne)⟩

theorem start_notMem_fragments {base h : Nat} (horder : ToolsInOrder n fs) (hh : h < base + n)
    (kind : BlockKind) : .start h kind ∉ blockEvents (fragmentsEvents base fs) := by
  rw [blockEvents_fragmentsEvents, mem_flatMap]
  rintro ⟨f, hf, hmem⟩
  simp only [blockEvents_fragmentEvents, mem_append, mem_ite_nil_left, mem_singleton,
    Event.start.injEq, reduceCtorEq, and_false, or_false] at hmem
  have hle := horder.le_of_name_ne f hf hmem.1
  omega

theorem ToolsInOrder.of_zero (horder : ToolsInOrder n fs) (hn : 0 < n)
    (hzero : ∀ f ∈ fs, f.1 = 0) : ToolsInOrder 1 fs ∧ namedCount fs = 0 := by
  induction fs with
  | nil => exact ⟨trivial, rfl⟩
  | cons f fs ih =>
    obtain ⟨k, t⟩ := f
    obtain ⟨hk, hzero⟩ := forall_mem_cons.mp hzero
    rcases horder with ⟨-, hname, horder⟩ | ⟨hkn, -, -⟩
    · obtain ⟨hone, hcount⟩ := ih horder hzero
      exact ⟨.inl ⟨by omega, hname, hone⟩, by rw [namedCount_cons, if_pos hname, hcount]⟩
    · omega

theorem offsets_of_namedCount_eq_zero (horder : ToolsInOrder 1 fs) (hcount : namedCount fs = 0) :
    ∀ f ∈ fs, f.1 = 0 := by
  induction fs with
  | nil => simp
  | cons f fs ih =>
    obtain ⟨k, t⟩ := f
    rcases horder with ⟨hlt, hname, horder⟩ | ⟨-, hname, -⟩
    · rw [namedCount_cons, if_pos hname] at hcount
      exact forall_mem_cons.mpr ⟨by simpa using hlt, ih horder hcount⟩
    · simp [namedCount_cons, hname] at hcount

theorem namedCount_pos (horder : ToolsInOrder 0 fs) (hne : fs ≠ []) : 0 < namedCount fs := by
  cases fs with
  | nil => exact absurd rfl hne
  | cons f fs =>
    obtain ⟨k, t⟩ := f
    rcases horder with ⟨hlt, -⟩ | ⟨-, hname, -⟩
    · omega
    · simp [namedCount_cons, hname]

variable {m : Nat}

theorem foldl_max_of_inOrder (horder : ToolsInOrder n fs)
    (hm : m + 1 = n ∨ (n = 0 ∧ m = 0 ∧ fs ≠ [])) :
    (fs.map Prod.fst).foldl max m + 1 = n + namedCount fs := by
  induction fs generalizing n m with
  | nil =>
    rcases hm with hm | ⟨-, -, hne⟩
    · exact hm
    · exact absurd rfl hne
  | cons f fs ih =>
    obtain ⟨k, t⟩ := f
    rw [map_cons, foldl_cons]
    rcases horder with ⟨hk, hname, horder⟩ | ⟨rfl, hname, horder⟩
    · have hmax : max m k = m := by omega
      rw [namedCount_cons, if_pos hname, hmax]
      exact ih horder (.inl (by omega))
    · have hmax : max m k = k := by omega
      rw [namedCount_cons, if_neg hname, hmax, Nat.add_comm (namedCount fs), ← Nat.add_assoc k]
      exact ih horder (.inl rfl)

theorem foldl_max_le_iff {j : Nat} {ks : List Nat} :
    ks.foldl max m ≤ j ↔ m ≤ j ∧ ∀ k ∈ ks, k ≤ j := by
  induction ks generalizing m with
  | nil => simp
  | cons k ks ih => simp only [foldl_cons, ih, Nat.max_le, forall_mem_cons, and_assoc]

theorem foldl_max_of_zero (hzero : ∀ f ∈ fs, f.1 = 0) : (fs.map Prod.fst).foldl max m = m := by
  refine le_antisymm (foldl_max_le_iff.mpr ⟨le_rfl, ?_⟩) (foldl_max_le_iff.mp le_rfl).1
  exact forall_mem_map.mpr fun f hf => (hzero f hf).trans_le m.zero_le

/-! ### One chunk -/

/-- **The state fits**: it describes the open blocks, and the `n` tool calls have a block each, or
only the first one has. -/
structure Fits (info : ClaudeConvertInfo) (b : Blocks.State BlockKind) (n : Nat) : Prop where
  covered : Covered info b
  done : info.done = false
  tools : info.lastMessagesType = .tools →
    0 < n ∧ (info.toolCallMaxIndexOffset + 1 = n ∨ info.toolCallMaxIndexOffset = 0)
  unopened : info.lastMessagesType = .none → n = 0

/-- **The state is wrong**: it describes a block that is not open and that no tool call will start.
-/
structure Doomed (info : ClaudeConvertInfo) (b : Blocks.State BlockKind) (n : Nat) : Prop where
  done : info.done = false
  tools : info.lastMessagesType = .tools
  hole : ∃ h, info.toolCallBaseIndex ≤ h ∧
    h ≤ info.toolCallBaseIndex + info.toolCallMaxIndexOffset ∧
    h < info.toolCallBaseIndex + n ∧ b.opened h = none

/-- **What a chunk gives is accepted**, and leaves a state that fits. -/
def Followed (b : Blocks.State BlockKind) (out : Converted) (n : Nat) : Prop :=
  ∃ b', Blocks.run b (blockEvents out.1) = some b' ∧ Fits out.2 b' n

/-- **What a chunk gives is refused**, or leaves a state that is wrong. -/
def Spoiled (b : Blocks.State BlockKind) (out : Converted) (n : Nat) : Prop :=
  ∀ b', Blocks.run b (blockEvents out.1) = some b' → Doomed out.2 b' n

/-- The tool calls of the chunk go on where their blocks are, or are the first ones. -/
def Continues (info : ClaudeConvertInfo) (n : Nat) (c : StreamChunk) : Prop :=
  c.kind = .tools →
    if info.lastMessagesType = .tools then
      info.toolCallMaxIndexOffset + 1 = n ∨ ∀ f ∈ c.fragments, f.1 = 0
    else n = 0

def startOffset (info : ClaudeConvertInfo) : Nat :=
  if info.lastMessagesType = .tools then info.toolCallMaxIndexOffset else 0

section

variable (toolCalls : List ToolCallFragment)

theorem convertToolCalls_state (info : ClaudeConvertInfo) :
    (convertToolCalls toolCalls info).2.lastMessagesType = .tools ∧
      (convertToolCalls toolCalls info).2.done = info.done ∧
      (convertToolCalls toolCalls info).2.toolCallMaxIndexOffset =
        ((fragmentsOf toolCalls).map Prod.fst).foldl max (startOffset info) := by
  by_cases htype : info.lastMessagesType = .tools
  · simp [convertToolCalls, startOffset, htype]
  · simp [convertToolCalls, startOffset, htype]

theorem convertToolCalls_of_tools (htype : info.lastMessagesType = .tools) :
    (convertToolCalls toolCalls info).1 =
        fragmentsEvents info.toolCallBaseIndex (fragmentsOf toolCalls) ∧
      (convertToolCalls toolCalls info).2.toolCallBaseIndex = info.toolCallBaseIndex := by
  simp [convertToolCalls, htype, fragmentsEvents]

theorem convertToolCalls_of_ne (htype : info.lastMessagesType ≠ .tools) :
    (convertToolCalls toolCalls info).1 = stopOpenBlocks info ++
        fragmentsEvents (stopOpenBlocksAndAdvance info).2.index (fragmentsOf toolCalls) ∧
      (convertToolCalls toolCalls info).2.toolCallBaseIndex =
        (stopOpenBlocksAndAdvance info).2.index := by
  simp [convertToolCalls, htype, fragmentsEvents, advance_events]

end

theorem covered_tools_iff (htype : info.lastMessagesType = .tools) :
    Covered info b ↔ Blocks.Interval b info.toolCallBaseIndex
      (info.toolCallBaseIndex + (info.toolCallMaxIndexOffset + 1)) .toolUse := by
  simp [Covered, openFrom, openCount, openKind, htype]

variable {c : StreamChunk}

theorem fragments_ne_nil (h : c.kind = .tools) : c.fragments ≠ [] := by
  intro hnil
  have htools : c.delta.toolCalls ≠ [] := by
    intro htools
    rw [kind, if_neg (by simp [htools])] at h
    split at h <;> cases h
  refine htools ?_
  simpa [fragments, fragmentsOf] using hnil

theorem Fits.tools_chunk (h : Fits info b n) (hkind : c.kind = .tools)
    (horder : ToolsInOrder n c.fragments) (hc : Continues info n c) :
    Followed b (convertToolCalls c.delta.toolCalls info) (n + namedCount c.fragments) := by
  obtain ⟨htype', hdone', hmax'⟩ := convertToolCalls_state c.delta.toolCalls info
  have hne := fragments_ne_nil hkind
  have hnone : (convertToolCalls c.delta.toolCalls info).2.lastMessagesType = .none →
      n + namedCount c.fragments = 0 := fun hn => absurd (htype'.symm.trans hn) (by simp)
  -- all tool calls have a block once the offsets have been counted up
  have hcounted : ∀ {b' : Blocks.State BlockKind} {base : Nat},
      (convertToolCalls c.delta.toolCalls info).2.toolCallBaseIndex = base →
      Blocks.Interval b' base (base + (n + namedCount c.fragments)) .toolUse →
      startOffset info + 1 = n ∨ (n = 0 ∧ startOffset info = 0 ∧ c.fragments ≠ []) →
      Fits (convertToolCalls c.delta.toolCalls info).2 b' (n + namedCount c.fragments) := by
    intro b' base hbase hb' hstart
    have hcount := foldl_max_of_inOrder horder hstart
    refine ⟨(covered_tools_iff htype').mpr ?_, hdone'.trans h.done, fun _ => ?_, hnone⟩
    · rw [hbase, hmax']
      exact hcount ▸ hb'
    · rw [hmax']
      exact ⟨hcount ▸ Nat.succ_pos _, .inl hcount⟩
  have hcont := hc hkind
  split at hcont
  · rename_i htype
    obtain ⟨hevents, hbase⟩ := convertToolCalls_of_tools c.delta.toolCalls htype
    have hstart : startOffset info = info.toolCallMaxIndexOffset := if_pos htype
    have hopen := (covered_tools_iff htype).mp h.covered
    obtain ⟨hpos, hone⟩ := h.tools htype
    by_cases hall : info.toolCallMaxIndexOffset + 1 = n
    · rw [hall] at hopen
      obtain ⟨b', hrun, hb'⟩ := run_fragments hopen horder
      -- all tool calls have a block, and the next one gets the next number
      exact ⟨b', hevents ▸ hrun, hcounted hbase hb' (.inl (hstart ▸ hall))⟩
    · -- only the first tool call has a block, and all fragments are of it
      have hzero := hcont.resolve_left hall
      have hfirst : info.toolCallMaxIndexOffset = 0 := hone.resolve_left hall
      rw [hfirst] at hopen
      obtain ⟨hordered, hnamed⟩ := horder.of_zero hpos hzero
      obtain ⟨b', hrun, hb'⟩ := run_fragments hopen hordered
      have hmax₀ : (convertToolCalls c.delta.toolCalls info).2.toolCallMaxIndexOffset = 0 := by
        rw [hmax', hstart, hfirst]
        exact foldl_max_of_zero hzero
      rw [hnamed] at hb' ⊢
      refine ⟨b', hevents ▸ hrun, (covered_tools_iff htype').mpr ?_, hdone'.trans h.done,
        fun _ => ⟨hpos, .inr hmax₀⟩, fun hn => absurd (htype'.symm.trans hn) (by simp)⟩
      rw [hbase, hmax₀]
      exact hb'
  · rename_i htype
    subst hcont
    obtain ⟨hevents, hbase⟩ := convertToolCalls_of_ne c.delta.toolCalls htype
    obtain ⟨b₁, hstop, hb₁⟩ := h.covered.advance
    -- the first tool calls of the message: their offsets count from the new base
    obtain ⟨b', hrun, hb'⟩ := run_fragments (hb₁ .toolUse) horder
    refine ⟨b', ?_, hcounted hbase hb' (.inr ⟨rfl, if_neg htype, hne⟩)⟩
    rw [hevents, blockEvents_append, Blocks.run_append, hstop, bind_some]
    exact hrun

/-- **A chunk of tool calls that does not continue** makes the grammar fail, or the state wrong. -/
theorem Fits.tools_chunk_doomed (h : Fits info b n) (horder : ToolsInOrder n c.fragments)
    (hc : ¬ Continues info n c) :
    Spoiled b (convertToolCalls c.delta.toolCalls info) (n + namedCount c.fragments) := by
  intro b' hrun
  obtain ⟨htype', hdone', hmax'⟩ := convertToolCalls_state c.delta.toolCalls info
  obtain ⟨hkind, hcont⟩ := Classical.not_imp.mp hc
  refine ⟨hdone'.trans h.done, htype', ?_⟩
  by_cases htype : info.lastMessagesType = .tools
  · -- only the first tool call has a block, and a fragment belongs to another one
    rw [if_pos htype, not_or] at hcont
    obtain ⟨hevents, hbase⟩ := convertToolCalls_of_tools c.delta.toolCalls htype
    obtain ⟨hpos, hone⟩ := h.tools htype
    have hzero : info.toolCallMaxIndexOffset = 0 := hone.resolve_left hcont.1
    have hopen := (covered_tools_iff htype).mp h.covered
    have hclosed : b.opened (info.toolCallBaseIndex + 1) = none := by
      rw [hopen.opened, if_neg (by omega)]
    obtain ⟨f, hf, hfne⟩ : ∃ f ∈ c.fragments, f.1 ≠ 0 := by
      have hsome := hcont.2
      push Not at hsome
      exact hsome
    have hle : f.1 ≤ (convertToolCalls c.delta.toolCalls info).2.toolCallMaxIndexOffset := by
      rw [hmax']
      exact (foldl_max_le_iff.mp le_rfl).2 _ (mem_map_of_mem hf)
    have hn : 1 < n := by
      have := hcont.1
      omega
    rw [hevents] at hrun
    refine ⟨info.toolCallBaseIndex + 1, by omega, by omega, by omega, ?_⟩
    exact Blocks.opened_of_run hrun hclosed (start_notMem_fragments horder (by omega))
  · -- the blocks are numbered anew, and the first number is left out
    rw [if_neg htype] at hcont
    obtain ⟨hevents, hbase⟩ := convertToolCalls_of_ne c.delta.toolCalls htype
    obtain ⟨b₁, hstop, hb₁⟩ := h.covered.advance
    rw [hevents, blockEvents_append, Blocks.run_append, hstop, bind_some] at hrun
    refine ⟨(stopOpenBlocksAndAdvance info).2.index, by omega, by omega, by omega, ?_⟩
    exact Blocks.opened_of_run hrun ((hb₁ .toolUse).closed le_rfl _)
      (start_notMem_fragments horder (by omega))

theorem Doomed.tools_chunk (h : Doomed info b n) (horder : ToolsInOrder n c.fragments) :
    Spoiled b (convertToolCalls c.delta.toolCalls info) (n + namedCount c.fragments) := by
  intro b' hrun
  obtain ⟨htype', hdone', hmax'⟩ := convertToolCalls_state c.delta.toolCalls info
  obtain ⟨hevents, hbase⟩ := convertToolCalls_of_tools c.delta.toolCalls h.tools
  obtain ⟨k, hlo, hhi, hknown, hclosed⟩ := h.hole
  -- the hole stays below the largest offset, and no known tool call is started again
  have hmax : info.toolCallMaxIndexOffset ≤
      (convertToolCalls c.delta.toolCalls info).2.toolCallMaxIndexOffset := by
    rw [hmax', startOffset, if_pos h.tools]
    exact (foldl_max_le_iff.mp le_rfl).1
  refine ⟨hdone'.trans h.done, htype', k, by omega, by omega, by omega, ?_⟩
  rw [hevents] at hrun
  exact Blocks.opened_of_run hrun hclosed (start_notMem_fragments horder (by omega))

theorem Doomed.run_stop (h : Doomed info b n) :
    Blocks.run b (blockEvents (stopOpenBlocks info)) = none := by
  obtain ⟨k, hlo, hhi, -, hclosed⟩ := h.hole
  have hfrom : openFrom info = info.toolCallBaseIndex := by simp only [openFrom, h.tools]
  have hcount : openCount info = info.toolCallMaxIndexOffset + 1 := by
    simp [openCount, h.tools]
  rw [blockEvents_stopOpenBlocks, hfrom, hcount]
  exact Blocks.run_stops_eq_none hlo (by omega) hclosed

/-! ### The delta of a chunk -/

/-- **What the delta of a chunk does**, by the kind of the chunk. -/
theorem convertDelta_cases (c : StreamChunk) (info : ClaudeConvertInfo) :
    (c.kind = .tools ∧ convertDelta c.delta info = convertToolCalls c.delta.toolCalls info) ∨
    (c.kind = .content ∧ c.fragments = [] ∧
      ∃ block delta type, ContentType type block.kind ∧ delta.kind = block.kind ∧
        convertDelta c.delta info = continueWithDelta block delta type info) ∨
    (c.kind = .empty ∧ c.fragments = [] ∧ convertDelta c.delta info = ([], info)) := by
  by_cases htools : c.delta.toolCalls ≠ []
  · exact .inl ⟨if_pos htools, if_pos htools⟩
  · have hkind : c.kind = if c.delta.reasoning ≠ "" ∨ c.delta.content ≠ "" then .content
        else .empty := if_neg htools
    have hfrag : c.fragments = [] := by
      rw [fragments, not_not.mp htools]
      rfl
    rw [hkind, convertDelta, if_neg htools]
    refine .inr ?_
    by_cases hreason : c.delta.reasoning ≠ ""
    · rw [if_pos (.inl hreason), if_pos hreason]
      exact .inl ⟨rfl, hfrag, .thinking, .thinkingDelta _, .thinking, .inr ⟨rfl, rfl⟩, rfl, rfl⟩
    · by_cases hcontent : c.delta.content ≠ ""
      · rw [if_pos (.inr hcontent), if_neg hreason, if_pos hcontent]
        exact .inl ⟨rfl, hfrag, .text, .textDelta _, .text, .inl ⟨rfl, rfl⟩, rfl, rfl⟩
      · rw [if_neg (not_or.mpr ⟨hreason, hcontent⟩), if_neg hreason, if_neg hcontent]
        exact .inr ⟨rfl, hfrag, rfl⟩

theorem continueWithDelta_state (block : ContentBlock) (delta : BlockDelta) (type : LastMessageType)
    (info : ClaudeConvertInfo) :
    (continueWithDelta block delta type info).2.lastMessagesType = type ∧
      (continueWithDelta block delta type info).2.done = info.done := by
  unfold continueWithDelta
  by_cases hlast : info.lastMessagesType ≠ type
  · simp [hlast]
  · rw [if_neg hlast]
    exact ⟨not_not.mp hlast, rfl⟩

theorem ContentType.ne_tools (h : ContentType type kind) : type ≠ .tools := by
  rcases h with ⟨rfl, -⟩ | ⟨rfl, -⟩ <;> simp

theorem ContentType.ne_none (h : ContentType type kind) : type ≠ .none := by
  rcases h with ⟨rfl, -⟩ | ⟨rfl, -⟩ <;> simp

theorem Fits.chunk (h : Fits info b n) (horder : ToolsInOrder n c.fragments)
    (hc : Continues info n c) :
    Followed b (convertDelta c.delta info) (n + namedCount c.fragments) := by
  rcases convertDelta_cases c info with
    ⟨hkind, heq⟩ | ⟨-, hfrag, block, delta, type, htype, hdelta, heq⟩ | ⟨-, hfrag, heq⟩
  · rw [heq]
    exact h.tools_chunk hkind horder hc
  · rw [heq, hfrag]
    obtain ⟨b', hrun, hb'⟩ := h.covered.continueWithDelta htype hdelta
    obtain ⟨htype', hdone'⟩ := continueWithDelta_state block delta type info
    refine ⟨b', hrun, hb', hdone'.trans h.done, fun htools => ?_, fun hnone => ?_⟩
    · exact absurd (htype'.symm.trans htools) htype.ne_tools
    · exact absurd (htype'.symm.trans hnone) htype.ne_none
  · rw [heq, hfrag]
    exact ⟨b, rfl, h⟩

/-- **Any other chunk** makes the grammar fail, or the state wrong. -/
theorem Fits.chunk_doomed (h : Fits info b n) (horder : ToolsInOrder n c.fragments)
    (hc : ¬ Continues info n c) :
    Spoiled b (convertDelta c.delta info) (n + namedCount c.fragments) := by
  have hkind : c.kind = .tools := (Classical.not_imp.mp hc).1
  rcases convertDelta_cases c info with ⟨-, heq⟩ | ⟨hkind', -⟩ | ⟨hkind', -⟩
  · rw [heq]
    exact h.tools_chunk_doomed horder hc
  · rw [hkind'] at hkind
    cases hkind
  · rw [hkind'] at hkind
    cases hkind

theorem Doomed.run_content (h : Doomed info b n) {block : ContentBlock} {delta : BlockDelta}
    (htype : type ≠ .tools) :
    Blocks.run b (blockEvents (continueWithDelta block delta type info).1) = none := by
  have hne : info.lastMessagesType ≠ type := by
    rw [h.tools]
    exact htype.symm
  simp [continueWithDelta, if_pos hne, advance_events, blockEvents_append, Blocks.run_append,
    h.run_stop]

theorem Doomed.chunk (h : Doomed info b n) (horder : ToolsInOrder n c.fragments) :
    Spoiled b (convertDelta c.delta info) (n + namedCount c.fragments) := by
  rcases convertDelta_cases c info with
    ⟨-, heq⟩ | ⟨-, -, block, delta, type, htype, -, heq⟩ | ⟨-, hfrag, heq⟩
  · rw [heq]
    exact h.tools_chunk horder
  · rw [heq]
    intro b' hrun
    rw [h.run_content htype.ne_tools] at hrun
    cases hrun
  · rw [heq, hfrag]
    rintro b' ⟨⟩
    exact h

end NomoApi
