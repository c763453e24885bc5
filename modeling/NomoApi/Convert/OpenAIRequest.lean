import Mathlib.Algebra.GroupWithZero.Nat
import NomoApi.Lib.Run
import NomoApi.Lib.Text

/-! # Requests for Claude

`RequestOpenAI2ClaudeMessage` turns the messages of a chat request into those of a Claude request,
in two loops: neighbours of one role are merged when both contents are strings, then system messages
are collected and tool results become blocks of user messages. Contents are text. -/

namespace NomoApi

open List

structure TextPart where
  text : String
  cacheControl : Option String := none
  deriving DecidableEq

inductive MessageContent
  | string (text : String)
  | parts (parts : List TextPart)
  deriving DecidableEq

structure ToolCallRequest where
  id : String
  name : String
  arguments : String
  deriving DecidableEq

/-- **`dto.Message`**; no tool calls are not an empty list of them. -/
structure RequestMessage where
  role : String
  content : Option MessageContent := none
  toolCallId : String := ""
  toolCalls : Option (List ToolCallRequest) := none
  deriving DecidableEq

/-- `StringContent`, when `IsStringContent`. -/
def RequestMessage.stringContent (m : RequestMessage) : Option String :=
  match m.content with
  | some (.string text) => some text
  | _ => none

def RequestMessage.parseContent (m : RequestMessage) : List TextPart :=
  match m.content with
  | some (.string text) => [{ text }]
  | some (.parts parts) => parts
  | none => []

theorem stringContent_eq_some {m : RequestMessage} {text : String} :
    m.stringContent = some text ↔ m.content = some (.string text) := by
  rw [RequestMessage.stringContent]
  split <;> simp_all

/-! ### Neighbours of one role -/

def RequestMessage.merges (last message : RequestMessage) : Option String :=
  if last.role = message.role ∧ last.role ≠ "tool" then
    match last.stringContent, message.stringContent with
    | some a, some b => some (a ++ " " ++ b)
    | _, _ => none
  else none

def RequestMessage.format (m : RequestMessage) (content : MessageContent) : RequestMessage where
  role := m.role
  content := some content
  toolCallId := if m.role = "tool" then m.toolCallId else ""
  toolCalls := if m.role = "assistant" then m.toolCalls else none

structure Formatting where
  formatMessages : List RequestMessage := []
  lastMessage : RequestMessage := { role := "tool" }

/-- **A message of the first loop.** The calls of the message before are not kept, and quotation
marks are cut off. -/
def Formatting.step (s : Formatting) (message : RequestMessage) : Formatting :=
  match s.lastMessage.merges message with
  | some text =>
    let fmtMessage := message.format (.string (trimOf '\x22' text))
    { formatMessages := s.formatMessages.dropLast ++ [fmtMessage], lastMessage := fmtMessage }
  | none =>
    let fmtMessage := message.format (message.content.getD (.string "..."))
    { formatMessages := s.formatMessages ++ [fmtMessage], lastMessage := fmtMessage }

/-! ### Messages for Claude -/

inductive RequestBlock (Input : Type)
  | text (part : TextPart)
  | toolUse (id name : String) (input : Input)
  | toolResult (toolUseId : String) (content : Option MessageContent)
  deriving DecidableEq

inductive ClaudeContent (Input : Type)
  | string (text : String)
  | media (blocks : List (RequestBlock Input))

variable {Input : Type}

def ClaudeContent.toBlocks : ClaudeContent Input → List (RequestBlock Input)
  | .string text => [.text { text }]
  | .media blocks => blocks

structure ClaudeMessage (Input : Type) where
  role : String
  content : ClaudeContent Input

structure ClaudeConversion (Input : Type) where
  claudeMessages : List (ClaudeMessage Input) := []
  isFirstMessage : Bool := true
  systemMessages : List TextPart := []

/-- The content of a message that is no tool result; `unmarshal` reads an object. -/
def RequestMessage.claudeContent (unmarshal : String → Option Input) (m : RequestMessage) :
    ClaudeContent Input :=
  match m.stringContent, m.toolCalls with
  | some text, none => .string text
  | _, toolCalls => .media (m.parseContent.map .text ++ (toolCalls.getD []).filterMap fun c =>
      (unmarshal c.arguments).map (.toolUse c.id c.name))

def appendResult (messages : List (ClaudeMessage Input)) (result : RequestBlock Input) :
    List (ClaudeMessage Input) :=
  match messages.getLast? with
  | some last =>
    if last.role = "user" then
      messages.dropLast ++ [{ last with content := .media (last.content.toBlocks ++ [result]) }]
    else messages ++ [⟨"user", .media [result]⟩]
  | none => messages ++ [⟨"user", .media [result]⟩]

variable (unmarshal : String → Option Input) (s : ClaudeConversion Input)

def ClaudeConversion.step (message : RequestMessage) : ClaudeConversion Input :=
  if message.role = "system" then
    { s with systemMessages := s.systemMessages ++ message.parseContent }
  else
    let messages :=
      if s.isFirstMessage = true ∧ message.role ≠ "user" then
        s.claudeMessages ++ [⟨"user", .media [.text { text := "..." }]⟩]
      else s.claudeMessages
    { s with
      isFirstMessage := false
      claudeMessages :=
        if message.role = "tool" then
          appendResult messages (.toolResult message.toolCallId message.content)
        else messages ++ [⟨message.role, message.claudeContent unmarshal⟩] }

def requestOpenAI2ClaudeMessage (messages : List RequestMessage) : ClaudeConversion Input :=
  run (ClaudeConversion.step unmarshal) {} (run Formatting.step {} messages).formatMessages

def ClaudeConversion.blocks : List (RequestBlock Input) :=
  s.claudeMessages.flatMap (·.content.toBlocks)

/-! ### What the messages say -/

def RequestMessage.calls (m : RequestMessage) : List ToolCallRequest :=
  if m.role = "assistant" then m.toolCalls.getD [] else []

def RequestMessage.filled (m : RequestMessage) : RequestMessage :=
  { m with content := some (m.content.getD (.string "...")) }

/-- **A message merged with the one before it**: the joined text and all tool calls. -/
def RequestMessage.joined (last message : RequestMessage) (text : String) : RequestMessage :=
  { message with content := some (.string text), toolCalls := some (last.calls ++ message.calls) }

/-- The messages after merging, `last` being the one before. -/
def joinAfter (last : RequestMessage) : List RequestMessage → List RequestMessage
  | [] => [last]
  | m :: ms =>
    match last.merges m with
    | some text => joinAfter (last.joined m text) ms
    | none => last :: joinAfter m.filled ms

/-- **The messages of a request, neighbours joined by one space.** -/
def joinNeighbours : List RequestMessage → List RequestMessage
  | [] => []
  | m :: ms => joinAfter m.filled ms

/-- What a message says; `input` is the object of a call's arguments. -/
def RequestMessage.blocks (input : String → Input) (m : RequestMessage) :
    List (RequestBlock Input) :=
  if m.role = "tool" then [.toolResult m.toolCallId m.content]
  else m.parseContent.map .text ++ m.calls.map fun c => .toolUse c.id c.name (input c.arguments)

/-- **Texts, tool calls and tool results are in the Claude request**, in their order, after a
placeholder at most. -/
def SaysAll (input : String → Input) (messages : List RequestMessage) : Prop :=
  let request := requestOpenAI2ClaudeMessage unmarshal messages
  let told := joinNeighbours messages
  request.systemMessages = (told.filter (·.role = "system")).flatMap (·.parseContent) ∧
    ∃ opening ∈ [[], [.text { text := "..." }]], request.blocks =
      opening ++ (told.filter (·.role ≠ "system")).flatMap (·.blocks input)

/-- Nothing is lost in a merge: the earlier message has no tool calls, and no quotation mark stands
at an end of the joined text. -/
def MergesWell (last : RequestMessage) : List RequestMessage → Prop
  | [] => True
  | m :: ms =>
    match last.merges m with
    | some text => last.calls = [] ∧ trimOf '\x22' text = text ∧ MergesWell (last.joined m text) ms
    | none => MergesWell m.filled ms

open RequestMessage RequestBlock

section Loops

variable {unmarshal : String → Option Input} {input : String → Input}

/-! ### The second loop -/

/-- **A message as the first loop leaves it**: only an assistant has calls, and they are read. -/
structure Readable (unmarshal : String → Option Input) (input : String → Input)
    (f : RequestMessage) : Prop where
  calls : f.toolCalls.getD [] = f.calls
  objects : ∀ c ∈ f.calls, unmarshal c.arguments = some (input c.arguments)

variable {f t m last : RequestMessage} {ms ts : List RequestMessage}

theorem blocks_appendResult (messages : List (ClaudeMessage Input)) (result : RequestBlock Input) :
    (appendResult messages result).flatMap (·.content.toBlocks) =
      messages.flatMap (·.content.toBlocks) ++ [result] := by
  rcases eq_nil_or_concat messages with rfl | ⟨init, last, rfl⟩
  · rfl
  · rw [appendResult, concat_eq_append, getLast?_concat]
    simp only [dropLast_concat]
    split <;> simp [ClaudeContent.toBlocks]

theorem Readable.toBlocks_claudeContent (h : Readable unmarshal input f) (htool : f.role ≠ "tool") :
    (f.claudeContent unmarshal).toBlocks = f.blocks input := by
  have hcalls : (f.toolCalls.getD []).filterMap (fun c =>
      (unmarshal c.arguments).map (toolUse c.id c.name)) =
      f.calls.map fun c => .toolUse c.id c.name (input c.arguments) := by
    rw [h.calls, ← filterMap_eq_map]
    exact filterMap_congr fun c hc => by rw [h.objects c hc]; rfl
  rw [blocks, if_neg htool, ← hcalls, claudeContent]
  split
  next text hstring hnone =>
    rw [hnone, parseContent, stringContent_eq_some.mp hstring]
    rfl
  · rfl

theorem Readable.blocks_next (h : Readable unmarshal input f)
    (messages : List (ClaudeMessage Input)) :
    (if f.role = "tool" then appendResult messages (.toolResult f.toolCallId f.content)
      else messages ++ [⟨f.role, f.claudeContent unmarshal⟩]).flatMap (·.content.toBlocks) =
      messages.flatMap (·.content.toBlocks) ++ f.blocks input := by
  by_cases htool : f.role = "tool"
  · rw [if_pos htool, blocks_appendResult, blocks, if_pos htool]
  · rw [if_neg htool, flatMap_append, flatMap_singleton, h.toBlocks_claudeContent htool]

structure ClaudeConversion.Said (input : String → Input) (s : ClaudeConversion Input)
    (ts : List RequestMessage) : Prop where
  system : s.systemMessages = (ts.filter (·.role = "system")).flatMap (·.parseContent)
  blocks : ∃ opening ∈ [[], [.text { text := "..." }]], s.blocks =
    opening ++ (ts.filter (·.role ≠ "system")).flatMap (·.blocks input)
  first : s.isFirstMessage = true → s.blocks = []

theorem ClaudeConversion.Said.step {s : ClaudeConversion Input} (h : s.Said input ts)
    (hf : Readable unmarshal input f) : (s.step unmarshal f).Said input (ts ++ [f]) := by
  obtain ⟨hsystem, ⟨opening, hopening, hblocks⟩, hfirst⟩ := h
  by_cases hrole : f.role = "system"
  · rw [ClaudeConversion.step, if_pos hrole]
    refine ⟨by simp [hsystem, hrole], ⟨opening, hopening, hblocks.trans ?_⟩, hfirst⟩
    simp [hrole]
  · rw [ClaudeConversion.step, if_neg hrole]
    refine ⟨by simp [hsystem, hrole], ?_, by simp⟩
    have hrest : ((ts ++ [f]).filter (·.role ≠ "system")).flatMap (·.blocks input) =
        (ts.filter (·.role ≠ "system")).flatMap (·.blocks input) ++ f.blocks input := by
      simp [hrole]
    rw [ClaudeConversion.blocks, hf.blocks_next, hrest]
    split
    next hopens =>
      -- nothing was said before the placeholder
      have hnone := hfirst hopens.1
      refine ⟨[.text { text := "..." }], by simp, ?_⟩
      rw [flatMap_append, ← ClaudeConversion.blocks, hnone]
      rw [hblocks, append_eq_nil_iff] at hnone
      rw [hnone.2]
      rfl
    · exact ⟨opening, hopening, by rw [← append_assoc, ← hblocks]; rfl⟩

/-- **The second loop** says what the messages of the first say. -/
theorem ClaudeConversion.Said.run {s : ClaudeConversion Input} {fs : List RequestMessage}
    (h : s.Said input ts) (hfs : ∀ f ∈ fs, Readable unmarshal input f) :
    (run (ClaudeConversion.step unmarshal) s fs).Said input (ts ++ fs) := by
  induction fs generalizing s ts with
  | nil => rwa [append_nil]
  | cons f fs ih =>
    obtain ⟨hf, hfs⟩ := forall_mem_cons.mp hfs
    rw [append_cons]
    exact ih (h.step hf) hfs

/-! ### The first loop -/

/-- The length of a text, and one for a tool call. -/
def RequestBlock.size : RequestBlock Input → Nat
  | .text part => part.text.length
  | .toolUse .. => 1
  | .toolResult .. => 0

def RequestBlock.isText : RequestBlock Input → Bool
  | .text _ => true
  | _ => false

def RequestMessage.size (input : String → Input) (m : RequestMessage) : Nat :=
  ((m.blocks input).map RequestBlock.size).sum

/-- **A message of the first loop says no more than what it stands for**, in as many texts, and the
same if it says as much. -/
structure Lossy (unmarshal : String → Option Input) (input : String → Input)
    (f t : RequestMessage) : Prop where
  own : Readable unmarshal input f
  role : f.role = t.role
  string : f.stringContent.isSome = t.stringContent.isSome
  texts : (f.blocks input).countP isText = (t.blocks input).countP isText
  size : f.size input ≤ t.size input
  same : f.size input = t.size input → f.content = t.content ∧ f.blocks input = t.blocks input

theorem merges_eq_some {text : String} : t.merges m = some text ↔
    (t.role = m.role ∧ t.role ≠ "tool") ∧
      ∃ a b, t.stringContent = some a ∧ m.stringContent = some b ∧ a ++ " " ++ b = text := by
  rw [merges]
  split
  next h =>
    rw [and_iff_right h]
    cases t.stringContent <;> cases m.stringContent <;> simp
  next h => simp [h]

theorem Lossy.merges_eq_none (h : Lossy unmarshal input f t) (hnone : t.merges m = none) :
    f.merges m = none := by
  refine Option.eq_none_iff_forall_ne_some.mpr fun text hsome => ?_
  obtain ⟨⟨hrole, htool⟩, a, b, ha, hb, -⟩ := merges_eq_some.mp hsome
  obtain ⟨c, hc⟩ := Option.isSome_iff_exists.mp (h.string.symm.trans (by rw [ha]; rfl))
  have := merges_eq_some.mpr ⟨⟨h.role ▸ hrole, h.role ▸ htool⟩, c, b, hc, hb, rfl⟩
  rw [hnone] at this
  cases this

theorem blocks_string {text : String} (hrole : t.role ≠ "tool")
    (htext : t.stringContent = some text) : t.blocks input =
      .text { text } :: t.calls.map fun c => .toolUse c.id c.name (input c.arguments) := by
  rw [blocks, if_neg hrole, parseContent,
    stringContent_eq_some.mp htext]
  rfl

variable (input) in
theorem texts_string {text : String} (hrole : t.role ≠ "tool")
    (htext : t.stringContent = some text) :
    (t.blocks input).countP isText = 1 ∧
      t.size input = text.length + t.calls.length := by
  have hcalls : (t.calls.map fun c => (toolUse c.id c.name
      (input c.arguments))).countP isText = 0 := by
    simp [countP_eq_zero, isText]
  rw [RequestMessage.size, blocks_string hrole htext, countP_cons, hcalls]
  exact ⟨rfl, by simp [RequestBlock.size, Function.comp_def]⟩

theorem calls_format (m : RequestMessage) (content : MessageContent) :
    (m.format content).calls = m.calls := by
  by_cases hrole : m.role = "assistant" <;>
    simp [calls, RequestMessage.format, hrole]

theorem calls_joined (hrole : t.role = m.role) (text : String) :
    (t.joined m text).calls = t.calls ++ m.calls := by
  by_cases hassistant : m.role = "assistant" <;>
    simp [calls, joined, hassistant, hrole]

theorem blocks_filled (m : RequestMessage) :
    (m.format (m.content.getD (.string "..."))).blocks input = m.filled.blocks input := by
  by_cases htool : m.role = "tool"
  · simp [blocks, RequestMessage.format, filled, htool]
  · rw [blocks, blocks, calls_format]
    exact (if_neg htool).trans (if_neg htool).symm

theorem size_filled (m : RequestMessage) :
    (m.format (m.content.getD (.string "..."))).size input = m.filled.size input := by
  rw [RequestMessage.size, RequestMessage.size, blocks_filled]

section

variable (hm : ∀ c ∈ m.calls, unmarshal c.arguments = some (input c.arguments))

include hm

theorem readable_format (content : MessageContent) :
    Readable unmarshal input (m.format content) where
  calls := by
    by_cases hassistant : m.role = "assistant" <;>
      simp [RequestMessage.format, calls, hassistant]
  objects := by rwa [calls_format]

theorem lossy_filled : Lossy unmarshal input (m.format (m.content.getD (.string "..."))) m.filled :=
  ⟨readable_format hm _, rfl, rfl, by rw [blocks_filled], (size_filled m).le,
    fun _ => ⟨rfl, blocks_filled m⟩⟩

/-- **A merge** loses the calls of the earlier message, quotation marks and what was lost before. -/
theorem Lossy.merge {a b c : String} (h : Lossy unmarshal input f t)
    (hrole : t.role = m.role ∧ t.role ≠ "tool") (ha : f.stringContent = some a)
    (hb : t.stringContent = some b) :
    Lossy unmarshal input (m.format (.string (trimOf '\x22' (a ++ " " ++ c))))
        (t.joined m (b ++ " " ++ c)) ∧
      ((m.format (.string (trimOf '\x22' (a ++ " " ++ c)))).size input =
          (t.joined m (b ++ " " ++ c)).size input ↔
        f.size input = t.size input ∧ t.calls = [] ∧
          trimOf '\x22' (b ++ " " ++ c) = b ++ " " ++ c) := by
  have hm' : m.role ≠ "tool" := hrole.1 ▸ hrole.2
  have hf := (texts_string input (h.role.trans_ne hrole.2) ha).2
  have ht := (texts_string input hrole.2 hb).2
  obtain ⟨hf₁, hf'⟩ := texts_string input
    (t := m.format (.string (trimOf '\x22' (a ++ " " ++ c)))) hm' rfl
  obtain ⟨ht₁, ht'⟩ := texts_string input (t := t.joined m (b ++ " " ++ c)) hm' rfl
  rw [calls_format] at hf'
  rw [calls_joined hrole.1, length_append] at ht'
  have hsub : (trimOf '\x22' (a ++ " " ++ c)).toList.Sublist (a ++ " " ++ c).toList := by
    rw [trimOf, String.toList_ofList]
    exact ( rdropWhile_prefix _ _).sublist.trans (dropWhile_suffix _).sublist
  have hle := hsub.length_le
  have hsize := h.size
  have hlength (x : String) : (x ++ " " ++ c).length = x.length + 1 + c.length := by
    rw [String.length_append, String.length_append]
    rfl
  simp only [String.length_toList, hlength] at hle ht'
  have heq (hsame : f.size input = t.size input) : a = b := by
    rw [RequestMessage.stringContent, (h.same hsame).1] at ha
    exact Option.some.inj (ha.symm.trans hb)
  have hiff : (m.format (.string (trimOf '\x22' (a ++ " " ++ c)))).size input =
      (t.joined m (b ++ " " ++ c)).size input ↔ f.size input = t.size input ∧ t.calls = [] ∧
        trimOf '\x22' (b ++ " " ++ c) = b ++ " " ++ c := by
    constructor
    · intro hsizes
      have hsame : f.size input = t.size input := by omega
      obtain rfl := heq hsame
      refine ⟨hsame, length_eq_zero_iff.mp (by omega), ?_⟩
      refine String.toList_inj.mp (hsub.eq_of_length ?_)
      simp only [String.length_toList, hlength]
      omega
    · rintro ⟨hsame, hcalls, htrim⟩
      obtain rfl := heq hsame
      rw [hf', ht', htrim, hlength, hcalls, length_nil]
      omega
  refine ⟨⟨readable_format hm _, rfl, rfl, hf₁.trans ht₁.symm, by omega, fun hsizes => ?_⟩, hiff⟩
  obtain ⟨hsame, hcalls, htrim⟩ := hiff.mp hsizes
  obtain rfl := heq hsame
  refine ⟨congrArg (some ∘ MessageContent.string) htrim, ?_⟩
  rw [blocks_string (t := m.format _) hm' rfl, blocks_string (t := t.joined m _) hm' rfl, htrim,
    calls_format, calls_joined hrole.1, hcalls, nil_append]

end

theorem size_flatMap (ts : List RequestMessage) :
    ((ts.flatMap (blocks input)).map RequestBlock.size).sum =
      (ts.map (·.size input)).sum := by
  induction ts with
  | nil => rfl
  | cons t ts ih => simp [ih, RequestMessage.size]

section

variable {fs : List RequestMessage} (h : List.Forall₂ (Lossy unmarshal input) fs ts)

include h

theorem lossy_total : (fs.map (·.size input)).sum ≤ (ts.map (·.size input)).sum ∧
      (fs.flatMap (blocks input)).countP isText =
        (ts.flatMap (blocks input)).countP isText ∧
      ∀ f ∈ fs, Readable unmarshal input f := by
  induction h with
  | nil => exact ⟨le_rfl, rfl, nofun⟩
  | cons h _ ih =>
    obtain ⟨hsize, htexts, hown⟩ := ih
    simp only [map_cons, sum_cons, flatMap_cons, countP_append]
    exact ⟨Nat.add_le_add h.size hsize, by rw [h.texts, htexts], forall_mem_cons.mpr ⟨h.own, hown⟩⟩

theorem lossy_same (hsum : (fs.map (·.size input)).sum = (ts.map (·.size input)).sum) :
    (fs.filter (·.role = "system")).flatMap (·.parseContent) =
        (ts.filter (·.role = "system")).flatMap (·.parseContent) ∧
      (fs.filter (·.role ≠ "system")).flatMap (·.blocks input) =
        (ts.filter (·.role ≠ "system")).flatMap (·.blocks input) := by
  induction h with
  | nil => exact ⟨rfl, rfl⟩
  | @cons f t fs ts h hrest ih =>
    simp only [map_cons, sum_cons] at hsum
    have hsize := h.size
    have hle := (lossy_total hrest).1
    obtain ⟨hsystem, hblocks⟩ := ih (by omega)
    obtain ⟨hcontent, hown⟩ := h.same (by omega)
    by_cases hrole : t.role = "system" <;>
      simp_all [h.role, parseContent]

end

/-- **The first loop** says no more than the joined messages, and as much iff no merge loses
anything. -/
theorem lossy_run {s : Formatting} {done : List RequestMessage}
    (hs : s.formatMessages = done ++ [s.lastMessage])
    (hlast : Lossy unmarshal input s.lastMessage last)
    (hms : ∀ m ∈ ms, ∀ c ∈ m.calls, unmarshal c.arguments = some (input c.arguments)) :
    ∃ fs, (run Formatting.step s ms).formatMessages = done ++ fs ∧
      List.Forall₂ (Lossy unmarshal input) fs (joinAfter last ms) ∧
      ((fs.map (·.size input)).sum = ((joinAfter last ms).map (·.size input)).sum ↔
        s.lastMessage.size input = last.size input ∧ MergesWell last ms) := by
  induction ms generalizing s done last with
  | nil => exact ⟨[s.lastMessage], hs, .cons hlast .nil, by simp [MergesWell, joinAfter]⟩
  | cons m ms ih =>
    obtain ⟨hm, hms⟩ := forall_mem_cons.mp hms
    rw [run_cons, Formatting.step, joinAfter, MergesWell]
    cases hmerge : last.merges m with
    | some text =>
      obtain ⟨hrole, b, c, hb, hc, rfl⟩ := merges_eq_some.mp hmerge
      obtain ⟨a, ha⟩ := Option.isSome_iff_exists.mp (hlast.string.trans (by rw [hb]; rfl))
      rw [merges_eq_some.mpr ⟨hlast.role ▸ hrole, a, c, ha, hc, rfl⟩]
      simp only [hs, dropLast_concat]
      obtain ⟨hnext, hsame⟩ := hlast.merge hm (c := c) hrole ha hb
      obtain ⟨fs, hfs, hall, hsum⟩ := ih (s := ⟨done ++ [m.format _], m.format _⟩) rfl hnext hms
      refine ⟨fs, hfs, hall, hsum.trans ?_⟩
      rw [hsame, and_assoc, and_assoc]
    | none =>
      rw [hlast.merges_eq_none hmerge]
      obtain ⟨fs, hfs, hall, hsum⟩ := ih (s := ⟨s.formatMessages ++ [m.format _], m.format _⟩) rfl
        (lossy_filled hm) hms
      refine ⟨s.lastMessage :: fs, by simpa [hs] using hfs, .cons hlast hall, ?_⟩
      rw [and_iff_right (size_filled m)] at hsum
      have hsize := hlast.size
      have hle := (lossy_total hall).1
      simp only [map_cons, sum_cons, ← hsum]
      omega

/-- All that a Claude request says, the system texts among it. -/
theorem said_perm {system : List TextPart} {said opening : List (RequestBlock Input)}
    (hsystem : system = (ts.filter (·.role = "system")).flatMap (·.parseContent))
    (hsaid : said = opening ++ (ts.filter (·.role ≠ "system")).flatMap (·.blocks input)) :
    (system.map RequestBlock.text ++ said).Perm
      (opening ++ ts.flatMap (blocks input)) := by
  have hsys : system.map RequestBlock.text =
      (ts.filter (·.role = "system")).flatMap (·.blocks input) := by
    rw [hsystem, map_flatMap]
    refine flatMap_congr fun m hm => ?_
    have hrole : m.role = "system" := by simpa using (mem_filter.mp hm).2
    simp [blocks, calls, hrole]
  have hsplit : ((ts.filter (·.role = "system")) ++ ts.filter (·.role ≠ "system")).Perm ts := by
    simpa using filter_append_perm (fun m : RequestMessage => decide (m.role = "system")) ts
  rw [hsys, hsaid]
  refine perm_append_comm_assoc _ _ _ |>.trans (Perm.append_left _ ?_)
  rw [← flatMap_append]
  exact hsplit.flatMap_right _

end Loops

/-- **Nothing is lost** in any merge. -/
def LosesNothing : List RequestMessage → Prop
  | [] => True
  | m :: ms => MergesWell m.filled ms

/-- **The Claude request says all that the messages say** exactly if nothing is lost in a merge. -/
theorem requestOpenAI2ClaudeMessage_saysAll_iff {unmarshal : String → Option Input}
    {input : String → Input} {messages : List RequestMessage}
    (hobjects : ∀ m ∈ messages, ∀ c ∈ m.calls, unmarshal c.arguments = some (input c.arguments)) :
    SaysAll unmarshal input messages ↔ LosesNothing messages := by
  have hstart : ({} : ClaudeConversion Input).Said input [] :=
    ⟨rfl, ⟨[], by simp, rfl⟩, fun _ => rfl⟩
  cases messages with
  | nil => exact iff_of_true ⟨rfl, [], by simp, rfl⟩ trivial
  | cons m ms =>
    obtain ⟨hm, hms⟩ := forall_mem_cons.mp hobjects
    -- the first message is merged with none
    have hfirst : merges { role := "tool" } m = none := by
      simp [merges]
    rw [SaysAll, requestOpenAI2ClaudeMessage, run_cons, Formatting.step, hfirst, LosesNothing,
      joinNeighbours]
    obtain ⟨fs, hfs, hall, hsum⟩ := lossy_run (s := ⟨[m.format _], m.format _⟩)
      (nil_append _).symm (lossy_filled hm) hms
    rw [nil_append] at hfs
    subst hfs
    obtain ⟨-, htexts, hown⟩ := lossy_total hall
    obtain ⟨hsystem, ⟨opening, hopening, hblocks⟩, -⟩ := hstart.run hown
    rw [and_iff_right (size_filled m)] at hsum
    rw [← hsum]
    constructor
    · rintro ⟨hsystem', opening', hopening', hblocks'⟩
      have hperm := (said_perm hsystem hblocks).symm.trans (said_perm hsystem' hblocks')
      rw [nil_append] at hperm
      -- as many texts are said, so both have the placeholder or none
      have hcount := hperm.countP_eq isText
      rw [countP_append, countP_append, htexts, Nat.add_right_cancel_iff] at hcount
      obtain rfl : opening = opening' := by
        rcases mem_pair.mp hopening with rfl | rfl <;>
          rcases mem_pair.mp hopening' with rfl | rfl <;> simp [isText] at hcount ⊢
      have hsizes := ((perm_append_left_iff _).mp hperm).map RequestBlock.size |>.sum_nat
      rwa [size_flatMap, size_flatMap] at hsizes
    · intro hsizes
      obtain ⟨hsystem', hblocks'⟩ := lossy_same hall hsizes
      rw [nil_append, hblocks'] at hblocks
      exact ⟨hsystem.trans hsystem', opening, hopening, hblocks⟩

def sampleToolCall : ToolCallRequest := { id := "call_1", name := "f", arguments := "\x7b\x7d" }

theorem requestOpenAI2ClaudeMessage_saysAll_sample :
    let messages : List RequestMessage := [
      { role := "system", content := some (.string "s") },
      { role := "user", content := some (.string "a") },
      { role := "user", content := some (.string "b") },
      { role := "assistant", content := none, toolCalls := some [sampleToolCall] },
      { role := "tool", content := some (.string "r"), toolCallId := "call_1" }]
    SaysAll some id messages ∧ (joinNeighbours messages).length = 4 := by
  intro messages
  have hobjects : ∀ m ∈ messages, ∀ c ∈ m.calls, some c.arguments = some (id c.arguments) :=
    fun _ _ _ _ => rfl
  have hmerges : LosesNothing messages := by
    have htrim : trimOf '\x22' "a b" = "a b" := by decide +kernel
    simp [messages, LosesNothing, MergesWell, merges, filled,
      RequestMessage.stringContent, joined, calls, htrim]
  exact ⟨(requestOpenAI2ClaudeMessage_saysAll_iff hobjects).mpr hmerges, by decide +kernel⟩

/-- **What a merge loses**: the tool calls of the earlier message, quotation marks around the
text. -/
theorem requestOpenAI2ClaudeMessage_loses : ¬ SaysAll some id [
      { role := "assistant", content := some (.string "a"), toolCalls := some [sampleToolCall] },
      { role := "assistant", content := some (.string "b") }] ∧
    ¬ SaysAll some id [
      { role := "user", content := some (.string "\"a\"") },
      { role := "user", content := some (.string "b") }] := by
  unfold SaysAll
  decide +kernel

end NomoApi
