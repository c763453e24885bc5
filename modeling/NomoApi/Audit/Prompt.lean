import NomoApi.Lib.Text

/-! # The prompt that is audited

`ExtractPromptFromRequest` (`audit/middleware.go`) takes the audited text from the last message of
the user that has text: all its parts, in the Responses format only the first. -/

namespace NomoApi

open List

/-- **An item of a content**; `content` has the texts of a tool result, be it a text or a list. -/
structure ContentItem where
  type : Option String
  text : Option String := none
  content : List String := []

/-- **A content**: a text, a list of items, or what cannot be read as either. -/
inductive AuditContent
  | text (s : String)
  | items (l : List ContentItem)
  | other

/-- The text parts: of all items, or of those with the type of a text. -/
def AuditContent.parts (anyType : Bool) : AuditContent → List String
  | .text s => [s]
  | .items l => l.filterMap fun i => if anyType ∨ i.type = some "text" then i.text else none
  | .other => []

inductive AuditRequest
  | openAI (messages : List (String × AuditContent))
  | claude (messages : List (String × AuditContent))
  | gemini (contents : List (String × List String))
  | responsesText (input : String)
  | responses (messages : List (String × AuditContent))

open AuditRequest

def stringContent (parts : List String) : String := .join parts

/-- `extractClaudeMessageContent` and `extractGeminiParts`: the non-empty parts, one a line. -/
def joinParts (parts : List String) : String := "\n".intercalate (parts.filter (· ≠ ""))

/-- The characters that fit into a number of bytes. -/
def takeBytes : Nat → List Char → List Char
  | _, [] => []
  | n, c :: cs => if c.utf8Size ≤ n then c :: takeBytes (n - c.utf8Size) cs else []

/-- The first 200 bytes; of a character that they cut through nothing is kept. -/
def toolSummary (s : String) : String :=
  if s.utf8ByteSize > 200 then .ofList (takeBytes 200 s.toList) ++ "..." else s

def extractClaudeToolResultContent : AuditContent → String
  | .items l => joinParts (((l.filter (·.type = some "tool_result")).flatMap (·.content)).map
      toolSummary)
  | _ => ""

/-- `extractResponsesInput`: the first part that is not empty. -/
def firstPart (parts : List String) : String := (parts.find? (· ≠ "")).getD ""

section

variable {β : Type}

def lastUserText (text : β → String) (messages : List (String × β)) : Option String :=
  messages.reverse.findSome? fun m =>
    if m.1 = "user" ∧ text m.2 ≠ "" then some (text m.2) else none

def lastText (text : β → String) (messages : List (String × β)) : String :=
  (messages.getLast?.map fun m => text m.2).getD ""

/-- Without a message with text, a Claude request gives its last tool results. -/
def extractPromptFromRequest : AuditRequest → String
  | .openAI messages =>
    let text := fun c => stringContent (AuditContent.parts false c)
    (lastUserText text messages).getD (lastText text messages)
  | .claude messages =>
    (lastUserText (fun c => joinParts (c.parts false)) messages).getD
      (((lastUserText extractClaudeToolResultContent messages).map ("[tool_result] " ++ ·)).getD "")
  | .gemini contents => (lastUserText joinParts contents).getD (lastText joinParts contents)
  | .responsesText input => input
  | .responses messages =>
    (lastUserText (fun c => firstPart (c.parts true)) messages).getD ""

/-! ### The last message of the user -/

def HasText (parts : List String) : Prop := ∃ t ∈ parts, t ≠ ""
deriving Decidable

def lastUser (parts : β → List String) (messages : List (String × β)) : Option (List String) :=
  messages.reverse.findSome? fun m =>
    if m.1 = "user" ∧ HasText (parts m.2) then some (parts m.2) else none

/-- **The text parts of the last message of the user that has text.** -/
def AuditRequest.lastUserParts : AuditRequest → Option (List String)
  | .openAI messages | .claude messages => lastUser (AuditContent.parts false) messages
  | .gemini contents => lastUser id contents
  | .responsesText input => if input = "" then none else some [input]
  | .responses messages => lastUser (AuditContent.parts true) messages

theorem lastUserText_eq {f : List String → String} (hf : ∀ ps, f ps ≠ "" ↔ HasText ps)
    (parts : β → List String) (messages : List (String × β)) :
    lastUserText (fun c => f (parts c)) messages = (lastUser parts messages).map f := by
  unfold lastUserText lastUser
  rw [map_findSome?]
  congr 1
  funext m
  simp only [hf, Function.comp_apply]
  split <;> rfl

end

/-! ### What the text contains -/

variable {sep t : String} {parts : List String}

theorem infix_intercalate {sep l : List Char} {ls : List (List Char)} (h : l ∈ ls) :
    l <:+: sep.intercalate ls := by
  induction ls with
  | nil => cases h
  | cons p ps ih =>
    cases ps with
    | nil =>
      rw [intercalate_singleton, mem_singleton.mp h]
    | cons q ps =>
      rw [intercalate_cons_cons, append_assoc]
      rcases mem_cons.mp h with rfl | h
      · exact (prefix_append ..).isInfix
      · rw [← append_assoc]
        exact (ih h).trans (suffix_append ..).isInfix

theorem contains_intercalate (h : t ∈ parts) : contains (sep.intercalate parts) t = true := by
  rw [contains, String.toList_intercalate]
  exact decide_eq_true (infix_intercalate (mem_map_of_mem h))

theorem ne_of_hasText {f : List String → String}
    (hf : ∀ t ∈ parts, contains (f parts) t = true) (h : HasText parts) : f parts ≠ "" := by
  obtain ⟨t, ht, hne⟩ := h
  intro hempty
  have hsub := of_decide_eq_true (hf t ht)
  rw [hempty] at hsub
  exact hne (String.toList_eq_nil_iff.mp (infix_nil.mp hsub))

theorem contains_joinParts (h : t ∈ parts) : contains (joinParts parts) t = true := by
  by_cases hempty : t = ""
  · rw [hempty]
    exact decide_eq_true nil_infix
  · exact contains_intercalate (mem_filter.mpr ⟨h, by simpa using hempty⟩)

theorem joinParts_ne (parts : List String) : joinParts parts ≠ "" ↔ HasText parts := by
  refine ⟨fun h => ?_, ne_of_hasText fun _ => contains_joinParts⟩
  by_contra hnone
  have hfilter : parts.filter (· ≠ "") = [] := by
    simpa [HasText, filter_eq_nil_iff] using hnone
  rw [joinParts, hfilter] at h
  exact h rfl

theorem contains_stringContent (h : t ∈ parts) : contains (stringContent parts) t = true := by
  rw [contains, stringContent, String.toList_join]
  exact decide_eq_true (infix_of_mem_flatten (mem_map_of_mem h))

theorem stringContent_ne (parts : List String) : stringContent parts ≠ "" ↔ HasText parts := by
  refine ⟨fun h => ?_, ne_of_hasText fun _ => contains_stringContent⟩
  by_contra hnone
  refine h (String.toList_eq_nil_iff.mp ?_)
  rw [stringContent, String.toList_join]
  simpa [HasText] using hnone

theorem firstPart_ne (parts : List String) : firstPart parts ≠ "" ↔ HasText parts := by
  unfold firstPart HasText
  cases h : parts.find? (· ≠ "") with
  | none => simpa using h
  | some t =>
    have ht := find?_some h
    exact iff_of_true (by simpa using ht) ⟨t, mem_of_find?_eq_some h, by simpa using ht⟩

/-- **The condition**: the first part of a Responses message with text contains the others. -/
def AuditRequest.FirstIsWhole : AuditRequest → List String → Prop
  | .responses _, parts => ∀ t ∈ parts, contains (firstPart parts) t = true
  | _, _ => True

/-- **The prompt contains all text of the last message of the user with text**: in the Responses
format iff its first part does. -/
theorem prompt_contains_iff {req : AuditRequest} (h : req.lastUserParts = some parts) :
    (∀ t ∈ parts, contains (extractPromptFromRequest req) t = true) ↔
      req.FirstIsWhole parts := by
  cases req with
  | openAI messages =>
    rw [lastUserParts] at h
    rw [extractPromptFromRequest, lastUserText_eq stringContent_ne, h]
    exact iff_of_true (fun _ => contains_stringContent) trivial
  | claude messages =>
    rw [lastUserParts] at h
    rw [extractPromptFromRequest, lastUserText_eq joinParts_ne, h]
    exact iff_of_true (fun _ => contains_joinParts) trivial
  | gemini contents =>
    rw [lastUserParts] at h
    have heq : lastUserText joinParts contents = (lastUser id contents).map joinParts :=
      lastUserText_eq joinParts_ne id contents
    rw [extractPromptFromRequest, heq, h]
    exact iff_of_true (fun _ => contains_joinParts) trivial
  | responsesText input =>
    rw [lastUserParts] at h
    split at h
    · cases h
    · cases h
      simp [extractPromptFromRequest, FirstIsWhole, contains]
  | responses messages =>
    rw [lastUserParts] at h
    rw [extractPromptFromRequest, lastUserText_eq firstPart_ne, h]
    rfl

def twoParts : List (String × AuditContent) :=
  [("user", .items [⟨some "input_text", some "hello", []⟩, ⟨some "input_text", some "bomb", []⟩])]

theorem prompt_contains_gemini : ["hello", "", "bomb"].all fun t => contains
      (extractPromptFromRequest (.gemini [("user", ["hello", "", "bomb"])])) t :=
  all_eq_true.mpr ((prompt_contains_iff (by decide)).mpr trivial)

/-- **The second part of a message in the Responses format is not scanned.** -/
theorem prompt_misses_second_part : (responses twoParts).lastUserParts = some ["hello", "bomb"] ∧
      contains (extractPromptFromRequest (.responses twoParts)) "bomb" = false := by
  decide

end NomoApi
