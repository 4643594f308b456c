import TinyToken.ClaudeStream

/-! Whole responses between the two formats: `ResponseClaude2OpenAI` and `ResponseOpenAI2Claude`. -/
namespace ClaudeResponses

open ChatChunks (Usage joined joined_append)
open List

inductive BlockType where
  | text | thinking | toolUse | other
  deriving DecidableEq

/-- A block of a Claude response; `input` is the JSON text of the tool's input. -/
structure Block where
  type : BlockType
  text : Option String
  thinking : Option String
  id : String
  name : String
  input : String

structure ToolCall where
  id : String
  name : String
  arguments : String

structure ClaudeResponse where
  id : String
  model : String
  content : List Block
  stopReason : String

structure ConvertedChoice where
  id : String
  model : String
  content : String
  reasoningContent : Option String
  toolCalls : List ToolCall
  finishReason : String

def stopReasonClaude2OpenAI (stopReason : String) : String :=
  let lower := GoText.toLower stopReason
  if lower = "stop_sequence" ∨ lower = "end_turn" then "stop"
  else if lower = "max_tokens" then "length"
  else if lower = "tool_use" then "tool_calls"
  else if lower = "refusal" then "content_filter"
  else stopReason

structure Gathered where
  tools : List ToolCall
  thinkingContent : String
  responseText : String

def Block.getText (block : Block) : String := block.text.getD ""

def gatherBlock (gathered : Gathered) (block : Block) : Gathered :=
  match block.type with
  | .toolUse => { gathered with tools := gathered.tools ++ [⟨block.id, block.name, block.input⟩] }
  | .thinking =>
    match block.thinking with
    | some thinking => { gathered with thinkingContent := thinking }
    | none => gathered
  | .text => { gathered with responseText := block.getText }
  | .other => gathered

def responseClaude2OpenAI (response : ClaudeResponse) : ConvertedChoice :=
  let responseText := (response.content.head?.map Block.getText).getD ""
  let responseThinking := (response.content.head?.bind Block.thinking).getD ""
  let gathered := response.content.foldl gatherBlock ⟨[], "", responseText⟩
  { id := response.id
    model := response.model
    content := gathered.responseText
    reasoningContent :=
      if gathered.thinkingContent ≠ "" then some gathered.thinkingContent
      else if responseThinking ≠ "" then some responseThinking
      else none
    toolCalls := gathered.tools
    finishReason := stopReasonClaude2OpenAI response.stopReason }

inductive Content where
  | null
  | string (content : String)
  | parts (texts : List String)

def Content.stringContent : Content → String
  | .null => ""
  | .string content => content
  | .parts texts => joined texts

structure Choice where
  content : Content
  toolCalls : List ToolCall
  finishReason : String

structure OpenAIResponse where
  id : String
  model : String
  choices : List Choice
  usage : Usage

inductive Input where
  | object (encoded : String)
  | string (arguments : String)
  deriving DecidableEq

inductive ClaudeContent where
  | text (text : String)
  | toolUse (id name : String) (input : Input)
  deriving DecidableEq

structure ConvertedResponse where
  id : String
  model : String
  content : List ClaudeContent
  stopReason : String
  usage : ClaudeStream.ClaudeUsage

variable (unmarshal : String → Option String)

/-- `unmarshal` is `common.Unmarshal` into an object, encoded again. -/
def toolUseOf (toolCall : ToolCall) : ClaudeContent :=
  .toolUse toolCall.id toolCall.name
    (match unmarshal toolCall.arguments with
    | some encoded => .object encoded
    | none => .string toolCall.arguments)

def choiceContent (choice : Choice) : List ClaudeContent :=
  if choice.finishReason = "tool_calls" then choice.toolCalls.map (toolUseOf unmarshal)
  else [.text choice.content.stringContent]

variable (response : OpenAIResponse)

def responseOpenAI2Claude : ConvertedResponse where
  id := response.id
  model := response.model
  content := response.choices.flatMap (choiceContent unmarshal)
  stopReason := (response.choices.getLast?.map fun choice =>
    ClaudeStream.stopReasonOpenAI2Claude choice.finishReason).getD ""
  usage := ClaudeStream.buildClaudeUsageFromOpenAIUsage response.usage

def Block.text? (block : Block) : Option String :=
  if block.type = .text then some block.getText else none

def Block.thinking? (block : Block) : Option String :=
  if block.type = .thinking then block.thinking else none

def Block.toolCall? (block : Block) : Option ToolCall :=
  if block.type = .toolUse then some ⟨block.id, block.name, block.input⟩ else none

/-- The message holds all texts, all thoughts and every tool use of the blocks. -/
def ClaudeKept (response : ClaudeResponse) : Prop :=
  (responseClaude2OpenAI response).content = joined (response.content.filterMap Block.text?) ∧
  (responseClaude2OpenAI response).reasoningContent.getD "" =
    joined (response.content.filterMap Block.thinking?) ∧
  (responseClaude2OpenAI response).toolCalls = response.content.filterMap Block.toolCall?

/-- The content begins with the text of the first choice, if it has one, and each of its tool
calls; what follows is of the other choices. -/
def ChoiceKept (choice : Choice) (others : List Choice) : Prop :=
  ∃ own, (responseOpenAI2Claude unmarshal response).content =
      own ++ others.flatMap (choiceContent unmarshal) ∧
    own.filter (· ≠ .text "") =
      (if choice.content.stringContent = "" then [] else [.text choice.content.stringContent]) ++
        choice.toolCalls.map (toolUseOf unmarshal)

def OnlyLast (texts : List String) : Prop := ∀ text ∈ texts.dropLast, text = ""

instance (texts : List String) : Decidable (OnlyLast texts) :=
  inferInstanceAs (Decidable (∀ text ∈ texts.dropLast, text = ""))

/-- No text and no thought is replaced, and the first block has a text or a thought only if that
is its type. -/
structure OneEach (content : List Block) : Prop where
  texts : OnlyLast (content.filterMap Block.text?)
  thoughts : OnlyLast (content.filterMap Block.thinking?)
  firstText : ∀ block ∈ content.head?, block.type ≠ .text → block.getText = ""
  firstThought : ∀ block ∈ content.head?, block.type ≠ .thinking → block.thinking.getD "" = ""

theorem joined_of_onlyLast {texts : List String} (h : OnlyLast texts) :
    joined texts = texts.getLast?.getD "" := by
  rcases eq_nil_or_concat texts with rfl | ⟨before, last, rfl⟩
  · rfl
  · have hbefore : joined before = "" := by
      have hempty : ∀ text ∈ before, text = "" := by simpa [OnlyLast] using h
      clear h
      induction before with
      | nil => rfl
      | cons text rest ih =>
        rw [joined, hempty text mem_cons_self,
          ih fun t ht => hempty t (mem_cons_of_mem text ht), String.empty_append]
    simp [joined_append, hbefore]

theorem foldl_gatherBlock (gathered : Gathered) (content : List Block) :
    content.foldl gatherBlock gathered = ⟨gathered.tools ++ content.filterMap Block.toolCall?,
        (content.filterMap Block.thinking?).getLast?.getD gathered.thinkingContent,
        (content.filterMap Block.text?).getLast?.getD gathered.responseText⟩ := by
  induction content generalizing gathered with
  | nil => simp
  | cons block rest ih =>
    rw [foldl_cons, ih]
    cases htype : block.type with
    | toolUse => simp [gatherBlock, htype, Block.toolCall?, Block.thinking?, Block.text?]
    | other => simp [gatherBlock, htype, Block.toolCall?, Block.thinking?, Block.text?]
    | text =>
      simp [gatherBlock, htype, Block.toolCall?, Block.thinking?, Block.text?, getLast?_cons]
    | thinking =>
      cases hthinking : block.thinking <;>
        simp [gatherBlock, htype, hthinking, Block.toolCall?, Block.thinking?, Block.text?,
          getLast?_cons]

theorem claude_content_kept {response : ClaudeResponse} (h : OneEach response.content) :
    ClaudeKept response := by
  simp only [ClaudeKept, responseClaude2OpenAI, foldl_gatherBlock, nil_append]
  rw [joined_of_onlyLast h.texts, joined_of_onlyLast h.thoughts]
  refine ⟨?_, ?_, trivial⟩
  · -- without a text block the first block's text stands in
    cases hlast : (response.content.filterMap Block.text?).getLast? with
    | some text => rfl
    | none =>
      have hnone : response.content.filterMap Block.text? = [] := getLast?_eq_none_iff.mp hlast
      cases hcontent : response.content with
      | nil => rfl
      | cons block rest =>
        have htype : block.type ≠ .text := by
          intro htype
          simp [hcontent, Block.text?, htype] at hnone
        simpa using h.firstText block (by simp [hcontent]) htype
  · set thought := (response.content.filterMap Block.thinking?).getLast?.getD "" with hthought
    by_cases hempty : thought = ""
    · -- then no block has a thought, the first one included
      have hfirst : (response.content.head?.bind Block.thinking).getD "" = "" := by
        cases hcontent : response.content with
        | nil => rfl
        | cons block rest =>
          by_cases htype : block.type = .thinking
          · cases hthinking : block.thinking with
            | none => simp [hthinking]
            | some own =>
              have hall := joined_of_onlyLast h.thoughts
              rw [← hthought, hempty, hcontent] at hall
              have hparts : own ++ joined (rest.filterMap Block.thinking?) = "" := by
                simpa [Block.thinking?, htype, hthinking] using hall
              have hown : own = "" := by
                have hlength := congrArg String.length hparts
                simp only [String.length_append, String.length_empty] at hlength
                exact String.length_eq_zero_iff.mp (by omega)
              simp [hthinking, hown]
          · simpa using h.firstThought block (by simp [hcontent]) htype
      simp [hempty, hfirst]
    · simp [hempty]

theorem filter_choiceContent (choice : Choice) :
    (choiceContent unmarshal choice).filter (· ≠ .text "") =
      if choice.finishReason = "tool_calls" then choice.toolCalls.map (toolUseOf unmarshal)
      else if choice.content.stringContent = "" then [] else [.text choice.content.stringContent] := by
  by_cases hfinish : choice.finishReason = "tool_calls"
  · simp only [choiceContent, hfinish, if_true]
    rw [filter_eq_self]
    intro content hcontent
    obtain ⟨toolCall, -, rfl⟩ := mem_map.mp hcontent
    simp [toolUseOf]
  · by_cases hempty : choice.content.stringContent = "" <;> simp [choiceContent, hfinish, hempty]

theorem choice_kept_iff (choice : Choice) (others : List Choice)
    (h : response.choices = choice :: others) :
    ChoiceKept unmarshal response choice others ↔
      if choice.finishReason = "tool_calls" then choice.content.stringContent = ""
      else choice.toolCalls = [] := by
  have hcontent : (responseOpenAI2Claude unmarshal response).content =
      choiceContent unmarshal choice ++ others.flatMap (choiceContent unmarshal) := by
    simp [responseOpenAI2Claude, h]
  have hkept : ChoiceKept unmarshal response choice others ↔
      (choiceContent unmarshal choice).filter (· ≠ .text "") =
        (if choice.content.stringContent = "" then [] else [.text choice.content.stringContent]) ++
          choice.toolCalls.map (toolUseOf unmarshal) := by
    constructor
    · rintro ⟨own, hown, hitems⟩
      rw [hcontent] at hown
      rw [append_cancel_right hown]
      exact hitems
    · exact fun hitems => ⟨_, hcontent, hitems⟩
  rw [hkept, filter_choiceContent]
  by_cases hfinish : choice.finishReason = "tool_calls"
  · by_cases hempty : choice.content.stringContent = "" <;> simp [hfinish, hempty]
  · by_cases hempty : choice.content.stringContent = ""
    · simp [hfinish, hempty, eq_comm]
    · simp [hfinish, hempty]

/-- Both directions of the conversion. -/
theorem response_content_kept (unmarshal : String → Option String) :
    (∀ response : ClaudeResponse, OneEach response.content → ClaudeKept response) ∧
    ∀ (response : OpenAIResponse) (choice : Choice) (others : List Choice),
      response.choices = choice :: others →
      (ChoiceKept unmarshal response choice others ↔
        if choice.finishReason = "tool_calls" then choice.content.stringContent = ""
        else choice.toolCalls = []) :=
  ⟨fun _ h => claude_content_kept h, fun response choice others h =>
    choice_kept_iff unmarshal response choice others h⟩

def thoughtfulResponse : ClaudeResponse :=
  ⟨"msg_1", "claude-3", [⟨.thinking, none, some "Weather first.", "", "", "null"⟩,
    ⟨.text, some "I look it up.", none, "", "", "null"⟩,
    ⟨.toolUse, none, none, "toolu_1", "weather", "[]"⟩], "tool_use"⟩

def plainResponse : OpenAIResponse :=
  ⟨"chatcmpl-1", "gpt-4o", [⟨.string "Sunny.", [], "stop"⟩], ⟨7, 2, 0, 0, 0, 0⟩⟩

theorem sample_responses_kept : ClaudeKept thoughtfulResponse ∧
      ChoiceKept some plainResponse ⟨.string "Sunny.", [], "stop"⟩ [] := by
  refine ⟨(response_content_kept some).1 thoughtfulResponse ?_,
    ((response_content_kept some).2 plainResponse ⟨.string "Sunny.", [], "stop"⟩ [] rfl).mpr (by decide)⟩
  constructor <;> decide +kernel

/-- Of two text blocks only the second is kept, and of a text beside tool calls nothing. -/
theorem response_content_lost :
    ¬ ClaudeKept ⟨"msg_1", "claude-3", [⟨.text, some "Sunny.", none, "", "", "null"⟩,
      ⟨.text, some " Warm.", none, "", "", "null"⟩], "end_turn"⟩ ∧
    ¬ ChoiceKept some ⟨"chatcmpl-1", "gpt-4o",
        [⟨.string "I look it up.", [⟨"call_1", "weather", "[]"⟩], "tool_calls"⟩], ⟨7, 2, 0, 0, 0, 0⟩⟩
      ⟨.string "I look it up.", [⟨"call_1", "weather", "[]"⟩], "tool_calls"⟩ [] := by
  constructor
  · intro h
    have htext := h.1
    revert htext
    decide +kernel
  · rw [choice_kept_iff some _ _ [] rfl]
    decide

end ClaudeResponses
