import TinyToken.ChatChunks
import TinyToken.EmittingMachines
import TinyToken.GoText

/-! A chat completion stream sent on as a stream of Claude events: `StreamResponseOpenAI2Claude`
turns one chunk into events, `OaiStreamHandler` feeds it all chunks, each one when the next has
arrived and the last one at the end. -/
namespace ClaudeStream

open ChatChunks EmittingMachines

structure ClaudeUsage where
  inputTokens : ℤ
  outputTokens : ℤ
  cacheCreationInputTokens : ℤ
  cacheReadInputTokens : ℤ
  cacheCreation : Option (ℤ × ℤ)

inductive ContentBlock where
  | text
  | thinking
  | toolUse (id name : String)

inductive BlockDelta where
  | text (text : String)
  | thinking (thinking : String)
  | inputJson (partialJson : String)

inductive Event where
  | messageStart (id model : String) (inputTokens : ℤ)
  | blockStart (index : ℤ) (block : ContentBlock)
  | blockDelta (index : ℤ) (delta : BlockDelta)
  | blockStop (index : ℤ)
  | messageDelta (usage : ClaudeUsage) (stopReason : String)
  | messageStop

def normalizeCacheCreationSplit (totalTokens tokens5m tokens1h : ℤ) : ℤ × ℤ :=
  (tokens5m + max (totalTokens - tokens5m - tokens1h) 0, tokens1h)

def buildClaudeUsageFromOpenAIUsage (oaiUsage : Usage) : ClaudeUsage :=
  let split := normalizeCacheCreationSplit oaiUsage.cachedCreationTokens
    oaiUsage.claudeCacheCreation5mTokens oaiUsage.claudeCacheCreation1hTokens
  ⟨oaiUsage.promptTokens, oaiUsage.completionTokens, oaiUsage.cachedCreationTokens,
    oaiUsage.cachedTokens, if split.1 > 0 ∨ split.2 > 0 then some split else none⟩

def stopReasonOpenAI2Claude (reason : String) : String :=
  let lower := GoText.toLower reason
  if lower = "stop" then "end_turn"
  else if lower = "stop_sequence" then "stop_sequence"
  else if lower = "length" ∨ lower = "max_tokens" then "max_tokens"
  else if lower = "content_filter" then "refusal"
  else if lower = "tool_calls" then "tool_use"
  else reason

inductive LastMessageType where
  | none | text | tools | thinking
  deriving DecidableEq

/-- `ClaudeConvertInfo`, and the fields of `RelayInfo` that are read with it. -/
structure ConvertInfo where
  lastMessagesType : LastMessageType
  index : ℤ
  usage : Option Usage
  finishReason : String
  done : Bool
  toolCallBaseIndex : ℤ
  toolCallMaxIndexOffset : ℤ
  sendResponseCount : ℕ
  estimatePromptTokens : ℤ

def initial (estimatePromptTokens : ℤ) : ConvertInfo :=
  ⟨.none, 0, none, "", false, 0, 0, 0, estimatePromptTokens⟩

abbrev Step := Emit ConvertInfo Event

def stopOpenBlocks : Step := fun info =>
  match info.lastMessagesType with
  | .none => ([], info)
  | .text | .thinking => ([.blockStop info.index], info)
  | .tools =>
    -- the loop from offset 0 to the largest one
    ((List.range (info.toolCallMaxIndexOffset + 1).toNat).map fun (offset : ℕ) =>
      .blockStop (info.toolCallBaseIndex + offset), info)

def stopOpenBlocksAndAdvance : Step := fun info =>
  match info.lastMessagesType with
  | .none => ([], info)
  | .tools =>
    ((stopOpenBlocks info).1, { info with
        index := info.toolCallBaseIndex + info.toolCallMaxIndexOffset + 1
        toolCallBaseIndex := 0
        toolCallMaxIndexOffset := 0
        lastMessagesType := .none })
  | .text | .thinking =>
    ((stopOpenBlocks info).1, { info with index := info.index + 1, lastMessagesType := .none })

/-- Closes the message: the open blocks, usage if there is one, and the end. -/
def finishMessage (oaiUsage : Option Usage) (stopReason : ConvertInfo → String) : Step :=
  andThen stopOpenBlocks fun info =>
    ((match oaiUsage with
      | some usage => [.messageDelta (buildClaudeUsageFromOpenAIUsage usage) (stopReason info)]
      | none => []) ++ [.messageStop], { info with done := true })

def leaveFor (type : LastMessageType) : Step := fun info =>
  if info.lastMessagesType ≠ type then stopOpenBlocksAndAdvance info else ([], info)

def openBlock (type : LastMessageType) (block : ContentBlock) : Step := fun info =>
  ([.blockStart info.index block], { info with lastMessagesType := type })

def switchTo (type : LastMessageType) (block : ContentBlock) : Step := fun info =>
  if info.lastMessagesType ≠ type then
    andThen stopOpenBlocksAndAdvance (openBlock type block) info
  else ([], info)

def emitDelta (delta : BlockDelta) : Step := fun info => ([.blockDelta info.index delta], info)

def emitMessageStart (chunk : Chunk) : Step := fun info =>
  ([.messageStart chunk.id chunk.model info.estimatePromptTokens], info)

def startFirstToolCall : List ToolCall → Step
  | [] => emit []
  | toolCall :: _ => fun info =>
    (.blockStart 0 (.toolUse toolCall.id toolCall.name) ::
        (if toolCall.arguments ≠ "" then [.blockDelta 0 (.inputJson toolCall.arguments)] else []),
      { info with lastMessagesType := .tools, toolCallBaseIndex := 0, toolCallMaxIndexOffset := 0 })

/-- Text of the first chunk, always in a block that it opens: reasoning, or else content. -/
def emitFirstText (delta : Delta) : Step :=
  if delta.getReasoningContent ≠ "" then
    andThen (leaveFor .thinking) (andThen (openBlock .thinking .thinking)
      (emitDelta (.thinking delta.getReasoningContent)))
  else if delta.getContentString ≠ "" then
    andThen (leaveFor .text) (andThen (openBlock .text .text)
      (emitDelta (.text delta.getContentString)))
  else emit []

def finishFirst (chunk : Chunk) (choice : Choice) : Step := fun info =>
  match choice.finish with
  | some reason =>
    finishMessage (chunk.usage <|> info.usage) (fun info => stopReasonOpenAI2Claude info.finishReason)
      { info with finishReason := reason }
  | none => ([], info)

def convertFirst (chunk : Chunk) : Step :=
  andThen (emitMessageStart chunk)
    (match chunk.choices with
    | [] => emit []
    | choice :: _ => andThen (startFirstToolCall choice.delta.toolCalls)
        (andThen (emitFirstText choice.delta) (finishFirst chunk choice)))

def convertUsageOnly (chunk : Chunk) : Step := fun info =>
  match chunk.usage <|> info.usage with
  | some usage =>
    finishMessage (some usage) (fun info =>
      let stopReason := stopReasonOpenAI2Claude info.finishReason
      if stopReason = "" then "end_turn" else stopReason) info
  | none => ([], info)

def offsetOf (toolCall : ToolCall) (position : ℕ) : ℤ := toolCall.index.getD position

def emitToolCall (base : ℤ) (toolCall : ToolCall) (position : ℕ) : List Event :=
  let blockIndex := base + offsetOf toolCall position
  (if toolCall.name ≠ "" then [.blockStart blockIndex (.toolUse toolCall.id toolCall.name)] else []) ++
    (if toolCall.arguments ≠ "" then [.blockDelta blockIndex (.inputJson toolCall.arguments)] else [])

def emitToolCallsFrom (base : ℤ) : List ToolCall → ℕ → ℤ → List Event × ℤ
  | [], _, maxOffset => ([], maxOffset)
  | toolCall :: rest, position, maxOffset =>
    let later := emitToolCallsFrom base rest (position + 1) (max maxOffset (offsetOf toolCall position))
    (emitToolCall base toolCall position ++ later.1, later.2)

def enterTools : Step := fun info =>
  if info.lastMessagesType ≠ .tools then
    andThen stopOpenBlocksAndAdvance (fun info =>
      ([], { info with
        toolCallBaseIndex := info.index
        toolCallMaxIndexOffset := 0
        lastMessagesType := .tools })) info
  else ([], info)

def emitToolCalls (toolCalls : List ToolCall) : Step :=
  andThen enterTools fun info =>
    let emitted := emitToolCallsFrom info.toolCallBaseIndex toolCalls 0 info.toolCallMaxIndexOffset
    (emitted.1, { info with
      toolCallMaxIndexOffset := emitted.2
      index := info.toolCallBaseIndex + emitted.2 })

def emitText (delta : Delta) : Step :=
  if delta.getReasoningContent ≠ "" then
    andThen (switchTo .thinking .thinking) (emitDelta (.thinking delta.getReasoningContent))
  else if delta.getContentString ≠ "" then
    andThen (switchTo .text .text) (emitDelta (.text delta.getContentString))
  else emit []

def emitContent (delta : Delta) : Step :=
  if delta.toolCalls ≠ [] then emitToolCalls delta.toolCalls else emitText delta

def convertChoice (chunk : Chunk) (choice : Choice) : Step := fun info =>
  match choice.finish with
  | some reason =>
    match chunk.usage with
    -- the end is left to a later chunk, and so is what this one holds
    | none => ([], { info with finishReason := reason })
    | some usage =>
      andThen (emitContent choice.delta)
        (finishMessage (some usage) fun info => stopReasonOpenAI2Claude info.finishReason)
        { info with finishReason := reason }
  | none => emitContent choice.delta info

def streamResponseOpenAI2Claude (chunk : Chunk) : Step := fun info =>
  if info.done then ([], info)
  else if info.sendResponseCount = 1 then convertFirst chunk info
  else
    match chunk.choices with
    | [] => convertUsageOnly chunk info
    | choice :: _ => convertChoice chunk choice info

/-- `HandleStreamFormat` for a Claude client. -/
def handleStreamFormat (chunk : Chunk) : Step := fun info =>
  streamResponseOpenAI2Claude chunk
    { info with
      sendResponseCount := info.sendResponseCount + 1
      usage := chunk.usage <|> info.usage }

/-- `HandleFinalResponse`: the chunk is not counted. -/
def handleFinalResponse (usage : Usage) (chunk : Chunk) : Step := fun info =>
  let converted := streamResponseOpenAI2Claude chunk { info with usage := some usage }
  (converted.1, { converted.2 with done := true })

/-- `OaiStreamHandler`: the events of a stream, with the usage it ends up with. -/
def oaiStreamHandler (estimatePromptTokens : ℤ) (usage : Usage) (chunks : List Chunk) : List Event :=
  match chunks.getLast? with
  | none => []
  | some last =>
    (andThen (emitAll handleStreamFormat chunks.dropLast) (handleFinalResponse usage last)
      (initial estimatePromptTokens)).1

section Frames

variable {info : ConvertInfo}

@[simp] theorem state_stopOpenBlocks : (stopOpenBlocks info).2 = info := by
  unfold stopOpenBlocks
  cases info.lastMessagesType <;> rfl

@[simp] theorem state_finishMessage (usage : Option Usage) (reason : ConvertInfo → String) :
    (finishMessage usage reason info).2 = { info with done := true } := by
  simp [finishMessage, andThen]

theorem state_emitText (delta : Delta) :
    (emitText delta info).2 = info ∨ (emitText delta info).2.lastMessagesType ≠ .tools := by
  have hswitch : ∀ type block, type ≠ LastMessageType.tools → (switchTo type block info).2 = info ∨
        (switchTo type block info).2.lastMessagesType ≠ .tools := by
    intro type block htype
    unfold switchTo
    split
    · exact .inr htype
    · exact .inl rfl
  unfold emitText
  split
  · exact hswitch .thinking .thinking (by decide)
  · split
    · exact hswitch .text .text (by decide)
    · exact .inl rfl

theorem state_enterTools : (enterTools info).2.lastMessagesType = .tools ∧
    (info.lastMessagesType = .tools → (enterTools info).2 = info) := by
  unfold enterTools
  split
  case isTrue h => exact ⟨rfl, fun he => absurd he h⟩
  case isFalse h => exact ⟨not_not.mp h, fun _ => rfl⟩

end Frames

def KeepsCount (f : Step) : Prop := ∀ info, (f info).2.sendResponseCount = info.sendResponseCount

theorem KeepsCount.andThen {f g : Step} (hf : KeepsCount f) (hg : KeepsCount g) :
    KeepsCount (andThen f g) := fun info => (hg (f info).2).trans (hf info)

theorem keepsCount_emit (events : List Event) : KeepsCount (emit events) := fun _ => rfl

theorem keepsCount_stopOpenBlocksAndAdvance : KeepsCount stopOpenBlocksAndAdvance := by
  intro info
  unfold stopOpenBlocksAndAdvance
  split <;> rfl

theorem keepsCount_finishMessage (usage : Option Usage) (reason : ConvertInfo → String) :
    KeepsCount (finishMessage usage reason) := by
  intro info
  rw [state_finishMessage]

theorem keepsCount_leaveFor (type : LastMessageType) : KeepsCount (leaveFor type) := by
  intro info
  unfold leaveFor
  split
  · exact keepsCount_stopOpenBlocksAndAdvance info
  · rfl

theorem keepsCount_switchTo (type : LastMessageType) (block : ContentBlock) :
    KeepsCount (switchTo type block) := by
  intro info
  unfold switchTo
  split
  · exact keepsCount_stopOpenBlocksAndAdvance info
  · rfl

theorem keepsCount_emitFirstText (delta : Delta) : KeepsCount (emitFirstText delta) := by
  unfold emitFirstText
  split
  · exact (keepsCount_leaveFor _).andThen fun _ => rfl
  · split
    · exact (keepsCount_leaveFor _).andThen fun _ => rfl
    · exact keepsCount_emit []

theorem keepsCount_startFirstToolCall (toolCalls : List ToolCall) :
    KeepsCount (startFirstToolCall toolCalls) := by
  intro info
  cases toolCalls <;> rfl

variable (chunk : Chunk)

theorem keepsCount_finishFirst (choice : Choice) : KeepsCount (finishFirst chunk choice) := by
  intro info
  unfold finishFirst
  split
  · exact keepsCount_finishMessage _ _ _
  · rfl

theorem keepsCount_convertFirst : KeepsCount (convertFirst chunk) := by
  refine KeepsCount.andThen (fun _ => rfl) ?_
  split
  · exact keepsCount_emit []
  · exact (keepsCount_startFirstToolCall _).andThen
      ((keepsCount_emitFirstText _).andThen (keepsCount_finishFirst _ _))

theorem keepsCount_emitToolCalls (toolCalls : List ToolCall) :
    KeepsCount (emitToolCalls toolCalls) := by
  intro info
  change (enterTools info).2.sendResponseCount = _
  unfold enterTools
  split
  · exact keepsCount_stopOpenBlocksAndAdvance info
  · rfl

theorem keepsCount_emitContent (delta : Delta) : KeepsCount (emitContent delta) := by
  unfold emitContent emitText
  split
  · exact keepsCount_emitToolCalls _
  · split
    · exact (keepsCount_switchTo _ _).andThen fun _ => rfl
    · split
      · exact (keepsCount_switchTo _ _).andThen fun _ => rfl
      · exact keepsCount_emit []

theorem keepsCount_streamResponseOpenAI2Claude :
    KeepsCount (streamResponseOpenAI2Claude chunk) := by
  intro info
  unfold streamResponseOpenAI2Claude
  split
  · rfl
  · split
    · exact keepsCount_convertFirst chunk info
    · split
      · unfold convertUsageOnly
        split
        · exact keepsCount_finishMessage _ _ _
        · rfl
      · unfold convertChoice
        split
        · split
          · rfl
          · exact ((keepsCount_emitContent _).andThen (keepsCount_finishMessage _ _)) _
        · exact keepsCount_emitContent _ _

@[simp] theorem count_handleStreamFormat (info : ConvertInfo) :
    (handleStreamFormat chunk info).2.sendResponseCount = info.sendResponseCount + 1 :=
  keepsCount_streamResponseOpenAI2Claude chunk _

theorem count_handleStreamFormat_pos (info : ConvertInfo) :
    1 ≤ (handleStreamFormat chunk info).2.sendResponseCount := by
  rw [count_handleStreamFormat]
  exact Nat.le_add_left 1 _

def counted (chunk : Chunk) (info : ConvertInfo) : ConvertInfo :=
  { info with
    sendResponseCount := info.sendResponseCount + 1
    usage := chunk.usage <|> info.usage }

theorem handleStreamFormat_later {chunk : Chunk} {info : ConvertInfo} (hdone : info.done = false)
    (hcount : 1 ≤ info.sendResponseCount) :
    handleStreamFormat chunk info = match chunk.choices with
      | [] => convertUsageOnly chunk (counted chunk info)
      | choice :: _ => convertChoice chunk choice (counted chunk info) := by
  have hnotFirst : (counted chunk info).sendResponseCount ≠ 1 := by
    simp only [counted]
    omega
  change streamResponseOpenAI2Claude chunk (counted chunk info) = _
  rw [streamResponseOpenAI2Claude, if_neg (by simp [counted, hdone]), if_neg hnotFirst]

end ClaudeStream
