import TinyToken.ClaudeStream
import TinyToken.StepMachines

/-! What the events of a converted stream carry: the text, the thinking and the arguments of each
tool call, put together again from the deltas, against the fragments of the chunks. -/
namespace ClaudeStream

open ChatChunks EmittingMachines StepMachines List String

def deltaOf (select : ℤ → BlockDelta → String) : Event → String
  | .blockDelta index delta => select index delta
  | _ => ""

def payload (select : ℤ → BlockDelta → String) (events : List Event) : String :=
  joined (events.map (deltaOf select))

def textDelta : ℤ → BlockDelta → String
  | _, .text text => text
  | _, _ => ""

def thinkingDelta : ℤ → BlockDelta → String
  | _, .thinking thinking => thinking
  | _, _ => ""

def inputJsonDelta (block : ℤ) : ℤ → BlockDelta → String
  | index, .inputJson partialJson => if index = block then partialJson else ""
  | _, _ => ""

def contentOf (chunk : Chunk) : String :=
  match chunk.choices with
  | [] => ""
  | choice :: _ => choice.delta.getContentString

def reasoningOf (chunk : Chunk) : String :=
  match chunk.choices with
  | [] => ""
  | choice :: _ => choice.delta.getReasoningContent

def toolCallsOf (chunk : Chunk) : List ToolCall :=
  match chunk.choices with
  | [] => []
  | choice :: _ => choice.delta.toolCalls

/-- The argument fragments of one tool call among the tool calls from a position on. -/
def argumentsFrom (tool : ℤ) : List ToolCall → ℕ → String
  | [], _ => ""
  | toolCall :: rest, position =>
    (if offsetOf toolCall position = tool then toolCall.arguments else "") ++
      argumentsFrom tool rest (position + 1)

def argumentsOf (tool : ℤ) (chunk : Chunk) : String := argumentsFrom tool (toolCallsOf chunk) 0

/-- The deltas carry the fragments of the chunks, those of each tool call in its own block. -/
def Preserved (chunks : List Chunk) (events : List Event) : Prop :=
  payload textDelta events = joined (chunks.map contentOf) ∧
  payload thinkingDelta events = joined (chunks.map reasoningOf) ∧
  ∃ base : ℤ, ∀ tool : ℤ,
    payload (inputJsonDelta (base + tool)) events = joined (chunks.map (argumentsOf tool))

def FedBeforeDone (info : ConvertInfo) (chunks : List Chunk) : Prop :=
  Along (fun info chunk => handleStreamFormat chunk info) (fun info _ => info.done = false) info chunks

def Deferred (chunk : Chunk) : Prop :=
  (chunk.choices.head?.bind Choice.finish).isSome = true ∧ chunk.usage = none

instance (chunk : Chunk) : Decidable (Deferred chunk) :=
  inferInstanceAs (Decidable (_ = true ∧ chunk.usage = none))

/-- What the converter carries over of the first chunk: one text, and one tool call, the first. -/
def FirstCarried (chunk : Chunk) : Prop :=
  (reasoningOf chunk = "" ∨ contentOf chunk = "") ∧
  (toolCallsOf chunk).length ≤ 1 ∧
  ∀ toolCall ∈ toolCallsOf chunk, offsetOf toolCall 0 = 0

/-- What it carries over of a later one: one text or tool calls, and those only while the tool
calls of the stream stay together. -/
def LaterCarried (seenTools : Bool) (info : ConvertInfo) (chunk : Chunk) : Prop :=
  if Deferred chunk then
    contentOf chunk = "" ∧ reasoningOf chunk = "" ∧
      ∀ toolCall ∈ toolCallsOf chunk, toolCall.arguments = ""
  else
    (reasoningOf chunk = "" ∨ contentOf chunk = "") ∧
    (toolCallsOf chunk ≠ [] → contentOf chunk = "" ∧ reasoningOf chunk = "" ∧
      (seenTools = true → info.lastMessagesType = .tools))

instance (chunk : Chunk) : Decidable (FirstCarried chunk) :=
  inferInstanceAs (Decidable (_ ∧ _ ≤ 1 ∧ ∀ toolCall ∈ toolCallsOf chunk, offsetOf toolCall 0 = 0))

instance (seenTools : Bool) (info : ConvertInfo) (chunk : Chunk) :
    Decidable (LaterCarried seenTools info chunk) :=
  inferInstanceAs (Decidable (if Deferred chunk then _ ∧ _ ∧ ∀ toolCall ∈ toolCallsOf chunk, _ else _))

def CarriedAfter : Bool → ConvertInfo → List Chunk → Prop
  | _, _, [] => True
  | seenTools, info, chunk :: rest =>
    LaterCarried seenTools info chunk ∧
      CarriedAfter (seenTools || decide (toolCallsOf chunk ≠ [])) (handleStreamFormat chunk info).2 rest

def Carried (info : ConvertInfo) : List Chunk → Prop
  | [] => True
  | chunk :: rest =>
    FirstCarried chunk ∧
      CarriedAfter (decide (toolCallsOf chunk ≠ [])) (handleStreamFormat chunk info).2 rest

instance decidableCarriedAfter : (seenTools : Bool) → (info : ConvertInfo) → (chunks : List Chunk) →
    Decidable (CarriedAfter seenTools info chunks)
  | _, _, [] => isTrue trivial
  | seenTools, info, chunk :: rest =>
    have : Decidable (CarriedAfter (seenTools || decide (toolCallsOf chunk ≠ []))
      (handleStreamFormat chunk info).2 rest) := decidableCarriedAfter _ _ rest
    inferInstanceAs (Decidable (LaterCarried seenTools info chunk ∧ _))

instance (info : ConvertInfo) : (chunks : List Chunk) → Decidable (Carried info chunks)
  | [] => isTrue trivial
  | chunk :: _ => inferInstanceAs (Decidable (FirstCarried chunk ∧ CarriedAfter _ _ _))

instance (info : ConvertInfo) (chunks : List Chunk) : Decidable (FedBeforeDone info chunks) :=
  decidableAlong info chunks

section Payloads

variable {select : ℤ → BlockDelta → String} {info : ConvertInfo}

@[simp] theorem payload_nil : payload select [] = "" := rfl

@[simp] theorem payload_cons (event : Event) (events : List Event) :
    payload select (event :: events) = deltaOf select event ++ payload select events := rfl

@[simp] theorem payload_append (events later : List Event) :
    payload select (events ++ later) = payload select events ++ payload select later := by
  simp [payload]

theorem payload_andThen (f g : Step) :
    payload select (andThen f g info).1 = payload select (f info).1 ++ payload select (g (f info).2).1 :=
  payload_append _ _

theorem payload_stops (l : List ℕ) (base : ℤ) :
    payload select (l.map fun (offset : ℕ) => Event.blockStop (base + offset)) = "" := by
  induction l with
  | nil => rfl
  | cons offset l ih => simp [deltaOf, ih]

@[simp] theorem payload_stopOpenBlocks : payload select (stopOpenBlocks info).1 = "" := by
  unfold stopOpenBlocks
  cases info.lastMessagesType with
  | none | text | thinking => rfl
  | tools => exact payload_stops _ _

@[simp] theorem payload_stopOpenBlocksAndAdvance :
    payload select (stopOpenBlocksAndAdvance info).1 = "" := by
  unfold stopOpenBlocksAndAdvance
  split
  · rfl
  all_goals exact payload_stopOpenBlocks

@[simp] theorem payload_finishMessage (usage : Option Usage) (reason : ConvertInfo → String) :
    payload select (finishMessage usage reason info).1 = "" := by
  rw [finishMessage, payload_andThen, payload_stopOpenBlocks]
  cases usage <;> simp [deltaOf]

variable (type : LastMessageType) (delta : Delta)

@[simp] theorem payload_leaveFor : payload select (leaveFor type info).1 = "" := by
  unfold leaveFor
  split
  · exact payload_stopOpenBlocksAndAdvance
  · rfl

@[simp] theorem payload_openBlock (block : ContentBlock) :
    payload select (openBlock type block info).1 = "" := by
  simp [openBlock, deltaOf]

@[simp] theorem payload_switchTo (block : ContentBlock) :
    payload select (switchTo type block info).1 = "" := by
  unfold switchTo
  split
  · simp [payload_andThen]
  · rfl

@[simp] theorem payload_emitDelta (delta : BlockDelta) :
    payload select (emitDelta delta info).1 = select info.index delta := by
  simp [emitDelta, deltaOf]

@[simp] theorem payload_enterTools : payload select (enterTools info).1 = "" := by
  unfold enterTools
  split
  · simp [payload_andThen]
  · rfl

def textPayload (select : ℤ → BlockDelta → String) (index : ℤ) (delta : Delta) : String :=
  if delta.getReasoningContent ≠ "" then select index (.thinking delta.getReasoningContent)
  else if delta.getContentString ≠ "" then select index (.text delta.getContentString)
  else ""

theorem payload_emitText :
    ∃ index, payload select (emitText delta info).1 = textPayload select index delta := by
  unfold emitText textPayload
  split
  · exact ⟨_, by rw [payload_andThen, payload_switchTo, payload_emitDelta, empty_append]⟩
  · split
    · exact ⟨_, by rw [payload_andThen, payload_switchTo, payload_emitDelta, empty_append]⟩
    · exact ⟨0, rfl⟩

theorem payload_emitFirstText :
    ∃ index, payload select (emitFirstText delta info).1 = textPayload select index delta := by
  unfold emitFirstText textPayload
  split
  · exact ⟨_, by rw [payload_andThen, payload_leaveFor, payload_andThen, payload_openBlock,
      payload_emitDelta, empty_append, empty_append]⟩
  · split
    · exact ⟨_, by rw [payload_andThen, payload_leaveFor, payload_andThen, payload_openBlock,
        payload_emitDelta, empty_append, empty_append]⟩
    · exact ⟨0, rfl⟩

theorem textPayload_text {delta : Delta} (index : ℤ)
    (h : delta.getReasoningContent = "" ∨ delta.getContentString = "") :
    textPayload textDelta index delta = delta.getContentString := by
  unfold textPayload
  rcases h with h | h
  · by_cases hc : delta.getContentString = "" <;> simp [h, hc, textDelta]
  · by_cases hr : delta.getReasoningContent = "" <;> simp [h, hr, textDelta]

theorem textPayload_thinking {delta : Delta} (index : ℤ) :
    textPayload thinkingDelta index delta = delta.getReasoningContent := by
  unfold textPayload
  by_cases hr : delta.getReasoningContent = ""
  · by_cases hc : delta.getContentString = "" <;> simp [hr, hc, thinkingDelta]
  · simp [hr, thinkingDelta]

theorem textPayload_inputJson (block index : ℤ) (delta : Delta) :
    textPayload (inputJsonDelta block) index delta = "" := by
  unfold textPayload
  split
  · rfl
  · split <;> rfl

theorem payload_emitToolCall (select : ℤ → BlockDelta → String) (base : ℤ) (toolCall : ToolCall) (position : ℕ)
    (hempty : ∀ index, select index (.inputJson "") = "") :
    payload select (emitToolCall base toolCall position) =
      select (base + offsetOf toolCall position) (.inputJson toolCall.arguments) := by
  unfold emitToolCall
  by_cases hn : toolCall.name = "" <;> by_cases ha : toolCall.arguments = "" <;>
    simp [hn, ha, deltaOf, hempty]

theorem payload_emitToolCallsFrom_other (base : ℤ) (toolCalls : List ToolCall) (position : ℕ)
    (maxOffset : ℤ) (hnone : ∀ index json, select index (.inputJson json) = "") :
    payload select (emitToolCallsFrom base toolCalls position maxOffset).1 = "" := by
  induction toolCalls generalizing position maxOffset with
  | nil => rfl
  | cons toolCall rest ih =>
    simp only [emitToolCallsFrom, payload_append, ih,
      payload_emitToolCall select base toolCall position fun index => hnone index "", hnone,
      append_empty]

theorem payload_emitToolCallsFrom (base tool : ℤ) (toolCalls : List ToolCall) (position : ℕ)
    (maxOffset : ℤ) :
    payload (inputJsonDelta (base + tool)) (emitToolCallsFrom base toolCalls position maxOffset).1 =
      argumentsFrom tool toolCalls position := by
  induction toolCalls generalizing position maxOffset with
  | nil => rfl
  | cons toolCall rest ih =>
    have hcall := payload_emitToolCall (inputJsonDelta (base + tool)) base toolCall position
      (by intro index; simp [inputJsonDelta])
    simp only [emitToolCallsFrom, payload_append, ih, hcall, argumentsFrom, inputJsonDelta,
      Int.add_right_inj]

end Payloads

/-- The tool calls of a chunk go on in the blocks that are open, or in new ones, and nothing else
of the chunk is carried. -/
theorem emitToolCalls_spec (toolCalls : List ToolCall) (info : ConvertInfo) :
    let r := emitToolCalls toolCalls info
    r.2.lastMessagesType = .tools ∧
    (info.lastMessagesType = .tools → r.2.toolCallBaseIndex = info.toolCallBaseIndex) ∧
    payload textDelta r.1 = "" ∧ payload thinkingDelta r.1 = "" ∧
    ∀ tool, payload (inputJsonDelta (r.2.toolCallBaseIndex + tool)) r.1 =
      argumentsFrom tool toolCalls 0 := by
  obtain ⟨htype, hsame⟩ := @state_enterTools info
  refine ⟨htype, ?_, ?_, ?_, ?_⟩
  · intro h
    change (enterTools info).2.toolCallBaseIndex = _
    rw [hsame h]
  · rw [emitToolCalls, payload_andThen, payload_enterTools, empty_append]
    exact payload_emitToolCallsFrom_other _ _ _ _ fun _ _ => rfl
  · rw [emitToolCalls, payload_andThen, payload_enterTools, empty_append]
    exact payload_emitToolCallsFrom_other _ _ _ _ fun _ _ => rfl
  · intro tool
    rw [emitToolCalls, payload_andThen, payload_enterTools, empty_append]
    exact payload_emitToolCallsFrom _ _ _ _ _

structure Converts (content reasoning : String) (toolCalls : List ToolCall) (info : ConvertInfo)
    (r : List Event × ConvertInfo) : Prop where
  text : payload textDelta r.1 = content
  thinking : payload thinkingDelta r.1 = reasoning
  /-- Arguments that are carried are in the tool blocks that are open after the chunk. -/
  inTools : r.2.lastMessagesType = .tools → ∀ tool,
    payload (inputJsonDelta (r.2.toolCallBaseIndex + tool)) r.1 = argumentsFrom tool toolCalls 0
  outside : r.2.lastMessagesType ≠ .tools →
    (∀ block, payload (inputJsonDelta block) r.1 = "") ∧ ∀ tool, argumentsFrom tool toolCalls 0 = ""
  stays : info.lastMessagesType = .tools → r.2.lastMessagesType = .tools →
    r.2.toolCallBaseIndex = info.toolCallBaseIndex
  opened : r.2.lastMessagesType = .tools → info.lastMessagesType = .tools ∨ toolCalls ≠ []

variable {toolCalls : List ToolCall}

theorem argumentsFrom_empty (tool : ℤ) (position : ℕ)
    (h : ∀ toolCall ∈ toolCalls, toolCall.arguments = "") :
    argumentsFrom tool toolCalls position = "" := by
  induction toolCalls generalizing position with
  | nil => rfl
  | cons toolCall rest ih =>
    have hfirst : toolCall.arguments = "" := h toolCall mem_cons_self
    have hrest := ih (position + 1) fun call hcall => h call (mem_cons_of_mem _ hcall)
    simp [argumentsFrom, hfirst, hrest]

variable {info : ConvertInfo}

theorem converts_nothing
    {r : List Event × ConvertInfo} (hcalls : ∀ toolCall ∈ toolCalls, toolCall.arguments = "")
    (hquiet : ∀ select, payload select r.1 = "")
    (htype : r.2.lastMessagesType = info.lastMessagesType)
    (hbase : r.2.toolCallBaseIndex = info.toolCallBaseIndex) : Converts "" "" toolCalls info r := by
  have hnone : ∀ tool, argumentsFrom tool toolCalls 0 = "" := fun tool =>
    argumentsFrom_empty tool 0 hcalls
  constructor
  case text => exact hquiet _
  case thinking => exact hquiet _
  case inTools =>
    intro _ tool
    rw [hquiet, hnone]
  case outside => exact fun _ => ⟨fun _ => hquiet _, hnone⟩
  case stays => exact fun _ _ => hbase
  case opened => exact fun h => .inl (htype ▸ h)

theorem Converts.finish {content reasoning : String}
    {f : Step} (h : Converts content reasoning toolCalls info (f info)) (usage : Option Usage)
    (reason : ConvertInfo → String) :
    Converts content reasoning toolCalls info (andThen f (finishMessage usage reason) info) := by
  have hstate : (andThen f (finishMessage usage reason) info).2 = { (f info).2 with done := true } :=
    state_finishMessage usage reason
  have hpayload : ∀ select, payload select (andThen f (finishMessage usage reason) info).1 =
      payload select (f info).1 := by
    intro select
    rw [payload_andThen, payload_finishMessage, append_empty]
  constructor
  case text => rw [hpayload]; exact h.text
  case thinking => rw [hpayload]; exact h.thinking
  case inTools => simp only [hstate, hpayload]; exact h.inTools
  case outside => simp only [hstate, hpayload]; exact h.outside
  case stays => simp only [hstate]; exact h.stays
  case opened => simp only [hstate]; exact h.opened

theorem emitText_converts {delta : Delta} (info : ConvertInfo)
    (h : delta.getReasoningContent = "" ∨ delta.getContentString = "") :
    Converts delta.getContentString delta.getReasoningContent [] info (emitText delta info) := by
  have hstate := @state_emitText info delta
  have hjson : ∀ block, payload (inputJsonDelta block) (emitText delta info).1 = "" := by
    intro block
    obtain ⟨index, hindex⟩ := @payload_emitText (inputJsonDelta block) info delta
    rw [hindex, textPayload_inputJson]
  constructor
  case text =>
    obtain ⟨index, hindex⟩ := @payload_emitText textDelta info delta
    rw [hindex, textPayload_text index h]
  case thinking =>
    obtain ⟨index, hindex⟩ := @payload_emitText thinkingDelta info delta
    rw [hindex, textPayload_thinking index]
  case inTools => exact fun _ _ => hjson _
  case outside => exact fun _ => ⟨hjson, fun _ => rfl⟩
  case stays =>
    intro _ htools
    rcases hstate with hsame | hother
    · rw [hsame]
    · exact absurd htools hother
  case opened =>
    intro htools
    rcases hstate with hsame | hother
    · exact .inl (hsame ▸ htools)
    · exact absurd htools hother

theorem emitContent_converts {delta : Delta} (info : ConvertInfo)
    (hone : delta.getReasoningContent = "" ∨ delta.getContentString = "")
    (hcalls : delta.toolCalls ≠ [] → delta.getContentString = "" ∧ delta.getReasoningContent = "") :
    Converts delta.getContentString delta.getReasoningContent delta.toolCalls info
      (emitContent delta info) := by
  unfold emitContent
  split
  case isTrue hne =>
    obtain ⟨hcontent, hreasoning⟩ := hcalls hne
    obtain ⟨htype, hbase, htext, hthinking, hjson⟩ := emitToolCalls_spec delta.toolCalls info
    exact ⟨htext.trans hcontent.symm, hthinking.trans hreasoning.symm, fun _ => hjson,
      absurd htype, fun h _ => hbase h, fun _ => .inr hne⟩
  case isFalse hempty =>
    rw [not_not.mp hempty]
    exact emitText_converts info hone

variable {chunk : Chunk} {seenTools : Bool}

theorem convertChoice_converts {choice : Choice} {others : List Choice} (hchoices : chunk.choices = choice :: others)
    (h : LaterCarried seenTools info chunk) :
    Converts (contentOf chunk) (reasoningOf chunk) (toolCallsOf chunk) (counted chunk info)
      (convertChoice chunk choice (counted chunk info)) := by
  have hcontent : contentOf chunk = choice.delta.getContentString := by simp [contentOf, hchoices]
  have hreasoning : reasoningOf chunk = choice.delta.getReasoningContent := by
    simp [reasoningOf, hchoices]
  have htools : toolCallsOf chunk = choice.delta.toolCalls := by simp [toolCallsOf, hchoices]
  have hdeferred : Deferred chunk ↔ choice.finish.isSome ∧ chunk.usage = none := by
    simp [Deferred, hchoices]
  rw [LaterCarried, hcontent, hreasoning, htools] at h
  rw [hcontent, hreasoning, htools]
  unfold convertChoice
  cases hfinish : choice.finish with
  | none =>
    rw [if_neg (by simp [hdeferred, hfinish])] at h
    exact emitContent_converts _ h.1 fun hne => ⟨(h.2 hne).1, (h.2 hne).2.1⟩
  | some reason =>
    cases husage : chunk.usage with
    | none =>
      rw [if_pos (by simp [hdeferred, hfinish, husage])] at h
      obtain ⟨hc, hr, hcalls⟩ := h
      rw [hc, hr]
      exact converts_nothing hcalls (fun _ => rfl) rfl rfl
    | some usage =>
      rw [if_neg (by simp [hdeferred, husage])] at h
      -- the finish reason is recorded before the content is sent
      have hsent := (emitContent_converts { counted chunk info with finishReason := reason } h.1
        fun hne => ⟨(h.2 hne).1, (h.2 hne).2.1⟩).finish (some usage)
          fun info => stopReasonOpenAI2Claude info.finishReason
      exact ⟨hsent.text, hsent.thinking, hsent.inTools, hsent.outside, hsent.stays, hsent.opened⟩

theorem later_deferred (hdone : info.done = false)
    (hcount : 1 ≤ info.sendResponseCount) (h : Deferred chunk) :
    (handleStreamFormat chunk info).2.lastMessagesType = info.lastMessagesType := by
  rw [handleStreamFormat_later hdone hcount]
  cases hchoices : chunk.choices with
  | nil => simp [Deferred, hchoices] at h
  | cons choice others =>
    simp only [Deferred, hchoices, head?_cons, Option.bind_some] at h
    obtain ⟨reason, hreason⟩ := Option.isSome_iff_exists.mp h.1
    simp only [convertChoice, hreason, h.2]
    rfl

theorem later_converts (hdone : info.done = false) (hcount : 1 ≤ info.sendResponseCount)
    (h : LaterCarried seenTools info chunk) :
    Converts (contentOf chunk) (reasoningOf chunk) (toolCallsOf chunk) (counted chunk info)
      (handleStreamFormat chunk info) := by
  rw [handleStreamFormat_later hdone hcount]
  cases hchoices : chunk.choices with
  | nil =>
    have hcontent : contentOf chunk = "" := by simp [contentOf, hchoices]
    have hreasoning : reasoningOf chunk = "" := by simp [reasoningOf, hchoices]
    have htools : toolCallsOf chunk = [] := by simp [toolCallsOf, hchoices]
    rw [hcontent, hreasoning, htools]
    dsimp only
    unfold convertUsageOnly
    split
    · apply converts_nothing (by simp)
      · exact fun _ => payload_finishMessage _ _
      all_goals simp
    · exact converts_nothing (by simp) (fun _ => rfl) rfl rfl
  | cons choice others => exact convertChoice_converts hchoices h

section FirstChunk

variable {info : ConvertInfo}

theorem payload_startFirstToolCall_other {select : ℤ → BlockDelta → String}
    (toolCalls : List ToolCall) (hnone : ∀ index json, select index (.inputJson json) = "") :
    payload select (startFirstToolCall toolCalls info).1 = "" := by
  cases toolCalls with
  | nil => rfl
  | cons toolCall rest =>
    by_cases ha : toolCall.arguments = "" <;> simp [startFirstToolCall, ha, deltaOf, hnone]

theorem payload_startFirstToolCall {toolCalls : List ToolCall} (hlength : toolCalls.length ≤ 1)
    (hoffset : ∀ toolCall ∈ toolCalls, offsetOf toolCall 0 = 0) (tool : ℤ) :
    payload (inputJsonDelta tool) (startFirstToolCall toolCalls info).1 =
      argumentsFrom tool toolCalls 0 := by
  match toolCalls, hlength with
  | [], _ => rfl
  | [toolCall], _ =>
    have hzero : offsetOf toolCall 0 = 0 := hoffset toolCall mem_cons_self
    by_cases ha : toolCall.arguments = "" <;>
      simp [startFirstToolCall, argumentsFrom, ha, hzero, deltaOf, inputJsonDelta]

theorem state_emitFirstText (delta : Delta) : (emitFirstText delta info).2 = info ∨
      (emitFirstText delta info).2.lastMessagesType ≠ .tools := by
  unfold emitFirstText
  split
  · exact .inr (by simp [andThen, openBlock, emitDelta])
  · split
    · exact .inr (by simp [andThen, openBlock, emitDelta])
    · exact .inl rfl

theorem payload_finishFirst {select : ℤ → BlockDelta → String} (chunk : Chunk) (choice : Choice) :
    payload select (finishFirst chunk choice info).1 = "" := by
  unfold finishFirst
  split
  · exact payload_finishMessage _ _
  · rfl

theorem state_finishFirst (chunk : Chunk) (choice : Choice) :
    (finishFirst chunk choice info).2.lastMessagesType = info.lastMessagesType ∧
    (finishFirst chunk choice info).2.toolCallBaseIndex = info.toolCallBaseIndex := by
  unfold finishFirst
  split <;> simp

end FirstChunk

structure ConvertsFirst (chunk : Chunk) (r : List Event × ConvertInfo) : Prop where
  text : payload textDelta r.1 = contentOf chunk
  thinking : payload thinkingDelta r.1 = reasoningOf chunk
  arguments : ∀ tool, payload (inputJsonDelta tool) r.1 = argumentsOf tool chunk
  tools : r.2.lastMessagesType = .tools → r.2.toolCallBaseIndex = 0 ∧ toolCallsOf chunk ≠ []

theorem first_converts (estimatePromptTokens : ℤ) (h : FirstCarried chunk) :
    ConvertsFirst chunk (handleStreamFormat chunk (initial estimatePromptTokens)) := by
  change ConvertsFirst chunk (convertFirst chunk (counted chunk (initial estimatePromptTokens)))
  obtain ⟨hone, hlength, hoffset⟩ := h
  cases hchoices : chunk.choices with
  | nil =>
    simp only [convertFirst, hchoices]
    constructor <;> simp [andThen, emit, emitMessageStart, counted, initial, deltaOf, contentOf,
      reasoningOf, argumentsOf, toolCallsOf, argumentsFrom, hchoices]
  | cons choice others =>
    have hcontent : contentOf chunk = choice.delta.getContentString := by simp [contentOf, hchoices]
    have hreasoning : reasoningOf chunk = choice.delta.getReasoningContent := by
      simp [reasoningOf, hchoices]
    have htools : toolCallsOf chunk = choice.delta.toolCalls := by simp [toolCallsOf, hchoices]
    rw [hcontent, hreasoning] at hone
    rw [htools] at hlength hoffset
    set start := counted chunk (initial estimatePromptTokens) with hstart
    set begun := (startFirstToolCall choice.delta.toolCalls start).2 with hbegun
    -- the message start and the end of the message carry nothing
    have hpayload : ∀ select, payload select (convertFirst chunk start).1 =
        payload select (startFirstToolCall choice.delta.toolCalls start).1 ++
          payload select (emitFirstText choice.delta begun).1 := by
      intro select
      simp only [convertFirst, hchoices, payload_andThen, payload_finishFirst, append_empty]
      simp [emitMessageStart, deltaOf, hbegun]
    have hstate : (convertFirst chunk start).2 =
        (finishFirst chunk choice (emitFirstText choice.delta begun).2).2 := by
      simp only [convertFirst, hchoices]
      rfl
    obtain ⟨hfinishType, hfinishBase⟩ :=
      @state_finishFirst (emitFirstText choice.delta begun).2 chunk choice
    have htextState := @state_emitFirstText begun choice.delta
    constructor
    case text =>
      obtain ⟨index, hindex⟩ := @payload_emitFirstText textDelta begun choice.delta
      rw [hpayload, payload_startFirstToolCall_other _ fun _ _ => rfl, hindex,
        textPayload_text index hone, empty_append, hcontent]
    case thinking =>
      obtain ⟨index, hindex⟩ := @payload_emitFirstText thinkingDelta begun choice.delta
      rw [hpayload, payload_startFirstToolCall_other _ fun _ _ => rfl, hindex,
        textPayload_thinking index, empty_append, hreasoning]
    case arguments =>
      intro tool
      obtain ⟨index, hindex⟩ := @payload_emitFirstText (inputJsonDelta tool) begun choice.delta
      rw [hpayload, payload_startFirstToolCall hlength hoffset, hindex, textPayload_inputJson,
        append_empty, argumentsOf, htools]
    case tools =>
      intro htype
      rw [hstate, hfinishType] at htype
      rw [hstate, hfinishBase, htools]
      rcases htextState with hsame | hother
      · rw [hsame] at htype ⊢
        rw [hbegun] at htype ⊢
        cases hcalls : choice.delta.toolCalls with
        | nil =>
          rw [hcalls] at htype
          cases htype
        | cons toolCall rest => exact ⟨rfl, cons_ne_nil _ _⟩
      · exact absurd htype hother

theorem run_without_tools (chunks : List Chunk)
    (hfed : FedBeforeDone info chunks) (hcount : 1 ≤ info.sendResponseCount)
    (hcarried : CarriedAfter true info chunks) (htype : info.lastMessagesType ≠ .tools) :
    (∀ block, payload (inputJsonDelta block) (emitAll handleStreamFormat chunks info).1 = "") ∧
      ∀ tool, joined (chunks.map (argumentsOf tool)) = "" := by
  induction chunks generalizing info with
  | nil => exact ⟨fun _ => rfl, fun _ => rfl⟩
  | cons chunk rest ih =>
    obtain ⟨hlater, hrest⟩ := hcarried
    have hstep := later_converts hfed.1 hcount hlater
    -- a chunk with tool calls would have needed open tool blocks
    have hclosed : (handleStreamFormat chunk info).2.lastMessagesType ≠ .tools := by
      intro htools
      rcases hstep.opened htools with h | hne
      · exact htype h
      · by_cases hdeferred : Deferred chunk
        · rw [later_deferred hfed.1 hcount hdeferred] at htools
          exact htype htools
        · rw [LaterCarried, if_neg hdeferred] at hlater
          exact htype ((hlater.2 hne).2.2 rfl)
    obtain ⟨hjson, hnone⟩ := hstep.outside hclosed
    obtain ⟨hjsonRest, hnoneRest⟩ := ih hfed.2 (count_handleStreamFormat_pos chunk info) hrest hclosed
    constructor
    · intro block
      rw [emitAll, payload_andThen, hjson, hjsonRest, append_empty]
    · intro tool
      rw [map_cons, joined_cons, hnoneRest, append_empty]
      exact hnone tool

theorem run_tools (chunks : List Chunk)
    (hfed : FedBeforeDone info chunks) (hcount : 1 ≤ info.sendResponseCount)
    (hcarried : CarriedAfter seenTools info chunks)
    (hseen : info.lastMessagesType = .tools → seenTools = true) :
    ∃ base, (info.lastMessagesType = .tools → base = info.toolCallBaseIndex) ∧
      ∀ tool, payload (inputJsonDelta (base + tool)) (emitAll handleStreamFormat chunks info).1 =
        joined (chunks.map (argumentsOf tool)) := by
  induction chunks generalizing info seenTools with
  | nil => exact ⟨info.toolCallBaseIndex, fun _ => rfl, fun _ => rfl⟩
  | cons chunk rest ih =>
    obtain ⟨hlater, hrest⟩ := hcarried
    have hstep := later_converts hfed.1 hcount hlater
    have hcount' := count_handleStreamFormat_pos chunk info
    by_cases htools : (handleStreamFormat chunk info).2.lastMessagesType = .tools
    · -- the chunk's arguments are in the blocks that are open after it
      have hseen' : (seenTools || decide (toolCallsOf chunk ≠ [])) = true := by
        rcases hstep.opened htools with h | hne
        · simp [hseen h]
        · simp [hne]
      obtain ⟨base, hbase, hjson⟩ := ih hfed.2 hcount' hrest fun _ => hseen'
      refine ⟨base, fun h => (hbase htools).trans (hstep.stays h htools), fun tool => ?_⟩
      rw [emitAll, payload_andThen, hjson, map_cons, joined_cons, hbase htools,
        hstep.inTools htools]
      rfl
    · obtain ⟨hquiet, hnone⟩ := hstep.outside htools
      have hhead : ∀ base tool, payload (inputJsonDelta (base + tool))
          (emitAll handleStreamFormat (chunk :: rest) info).1 =
          payload (inputJsonDelta (base + tool))
            (emitAll handleStreamFormat rest (handleStreamFormat chunk info).2).1 := by
        intro base tool
        rw [emitAll, payload_andThen, hquiet, empty_append]
      have hargs : ∀ tool, joined ((chunk :: rest).map (argumentsOf tool)) =
          joined (rest.map (argumentsOf tool)) := by
        intro tool
        have hchunk : argumentsOf tool chunk = "" := hnone tool
        rw [map_cons, joined_cons, hchunk, empty_append]
      by_cases hopen : info.lastMessagesType = .tools
      · -- the tool blocks are closed, so no tool calls follow
        rw [hseen hopen, Bool.true_or] at hrest
        obtain ⟨hjson, hnoneRest⟩ := run_without_tools rest hfed.2 hcount' hrest htools
        refine ⟨info.toolCallBaseIndex, fun _ => rfl, fun tool => ?_⟩
        rw [hhead, hargs, hjson, hnoneRest]
      · obtain ⟨base, -, hjson⟩ := ih hfed.2 hcount' hrest fun h => absurd h htools
        refine ⟨base, fun h => absurd h hopen, fun tool => ?_⟩
        rw [hhead, hargs, hjson]

theorem run_text (chunks : List Chunk)
    (hfed : FedBeforeDone info chunks) (hcount : 1 ≤ info.sendResponseCount)
    (hcarried : CarriedAfter seenTools info chunks) :
    payload textDelta (emitAll handleStreamFormat chunks info).1 = joined (chunks.map contentOf) ∧
    payload thinkingDelta (emitAll handleStreamFormat chunks info).1 =
      joined (chunks.map reasoningOf) := by
  induction chunks generalizing info seenTools with
  | nil => exact ⟨rfl, rfl⟩
  | cons chunk rest ih =>
    obtain ⟨hlater, hrest⟩ := hcarried
    have hstep := later_converts hfed.1 hcount hlater
    obtain ⟨htext, hthinking⟩ := ih hfed.2 (count_handleStreamFormat_pos chunk info) hrest
    constructor
    · rw [emitAll, payload_andThen, htext, hstep.text]
      rfl
    · rw [emitAll, payload_andThen, hthinking, hstep.thinking]
      rfl

theorem stream_tools {rest : List Chunk} {estimatePromptTokens : ℤ}
    (hfirst : ConvertsFirst chunk (handleStreamFormat chunk (initial estimatePromptTokens)))
    (hfed : FedBeforeDone (handleStreamFormat chunk (initial estimatePromptTokens)).2 rest)
    (hrest : CarriedAfter (decide (toolCallsOf chunk ≠ []))
      (handleStreamFormat chunk (initial estimatePromptTokens)).2 rest) :
    ∃ base : ℤ, ∀ tool : ℤ, payload (inputJsonDelta (base + tool))
      (emitAll handleStreamFormat (chunk :: rest) (initial estimatePromptTokens)).1 =
      joined ((chunk :: rest).map (argumentsOf tool)) := by
  have hseen : (handleStreamFormat chunk (initial estimatePromptTokens)).2.lastMessagesType = .tools →
      decide (toolCallsOf chunk ≠ []) = true := fun h => decide_eq_true (hfirst.tools h).2
  obtain ⟨base, hbase, hjson⟩ := run_tools rest hfed (count_handleStreamFormat_pos chunk _) hrest hseen
  by_cases hcalls : toolCallsOf chunk = []
  · -- the blocks are those of the later chunks
    refine ⟨base, fun tool => ?_⟩
    have hnone : argumentsOf (base + tool) chunk = "" ∧ argumentsOf tool chunk = "" := by
      simp [argumentsOf, hcalls, argumentsFrom]
    rw [emitAll, payload_andThen, hfirst.arguments, hjson, map_cons, joined_cons, hnone.1,
      hnone.2]
  · refine ⟨0, fun tool => ?_⟩
    rw [emitAll, payload_andThen, map_cons, joined_cons, Int.zero_add, hfirst.arguments]
    congr 1
    by_cases htype :
        (handleStreamFormat chunk (initial estimatePromptTokens)).2.lastMessagesType = .tools
    · have hzero : base = 0 := (hbase htype).trans (hfirst.tools htype).1
      have htool := hjson tool
      rwa [hzero, Int.zero_add] at htool
    · rw [decide_eq_true hcalls] at hrest
      obtain ⟨hquiet, hnone⟩ := run_without_tools rest hfed (count_handleStreamFormat_pos chunk _) hrest htype
      rw [hquiet, hnone]

/-- A stream whose chunks each hold what the converter carries over: no fragment is lost, doubled
or moved to another tool call. -/
theorem fragments_preserved (estimatePromptTokens : ℤ) (chunks : List Chunk)
    (hfed : FedBeforeDone (initial estimatePromptTokens) chunks)
    (hcarried : Carried (initial estimatePromptTokens) chunks) :
    Preserved chunks (emitAll handleStreamFormat chunks (initial estimatePromptTokens)).1 := by
  cases chunks with
  | nil => exact ⟨rfl, rfl, 0, fun _ => rfl⟩
  | cons chunk rest =>
    obtain ⟨hchunk, hrest⟩ := hcarried
    have hfirst := first_converts estimatePromptTokens hchunk
    obtain ⟨htext, hthinking⟩ := run_text rest hfed.2 (count_handleStreamFormat_pos chunk _) hrest
    refine ⟨?_, ?_, stream_tools hfirst hfed.2 hrest⟩
    · rw [emitAll, payload_andThen, htext, hfirst.text]
      rfl
    · rw [emitAll, payload_andThen, hthinking, hfirst.thinking]
      rfl

def textChunk (content reasoning : Option String) : Chunk :=
  ⟨"chatcmpl-1", "gpt-4o", [⟨⟨content, reasoning, none, []⟩, none⟩], none⟩

def toolChunk (index : ℤ) (name arguments : String) : Chunk :=
  ⟨"chatcmpl-1", "gpt-4o", [⟨⟨none, none, none, [⟨some index, "call_1", name, arguments⟩]⟩, none⟩], none⟩

def toolStream : List Chunk :=
  [textChunk none (some "Let me see."), textChunk (some "I look it up.") none,
    toolChunk 0 "search" "", toolChunk 1 "read" "", toolChunk 0 "" "[1", toolChunk 1 "" "[2",
    toolChunk 0 "" "]", toolChunk 1 "" "]"]

theorem toolStream_preserved :
    Preserved toolStream (emitAll handleStreamFormat toolStream (initial 7)).1 :=
  fragments_preserved 7 toolStream (by decide +kernel) (by decide +kernel)

/-- Of a chunk with reasoning and content the content is lost. -/
theorem content_beside_reasoning_lost :
    FedBeforeDone (initial 7) [textChunk (some "") none, textChunk (some "4") (some "2 + 2")] ∧
    ¬ Preserved [textChunk (some "") none, textChunk (some "4") (some "2 + 2")]
      (emitAll handleStreamFormat [textChunk (some "") none, textChunk (some "4") (some "2 + 2")]
        (initial 7)).1 := by
  refine ⟨by decide +kernel, fun h => ?_⟩
  have htext := h.1
  revert htext
  decide +kernel

end ClaudeStream
