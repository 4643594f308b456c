import TinyToken.ChatChunks
import TinyToken.EmittingMachines
import TinyToken.GoText

/-! A Responses API answer for a chat completion client, as a stream by
`OaiResponsesToChatStreamHandler` and as a whole by
`ResponsesResponseToChatCompletionsResponse`. -/
namespace ResponsesStream

open ChatChunks (ToolCall Delta Choice joined)
open EmittingMachines
open GoText (hasLead trimSpace)

inductive RawMessage where
  | missing
  | string (value : String)
  | raw (encoded : String)
  deriving DecidableEq

def jsonRawMessageToString : RawMessage → String
  | .missing => ""
  | .string value => value
  | .raw encoded => encoded

structure OutputContent where
  type : String
  text : String
  deriving DecidableEq

structure OutputItem where
  type : String
  id : String
  role : String
  content : List OutputContent
  callId : String
  name : String
  arguments : RawMessage
  deriving DecidableEq

namespace OutputItem

variable (item : OutputItem)

def argumentsString : String := jsonRawMessageToString item.arguments

def itemID : String := trimSpace item.id

def callID : String := if trimSpace item.callId = "" then item.itemID else trimSpace item.callId

def callName : String := trimSpace item.name

def IsCall : Prop := item.type = "function_call"

instance : Decidable item.IsCall := inferInstanceAs (Decidable (_ = _))

end OutputItem

structure InputTokensDetails where
  cachedTokens : ℤ
  imageTokens : ℤ
  audioTokens : ℤ
  deriving DecidableEq

structure ResponsesUsage where
  inputTokens : ℤ
  outputTokens : ℤ
  totalTokens : ℤ
  inputTokensDetails : Option InputTokensDetails
  reasoningTokens : ℤ
  deriving DecidableEq

structure OpenAIError where
  type : String
  message : String
  deriving DecidableEq

structure Response where
  model : String
  createdAt : ℤ
  output : List OutputItem
  usage : Option ResponsesUsage
  error : Option OpenAIError
  deriving DecidableEq

structure Usage where
  promptTokens : ℤ
  inputTokens : ℤ
  completionTokens : ℤ
  outputTokens : ℤ
  totalTokens : ℤ
  promptTokensDetails : InputTokensDetails
  reasoningTokens : ℤ

def noUsage : Usage := ⟨0, 0, 0, 0, 0, ⟨0, 0, 0⟩, 0⟩

def Usage.take (usage : Usage) (upstream : ResponsesUsage) : Usage :=
  let promptTokens := if upstream.inputTokens ≠ 0 then upstream.inputTokens else usage.promptTokens
  let completionTokens :=
    if upstream.outputTokens ≠ 0 then upstream.outputTokens else usage.completionTokens
  { promptTokens, completionTokens
    inputTokens := if upstream.inputTokens ≠ 0 then upstream.inputTokens else usage.inputTokens
    outputTokens := if upstream.outputTokens ≠ 0 then upstream.outputTokens else usage.outputTokens
    totalTokens :=
      if upstream.totalTokens ≠ 0 then upstream.totalTokens else promptTokens + completionTokens
    promptTokensDetails := upstream.inputTokensDetails.getD usage.promptTokensDetails
    reasoningTokens :=
      if upstream.reasoningTokens ≠ 0 then upstream.reasoningTokens else usage.reasoningTokens }

structure Chunk where
  id : String
  created : ℤ
  model : String
  choices : List Choice
  usage : Option Usage

inductive Sent where
  | chunk (chunk : Chunk)
  | done

structure ChatCompletion where
  id : String
  created : ℤ
  model : String
  content : String
  toolCalls : List ToolCall
  finishReason : String
  usage : Usage

variable (sent : List Sent) (output : List OutputItem) (s : State)

def messageText : String :=
  joined (output.flatMap fun out =>
    if out.type ≠ "message" then []
    else if out.role ≠ "" ∧ out.role ≠ "assistant" then []
    else (out.content.filter fun content => content.type = "output_text").map OutputContent.text)

def anyText : String :=
  joined (output.flatMap fun out => out.content.map OutputContent.text)

def extractOutputTextFromResponses (resp : Response) : String :=
  if messageText resp.output ≠ "" then messageText resp.output else anyText resp.output

def chatToolCalls : List ToolCall :=
  output.filterMap fun out =>
    if ¬ out.IsCall then none
    else if out.callName = "" then none
    else some ⟨none, out.callID, out.callName, out.argumentsString⟩

def responsesResponseToChatCompletionsResponse (resp : Option Response) (id : String) :
    Except String ChatCompletion :=
  match resp with
  | none => .error "response is nil"
  | some resp =>
    let text := extractOutputTextFromResponses resp
    let toolCalls := if text = "" then chatToolCalls resp.output else []
    .ok
      { id
        created := resp.createdAt
        model := resp.model
        content := if toolCalls ≠ [] then "" else text
        toolCalls
        finishReason := if toolCalls ≠ [] then "tool_calls" else "stop"
        usage := match resp.usage with
          | some upstream => noUsage.take upstream
          | none => noUsage }

inductive ItemEvent where
  | added | done

/-- The events of a stream. The handler does not read the places that events name in the output. -/
inductive Event where
  | created (response : Option Response)
  | reasoningSummaryTextDelta (delta : String)
  | reasoningSummaryTextDone
  | outputTextDelta (outputIndex contentIndex : ℕ) (delta : String)
  | outputItem (type : ItemEvent) (outputIndex : ℕ) (item : Option OutputItem)
  | functionCallArgumentsDelta (outputIndex : ℕ) (itemID delta : String)
  | functionCallArgumentsDone
  | completed (response : Option Response)
  | failed (type : String) (response : Option Response)
  | other
  | malformed

inductive StreamError where
  | upstream (error : OpenAIError)
  /-- The message `responses stream error` with the event's type. -/
  | event (type : String)

structure State where
  createAt : ℤ
  model : String
  usage : Usage
  outputText : String
  usageText : String
  sentStart : Bool
  sentStop : Bool
  sawToolCall : Bool
  streamErr : Option StreamError
  toolCallIndexByID : List String
  toolCallNameByID : String → String
  toolCallArgsByID : String → String
  toolCallNameSent : String → Bool
  toolCallCanonicalIDByItemID : String → String
  hasSentReasoningSummary : Bool
  needsReasoningSummarySeparator : Bool

def initial (createAt : ℤ) (upstreamModelName : String) : State where
  createAt
  model := upstreamModelName
  usage := noUsage
  outputText := ""
  usageText := ""
  sentStart := false
  sentStop := false
  sawToolCall := false
  streamErr := none
  toolCallIndexByID := []
  toolCallNameByID := fun _ => ""
  toolCallArgsByID := fun _ => ""
  toolCallNameSent := fun _ => false
  toolCallCanonicalIDByItemID := fun _ => ""
  hasSentReasoningSummary := false
  needsReasoningSummarySeparator := false

abbrev Step := Emit State Sent

def argsDelta (prevArgs newArgs : String) : String :=
  if newArgs = "" then ""
  else if hasLead newArgs prevArgs then String.ofList (newArgs.toList.drop prevArgs.toList.length)
  else newArgs

def State.finishReason : String :=
  if s.sawToolCall ∧ s.outputText = "" then "tool_calls" else "stop"

def State.describe (response : Response) : State :=
  { s with
    model := if response.model ≠ "" then response.model else s.model
    createAt := if response.createdAt ≠ 0 then response.createdAt else s.createAt }

def State.complete (response : Response) : State :=
  { s.describe response with
    usage := match response.usage with
      | some upstream => s.usage.take upstream
      | none => s.usage }

section Handler

variable (responseId : String)

variable (s : State) (delta : String)

def State.chunk (choices : List Choice) : Sent :=
  .chunk ⟨responseId, s.createAt, s.model, choices, none⟩

def sendStartIfNeeded : Step := fun s =>
  if s.sentStart then ([], s)
  else ([s.chunk responseId [⟨⟨some "", none, none, []⟩, none⟩]], { s with sentStart := true })

def sendStopIfNeeded : Step := fun s =>
  if s.sentStop then ([], s)
  else ([s.chunk responseId [⟨⟨none, none, none, []⟩, some s.finishReason⟩]],
    { s with sentStop := true })

def separated : String :=
  if hasLead delta "\n\n" then delta
  else if hasLead delta "\n" then "\n" ++ delta
  else "\n\n" ++ delta

def sendReasoningSummaryDelta : Step := fun s =>
  if delta = "" then ([], s)
  else
    let text := if s.needsReasoningSummarySeparator then separated delta else delta
    andThen (sendStartIfNeeded responseId)
      (fun s => ([s.chunk responseId [⟨⟨none, some text, none, []⟩, none⟩]],
        { s with usageText := s.usageText ++ text, hasSentReasoningSummary := true }))
      { s with needsReasoningSummarySeparator := false }

def State.named (callID name : String) : String → String :=
  if name ≠ "" then Function.update s.toolCallNameByID callID name else s.toolCallNameByID

def State.shownName (callID name : String) : String :=
  let known := s.named callID name callID
  let name := if known ≠ "" then known else name
  if name ≠ "" ∧ ¬ s.toolCallNameSent callID then name else ""

def sendTool (callID name argsDelta : String) : Step := fun s =>
  let shown := s.shownName callID name
  ([s.chunk responseId
      [⟨⟨none, none, none,
        [⟨some (s.toolCallIndexByID.idxOf callID), callID, shown, argsDelta⟩]⟩, none⟩]],
    { s with
      toolCallIndexByID := if callID ∈ s.toolCallIndexByID then s.toolCallIndexByID
        else s.toolCallIndexByID ++ [callID]
      toolCallNameByID := s.named callID name
      toolCallNameSent := if shown ≠ "" then Function.update s.toolCallNameSent callID true
        else s.toolCallNameSent
      sawToolCall := true
      usageText := s.usageText ++ shown ++ argsDelta })

def sendToolCallDelta (callID name argsDelta : String) : Step := fun s =>
  if callID = "" then ([], s)
  -- text goes before tool calls
  else if s.outputText ≠ "" then ([], s)
  else andThen (sendStartIfNeeded responseId) (sendTool responseId callID name argsDelta) s

def sendText : Step := fun s =>
  if delta ≠ "" then
    ([s.chunk responseId [⟨⟨some delta, none, none, []⟩, none⟩]],
      { s with outputText := s.outputText ++ delta, usageText := s.usageText ++ delta })
  else ([], s)

def State.noteCall (item : OutputItem) : State :=
  { s with
    toolCallCanonicalIDByItemID :=
      if item.itemID ≠ "" ∧ item.callID ≠ "" then
        Function.update s.toolCallCanonicalIDByItemID item.itemID item.callID
      else s.toolCallCanonicalIDByItemID
    toolCallNameByID :=
      if item.callName ≠ "" then Function.update s.toolCallNameByID item.callID item.callName
      else s.toolCallNameByID
    toolCallArgsByID :=
      if item.argumentsString ≠ "" then
        Function.update s.toolCallArgsByID item.callID item.argumentsString
      else s.toolCallArgsByID }

def handleCall (item : OutputItem) : Step := fun s =>
  sendToolCallDelta responseId item.callID item.callName
    (argsDelta (s.toolCallArgsByID item.callID) item.argumentsString) (s.noteCall item)

def State.callIDOf (itemID : String) : String :=
  if s.toolCallCanonicalIDByItemID itemID = "" then itemID
  else s.toolCallCanonicalIDByItemID itemID

def State.noteArguments (callID delta : String) : State :=
  { s with
    toolCallArgsByID :=
      Function.update s.toolCallArgsByID callID (s.toolCallArgsByID callID ++ delta) }

def handleArguments (itemID delta : String) : Step := fun s =>
  let callID := s.callIDOf (trimSpace itemID)
  if callID = "" then ([], s)
  else sendToolCallDelta responseId callID "" delta (s.noteArguments callID delta)

def handleCompleted (response : Option Response) : Step := fun s =>
  andThen (sendStartIfNeeded responseId) (sendStopIfNeeded responseId)
    (match response with
      | some response => s.complete response
      | none => s)

def streamError (type : String) (response : Option Response) : StreamError :=
  match response.bind Response.error with
  | some error => if error.type ≠ "" then .upstream error else .event type
  | none => .event type

def handleEvent (event : Event) : Step := fun s =>
  match event with
  | .created (some response) => ([], s.describe response)
  | .created none => ([], s)
  | .reasoningSummaryTextDelta delta => sendReasoningSummaryDelta responseId delta s
  | .reasoningSummaryTextDone =>
    ([], if s.hasSentReasoningSummary then { s with needsReasoningSummarySeparator := true } else s)
  | .outputTextDelta _ _ delta =>
    andThen (sendStartIfNeeded responseId) (sendText responseId delta) s
  | .outputItem _ _ (some item) => if item.IsCall then handleCall responseId item s else ([], s)
  | .outputItem _ _ none => ([], s)
  | .functionCallArgumentsDelta _ itemID delta => handleArguments responseId itemID delta s
  | .functionCallArgumentsDone => ([], s)
  | .completed response => handleCompleted responseId response s
  | .failed type response => ([], { s with streamErr := some (streamError type response) })
  | .other => ([], s)
  | .malformed => ([], s)

def handle (event : Event) : Step := fun s =>
  if s.streamErr.isSome then ([], s) else handleEvent responseId event s

def sendEnd (shouldIncludeUsage : Bool) : Step := fun s =>
  ((if shouldIncludeUsage then [.chunk ⟨responseId, s.createAt, s.model, [], some s.usage⟩] else []) ++
    [.done], s)

/-- The end of the stream. Usage that did not come from upstream is estimated from the text. -/
def finishStream (shouldIncludeUsage : Bool) (responseText2Usage : String → Usage) : Step :=
  fun s =>
    if s.streamErr.isSome then ([], s)
    else
      andThen (sendStartIfNeeded responseId)
        (andThen (sendStopIfNeeded responseId) (sendEnd responseId shouldIncludeUsage))
        { s with usage := if s.usage.totalTokens = 0 then responseText2Usage s.usageText else s.usage }

end Handler

structure Relay where
  responseId : String
  createAt : ℤ
  upstreamModelName : String
  shouldIncludeUsage : Bool
  responseText2Usage : String → Usage

def oaiResponsesToChatStreamHandler (relay : Relay) (events : List Event) : List Sent × State :=
  andThen (emitAll (handle relay.responseId) events)
    (finishStream relay.responseId relay.shouldIncludeUsage relay.responseText2Usage)
    (initial relay.createAt relay.upstreamModelName)

def choicesOf : List Choice :=
  sent.flatMap fun message =>
    match message with
    | .chunk chunk => chunk.choices
    | .done => []

def textOf : String :=
  joined ((choicesOf sent).map fun choice => choice.delta.getContentString)

def fragmentsOf : List ToolCall :=
  (choicesOf sent).flatMap fun choice => choice.delta.toolCalls

def finishesOf : List String :=
  (choicesOf sent).filterMap Choice.finishReason

def addFragment (calls : List ToolCall) (fragment : ToolCall) : List ToolCall :=
  if fragment.index ∈ calls.map ToolCall.index then
    calls.map fun call =>
      if call.index = fragment.index then
        { call with
          id := if call.id = "" then fragment.id else call.id
          name := call.name ++ fragment.name
          arguments := call.arguments ++ fragment.arguments }
      else call
  else calls ++ [fragment]

def assembleCalls : List ToolCall := (fragmentsOf sent).foldl addFragment []

section Reading

variable (sent later : List Sent)

@[simp] theorem choicesOf_append : choicesOf (sent ++ later) = choicesOf sent ++ choicesOf later := by
  simp [choicesOf]

@[simp] theorem textOf_append : textOf (sent ++ later) = textOf sent ++ textOf later := by
  simp [textOf]

@[simp] theorem fragmentsOf_append :
    fragmentsOf (sent ++ later) = fragmentsOf sent ++ fragmentsOf later := by
  simp [fragmentsOf]

@[simp] theorem finishesOf_append :
    finishesOf (sent ++ later) = finishesOf sent ++ finishesOf later := by
  simp [finishesOf]

end Reading

end ResponsesStream
