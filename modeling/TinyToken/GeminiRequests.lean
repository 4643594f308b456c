import Mathlib

/-! `GeminiToOpenAIRequest`: a Gemini request sent on as a chat completion request. JSON that is
only encoded again (arguments, responses, schemas) is kept as its text. -/
namespace GeminiRequests

open List

structure Blob where
  mimeType : String
  data : String

structure FunctionCall where
  functionName : String
  arguments : String

structure Part where
  text : String
  inlineData : Option Blob
  fileData : Option Blob
  functionCall : Option FunctionCall
  functionResponse : Option String

structure Content where
  role : String
  parts : List Part

/-- A slice of strings: the memory after its end holds empty strings up to its capacity. -/
structure Slice where
  strings : List String
  capacity : ℕ
  fits : strings.length ≤ capacity

structure Function where
  name : String
  description : String
  parameters : String
  deriving DecidableEq

structure GeminiRequest where
  contents : List Content
  temperature : Option ℚ
  topP : Option ℚ
  topK : Option ℚ
  maxOutputTokens : Option ℕ
  candidateCount : Option ℤ
  stopSequences : Slice
  tools : List (List Function)
  systemInstructions : Option (List Part)

structure ImageUrl where
  url : String
  detail : String
  mimeType : String
  deriving DecidableEq

inductive MediaContent where
  | text (text : String)
  | imageUrl (image : ImageUrl)
  deriving DecidableEq

structure ToolCall where
  id : String
  name : String
  arguments : String
  deriving DecidableEq

inductive MessageContent where
  | null
  | string (content : String)
  | media (content : List MediaContent)
  deriving DecidableEq

structure Message where
  role : String
  content : MessageContent
  toolCalls : List ToolCall
  toolCallId : String
  deriving DecidableEq

structure OpenAIRequest where
  model : String
  stream : Bool
  messages : List Message
  temperature : Option ℚ
  topP : Option ℚ
  topK : Option ℤ
  maxTokens : Option ℕ
  stop : Option (List String)
  n : Option ℤ
  tools : List Function
  deriving DecidableEq

inductive Failure where
  | panic
  deriving DecidableEq

def convertGeminiRoleToOpenAI (geminiRole : String) : String :=
  if geminiRole = "user" then "user"
  else if geminiRole = "model" then "assistant"
  else if geminiRole = "function" then "function"
  else "user"

inductive Kind where
  | media (content : MediaContent)
  | call (functionCall : FunctionCall)
  | response (response : String)
  | other

variable (gathered : Gathered) (part : Part)

def Part.kind : Kind :=
  if part.text ≠ "" then .media (.text part.text)
  else
    match part.inlineData, part.fileData, part.functionCall, part.functionResponse with
    | some blob, _, _, _ =>
      .media (.imageUrl ⟨"data:" ++ blob.mimeType ++ ";base64," ++ blob.data, "auto", blob.mimeType⟩)
    | none, some file, _, _ => .media (.imageUrl ⟨file.data, "auto", file.mimeType⟩)
    | none, none, some functionCall, _ => .call functionCall
    | none, none, none, some response => .response response
    | none, none, none, none => .other

def callId (number : ℕ) : String := "call_" ++ Nat.repr number

structure Gathered where
  messages : List Message
  mediaContents : List MediaContent
  toolCalls : List ToolCall

/-- Calls are numbered within their content; a response has the number of calls so far. -/
def convertPart : Gathered :=
  match part.kind with
  | .media content => { gathered with mediaContents := gathered.mediaContents ++ [content] }
  | .call functionCall =>
    { gathered with
      toolCalls := gathered.toolCalls ++
        [⟨callId (gathered.toolCalls.length + 1), functionCall.functionName, functionCall.arguments⟩] }
  | .response response =>
    { gathered with
      messages := gathered.messages ++
        [⟨"tool", .string response, [], callId gathered.toolCalls.length⟩] }
  | .other => gathered

def messageContent : MessageContent :=
  if gathered.toolCalls ≠ [] then .null
  else
    match gathered.mediaContents with
    | [] => .null
    | [.text text] => .string text
    | mediaContents => .media mediaContents

def convertContent (messages : List Message) (content : Content) : List Message :=
  let gathered := content.parts.foldl convertPart ⟨messages, [], []⟩
  let converted := messageContent gathered
  if converted ≠ .null ∨ gathered.toolCalls ≠ [] then
    gathered.messages ++ [⟨convertGeminiRoleToOpenAI content.role, converted, gathered.toolCalls, ""⟩]
  else gathered.messages

/-- `s[:4]`: more than the length is allowed up to the capacity. -/
def Slice.firstFour (slice : Slice) : Except Failure (List String) :=
  if slice.capacity < 4 then .error .panic
  else .ok ((slice.strings ++ replicate (slice.capacity - slice.strings.length) "").take 4)

def extractTextFromGeminiParts (parts : List Part) : String :=
  "\n".intercalate ((parts.map Part.text).filter (· ≠ ""))

structure Info where
  upstreamModelName : String
  isStream : Bool

def geminiToOpenAIRequest (info : Info) (request : GeminiRequest) : Except Failure OpenAIRequest :=
  let conversation := request.contents.foldl convertContent []
  let messages := match request.systemInstructions with
    | some parts => ⟨"system", .string (extractTextFromGeminiParts parts), [], ""⟩ :: conversation
    | none => conversation
  let converted (stop : Option (List String)) : OpenAIRequest :=
    { model := info.upstreamModelName
      stream := info.isStream
      messages
      temperature := request.temperature
      topP := request.topP.filter (0 < ·)
      topK := (request.topK.filter (0 < ·)).map fun topK => ⌊topK⌋
      maxTokens := request.maxOutputTokens.filter (0 < ·)
      stop
      n := request.candidateCount.filter (0 < ·)
      tools := request.tools.flatten }
  if request.stopSequences.strings = [] then .ok (converted none)
  else
    match request.stopSequences.firstFour with
    | .ok stop => .ok (converted (some stop))
    | .error failure => .error failure

inductive Exchange where
  | call
  | response
  deriving DecidableEq

def Part.exchange? : Option Exchange :=
  match part.kind with
  | .call _ => some .call
  | .response _ => some .response
  | _ => none

def exchanges (contents : List Content) : List Exchange :=
  contents.flatMap fun content => content.parts.filterMap Part.exchange?

/-- Which call each response answers, after some calls and answers: the first unanswered one. -/
def answers (answered calls : ℕ) : List Exchange → List (Option ℕ)
  | [] => []
  | .call :: rest => answers answered (calls + 1) rest
  | .response :: rest =>
    if answered < calls then some answered :: answers (answered + 1) calls rest
    else none :: answers answered calls rest

def callIds (messages : List Message) : List String :=
  messages.flatMap fun message => message.toolCalls.map ToolCall.id

def responseIds (messages : List Message) : List String :=
  (messages.filter fun message => message.role = "tool").map Message.toolCallId

def MessageContent.texts : MessageContent → List String
  | .null => []
  | .string content => [content]
  | .media content => content.filterMap fun media =>
    match media with
    | .text text => some text
    | .imageUrl _ => none

def textsOf (messages : List Message) : List String :=
  (messages.filter fun message => message.role ≠ "tool").flatMap fun message => message.content.texts

/-- The texts of the contents, and of the system instructions before them in one. -/
def GeminiRequest.texts (request : GeminiRequest) : List String :=
  (match request.systemInstructions with
    | some parts => [extractTextFromGeminiParts parts]
    | none => []) ++
  (request.contents.flatMap Content.parts).filterMap fun part =>
    if part.text ≠ "" then some part.text else none

structure Kept (request : GeminiRequest) (converted : OpenAIRequest) : Prop where
  stop : converted.stop.getD [] = request.stopSequences.strings.take 4
  distinct : (callIds converted.messages).Nodup
  answered : List.Forall₂ (fun expected id => ∀ call, expected = some call →
      (callIds converted.messages)[call]? = some id)
    (answers 0 0 (exchanges request.contents)) (responseIds converted.messages)
  texts : textsOf converted.messages = request.texts

def Part.call? : Option FunctionCall :=
  match part.kind with
  | .call functionCall => some functionCall
  | _ => none

def Part.text? : Option String := if part.text ≠ "" then some part.text else none

def callsBefore (calls : ℕ) : List Part → List ℕ
  | [] => []
  | part :: rest =>
    match part.kind with
    | .call _ => callsBefore (calls + 1) rest
    | .response _ => calls :: callsBefore calls rest
    | _ => callsBefore calls rest

/-- There are no stop sequences or at least four, one content has all calls, without text beside
them, and a response which answers the n-th call comes after n calls of its own content. -/
structure Carried (request : GeminiRequest) : Prop where
  stop : request.stopSequences.strings = [] ∨ 4 ≤ request.stopSequences.strings.length
  oneContent : (request.contents.filter fun content => content.parts.filterMap Part.call? ≠ []).length ≤ 1
  answered : List.Forall₂ (fun expected before => ∀ call, expected = some call → before = call + 1)
    (answers 0 0 (exchanges request.contents))
    (request.contents.flatMap fun content => callsBefore 0 content.parts)
  separate : ∀ content ∈ request.contents,
    content.parts.filterMap Part.call? = [] ∨ content.parts.filterMap Part.text? = []

def toolMessages (calls : ℕ) : List Part → List Message
  | [] => []
  | part :: rest =>
    match part.kind with
    | .call _ => toolMessages (calls + 1) rest
    | .response response => ⟨"tool", .string response, [], callId calls⟩ :: toolMessages calls rest
    | _ => toolMessages calls rest

def toolCallsFrom (calls : ℕ) : List FunctionCall → List ToolCall
  | [] => []
  | functionCall :: rest =>
    ⟨callId (calls + 1), functionCall.functionName, functionCall.arguments⟩ ::
      toolCallsFrom (calls + 1) rest

def Part.media? : Option MediaContent :=
  match part.kind with
  | .media content => some content
  | _ => none

variable (messages later : List Message) (contents : List Content) (content : Content) (calls : ℕ)
  (parts : List Part)

def contentMessages (content : Content) : List Message :=
  let gathered : Gathered := ⟨toolMessages 0 content.parts, content.parts.filterMap Part.media?,
    toolCallsFrom 0 (content.parts.filterMap Part.call?)⟩
  let converted := messageContent gathered
  if converted ≠ .null ∨ gathered.toolCalls ≠ [] then
    gathered.messages ++ [⟨convertGeminiRoleToOpenAI content.role, converted, gathered.toolCalls, ""⟩]
  else gathered.messages

def textPart (text : String) : Part := ⟨text, none, none, none, none⟩

def callPart (name arguments : String) : Part := ⟨"", none, none, some ⟨name, arguments⟩, none⟩

def responsePart (response : String) : Part := ⟨"", none, none, none, some response⟩

def requestOf (contents : List Content) (stopSequences : Slice) : GeminiRequest :=
  ⟨contents, none, none, none, none, none, stopSequences, [], none⟩

def pairedCalls : GeminiRequest :=
  requestOf [⟨"user", [textPart "Weather?"]⟩,
    ⟨"model", [callPart "weather" "[1]", responsePart "sunny", callPart "weather" "[2]",
      responsePart "rain"]⟩] ⟨[], 0, by decide⟩

end GeminiRequests
