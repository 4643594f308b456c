import TinyToken.ChatChunks

/-! `ClaudeToOpenAIRequest`: a Claude request sent on as a chat completion request. JSON that the
function only encodes again (tool inputs, schemas, cache control) is kept as its text. -/
namespace ClaudeRequests

open ChatChunks (joined)
open List

inductive BlockType where
  | text | inputText | image | toolUse | toolResult | other
  deriving DecidableEq

/-- `Data` is what the base64 text stands in; a source with a URL has none. -/
structure Source where
  type : String
  mediaType : String
  data : Option String
  url : String

/-- The content of a tool result: a string, or the JSON text of its parsed media list. -/
inductive ResultContent where
  | string (content : String)
  | media (encoded : String)

/-- `ClaudeMediaMessage`. -/
structure Block where
  type : BlockType
  text : Option String
  source : Option Source
  cacheControl : String
  id : String
  name : String
  input : String
  content : ResultContent
  toolUseId : String

variable (block : Block) (message : Message) (info : Info)

def Block.getText : String := block.text.getD ""

inductive Content where
  | string (content : String)
  | blocks (blocks : List Block)
  | malformed (err : String)

structure ClaudeMessage where
  role : String
  content : Content

inductive System where
  | absent
  | string (system : String)
  | blocks (systems : List Block)

structure Thinking where
  type : String
  budgetTokens : ℤ

structure Tool where
  name : String
  description : String
  inputSchema : String

structure ClaudeRequest where
  model : String
  temperature : Option ℚ
  maxTokens : Option ℕ
  topP : Option ℚ
  topK : Option ℤ
  stream : Option Bool
  effort : String
  thinking : Option Thinking
  stopSequences : List String
  tools : List Tool
  system : System
  messages : List ClaudeMessage

inductive MediaContent where
  | text (text cacheControl : String)
  | imageUrl (url : String)

structure ToolCallRequest where
  id : String
  name : String
  arguments : String

inductive MessageContent where
  | null
  | string (content : String)
  | media (content : List MediaContent)

structure Message where
  role : String
  content : MessageContent
  name : Option String
  toolCalls : List ToolCallRequest
  toolCallId : String

/-- `len(ParseContent()) > 0`, for the contents that the conversion sets. -/
def MessageContent.nonempty : MessageContent → Bool
  | .null => false
  | .string _ => true
  | .media content => !content.isEmpty

inductive Stop where
  | absent
  | one (stop : String)
  | many (stops : List String)

structure RequestReasoning where
  enabled : Bool
  maxTokens : ℤ

structure OpenAIRequest where
  model : String
  temperature : Option ℚ
  maxTokens : Option ℕ
  topP : Option ℚ
  topK : Option ℤ
  stream : Option Bool
  verbosity : Option String
  reasoning : Option RequestReasoning
  stop : Stop
  tools : List Tool
  messages : List Message

structure Info where
  isOpenRouter : Bool
  originModelName : String
  upstreamModelName : String

inductive Failure where
  | error (err : String)
  | panic

/-- `SearchToolNameByToolCallId`. -/
def ClaudeRequest.searchToolNameByToolCallId (request : ClaudeRequest) (toolCallId : String) : String :=
  let blocks := request.messages.flatMap fun message =>
    match message.content with
    | .blocks blocks => blocks
    | _ => []
  ((blocks.find? fun block => block.id = toolCallId).map Block.name).getD ""

def systemMessages (request : ClaudeRequest) : List Message :=
  let fromBlocks (systems : List Block) : List Message :=
    if systems = [] then []
    else if info.isOpenRouter ∧ "anthropic/claude".toList.isPrefixOf info.upstreamModelName.toList then
      [⟨"system", .media (systems.map fun system => .text system.getText system.cacheControl), none,
        [], ""⟩]
    else [⟨"system", .string (joined (systems.map Block.getText)), none, [], ""⟩]
  match request.system with
  | .absent => []
  | .string system => if system ≠ "" then [⟨"system", .string system, none, [], ""⟩] else fromBlocks []
  | .blocks systems => fromBlocks systems

/-- `fmt.Sprintf` of the image; missing data is printed as Go prints nil. -/
def imageData (source : Source) : String :=
  "data:" ++ source.mediaType ++ ";base64," ++ source.data.getD "%!s(<nil>)"

def toolMessage (request : ClaudeRequest) (block : Block) : Message :=
  let toolName := if block.name = "" then request.searchToolNameByToolCallId block.toolUseId
    else block.name
  let content := match block.content with
    | .string content => content
    | .media encoded => encoded
  ⟨"tool", .string content, some toolName, [], block.toolUseId⟩

structure Gathered where
  messages : List Message
  toolCalls : List ToolCallRequest
  media : List MediaContent

def convertBlock (request : ClaudeRequest) (gathered : Gathered) (block : Block) :
    Except Failure Gathered :=
  match block.type with
  | .text | .inputText =>
    .ok { gathered with media := gathered.media ++ [.text block.getText block.cacheControl] }
  | .image =>
    match block.source with
    -- the source is read without a check
    | none => .error .panic
    | some source => .ok { gathered with media := gathered.media ++ [.imageUrl (imageData source)] }
  | .toolUse =>
    .ok { gathered with toolCalls := gathered.toolCalls ++ [⟨block.id, block.name, block.input⟩] }
  | .toolResult => .ok { gathered with messages := gathered.messages ++ [toolMessage request block] }
  | .other => .ok gathered

def convertBlocks (request : ClaudeRequest) : Gathered → List Block → Except Failure Gathered
  | gathered, [] => .ok gathered
  | gathered, block :: rest =>
    match convertBlock request gathered block with
    | .ok gathered => convertBlocks request gathered rest
    | .error failure => .error failure

/-- The message itself comes after its tool results, if anything is left in it. -/
def appendMessage (messages : List Message) (message : Message) : List Message :=
  if message.content.nonempty ∨ message.toolCalls ≠ [] then messages ++ [message] else messages

def convertMessage (request : ClaudeRequest) (messages : List Message) (message : ClaudeMessage) :
    Except Failure (List Message) :=
  match message.content with
  | .string content =>
    .ok (appendMessage messages ⟨message.role, .string content, none, [], ""⟩)
  | .malformed err => .error (.error err)
  | .blocks blocks =>
    match convertBlocks request ⟨messages, [], []⟩ blocks with
    | .error failure => .error failure
    | .ok gathered =>
      let content := if gathered.media ≠ [] ∧ gathered.toolCalls = [] then .media gathered.media
        else .null
      .ok (appendMessage gathered.messages ⟨message.role, content, none, gathered.toolCalls, ""⟩)

def convertMessages (request : ClaudeRequest) : List Message → List ClaudeMessage →
    Except Failure (List Message)
  | messages, [] => .ok messages
  | messages, message :: rest =>
    match convertMessage request messages message with
    | .ok messages => convertMessages request messages rest
    | .error failure => .error failure

def thinkingSuffix : String := "-thinking"

def hasThinkingSuffix (model : String) : Bool := thinkingSuffix.toList.isSuffixOf model.toList

def reasoningOf (thinking : Thinking) : RequestReasoning :=
  if thinking.type = "enabled" then ⟨true, thinking.budgetTokens⟩
  else if thinking.type = "adaptive" then ⟨true, 0⟩
  else ⟨false, 0⟩

def claudeToOpenAIRequest (request : ClaudeRequest) : Except Failure OpenAIRequest :=
  match convertMessages request (systemMessages info request) request.messages with
  | .error failure => .error failure
  | .ok messages => .ok
    { model :=
        if ¬ info.isOpenRouter ∧ hasThinkingSuffix info.originModelName ∧
          ¬ hasThinkingSuffix request.model then request.model ++ thinkingSuffix else request.model
      temperature := request.temperature
      maxTokens := request.maxTokens
      topP := request.topP
      topK := request.topK
      stream := request.stream
      verbosity := if info.isOpenRouter ∧ request.effort ≠ "" then some request.effort else none
      reasoning := if info.isOpenRouter then request.thinking.map reasoningOf else none
      stop := match request.stopSequences with
        | [] => .absent
        | [stop] => .one stop
        | stops => .many stops
      tools := request.tools
      messages }

inductive Item where
  | text (text : String)
  | image (url : String)
  | toolUse (id name arguments : String)
  | toolResult (toolUseId content : String)
  deriving DecidableEq

def Block.imageUrl : String :=
  match block.source with
  | none => ""
  | some source => if source.type = "url" then source.url else imageData source

def Block.resultText : String :=
  match block.content with
  | .string content => content
  | .media encoded => encoded

def Block.item? (role : String) (block : Block) : Option (String × Item) :=
  match block.type with
  | .text | .inputText => some (role, .text block.getText)
  | .image => some (role, .image block.imageUrl)
  | .toolUse => some (role, .toolUse block.id block.name block.input)
  | .toolResult => some ("tool", .toolResult block.toolUseId block.resultText)
  | .other => none

def ClaudeMessage.items (message : ClaudeMessage) : List (String × Item) :=
  match message.content with
  | .string content => [(message.role, .text content)]
  | .malformed _ => []
  | .blocks blocks => blocks.filterMap (Block.item? message.role)

def MediaContent.item : MediaContent → Item
  | .text content _ => .text content
  | .imageUrl url => .image url

def ToolCallRequest.item (toolCall : ToolCallRequest) : Item :=
  .toolUse toolCall.id toolCall.name toolCall.arguments

/-- The content of a chat message; only the messages of tool results have a name. -/
def Message.contentItems : List Item :=
  match message.content with
  | .null => []
  | .string content =>
    if message.name.isSome then [.toolResult message.toolCallId content] else [.text content]
  | .media content => content.map MediaContent.item

def Message.items : List (String × Item) :=
  (message.contentItems ++ message.toolCalls.map ToolCallRequest.item).map fun item =>
    (message.role, item)

def System.text : System → String
  | .absent => ""
  | .string system => system
  | .blocks systems => joined (systems.map Block.getText)

def Message.text : String :=
  joined (message.contentItems.map fun item =>
    match item with
    | .text content => content
    | _ => "")

/-- The chat messages are the system's, with all its text, and after them messages with every item
of the conversation once and in order. -/
def Kept (request : ClaudeRequest) (messages : List Message) : Prop :=
  ∃ systems conversation, messages = systems ++ conversation ∧
    joined (systems.map Message.text) = request.system.text ∧
    conversation.flatMap Message.items = request.messages.flatMap ClaudeMessage.items

def Block.isMedia : Bool :=
  block.type = .text || block.type = .inputText || block.type = .image

/-- Images come with their data, tool results before everything else of their message, and tool
uses not beside text or images. -/
def Separate (blocks : List Block) : Prop :=
  (∀ block ∈ blocks, block.type = .image → ∃ source ∈ block.source, source.type ≠ "url") ∧
  blocks.Pairwise (fun earlier later =>
    later.type = .toolResult → earlier.type = .toolResult ∨ earlier.type = .other) ∧
  ((∀ block ∈ blocks, block.type ≠ .toolUse) ∨ ∀ block ∈ blocks, block.isMedia = false)

instance (blocks : List Block) : Decidable (Separate blocks) :=
  inferInstanceAs (Decidable (_ ∧ _ ∧ (_ ∨ _)))

def ClaudeMessage.Carried (message : ClaudeMessage) : Prop :=
  match message.content with
  | .string _ => True
  | .malformed _ => False
  | .blocks blocks => Separate blocks

instance (message : ClaudeMessage) : Decidable message.Carried :=
  match h : message.content with
  | .string _ => isTrue (by simp [ClaudeMessage.Carried, h])
  | .malformed _ => isFalse (by simp [ClaudeMessage.Carried, h])
  | .blocks blocks => decidable_of_iff (Separate blocks) (by simp [ClaudeMessage.Carried, h])

def Block.media? : Option MediaContent :=
  match block.type with
  | .text | .inputText => some (.text block.getText block.cacheControl)
  | .image => block.source.map fun source => .imageUrl (imageData source)
  | _ => none

def Block.toolCall? : Option ToolCallRequest :=
  if block.type = .toolUse then some ⟨block.id, block.name, block.input⟩ else none

def Block.result? (request : ClaudeRequest) (block : Block) : Option Message :=
  if block.type = .toolResult then some (toolMessage request block) else none

variable (request : ClaudeRequest) (messages : List Message)

def textBlock (text : String) : Block := ⟨.text, some text, none, "", "", "", "null", .media "null", ""⟩

def toolUseBlock (id name input : String) : Block :=
  ⟨.toolUse, none, none, "", id, name, input, .media "null", ""⟩

def toolResultBlock (toolUseId content : String) : Block :=
  ⟨.toolResult, none, none, "", "", "", "null", .string content, toolUseId⟩

def requestOf (messages : List ClaudeMessage) : ClaudeRequest :=
  ⟨"claude-3", none, none, none, none, none, "", none, [], [], .string "Be brief.", messages⟩

def toolConversation : ClaudeRequest :=
  requestOf [⟨"user", .string "Weather?"⟩,
    ⟨"assistant", .blocks [toolUseBlock "toolu_1" "weather" "[]"]⟩,
    ⟨"user", .blocks [toolResultBlock "toolu_1" "sunny", textBlock "And tomorrow?"]⟩]

end ClaudeRequests
