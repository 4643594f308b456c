import Mathlib

/-! `RequestOpenAI2ClaudeMessage`: the tools, the stop value and the messages of a chat completion
request on their way into a Claude request. The two loops over the messages are the source's: the
first one puts neighbours of one role together, the second one builds the Claude messages. -/
namespace ChatToClaude

open List String Bool

inductive Failure where
  | error (err : String)
  | panic
  deriving DecidableEq

inductive JsonValue where
  | null
  | string (s : String)
  | other (encoded : String)
  deriving DecidableEq

/-- `Parameters`, if it is an object. -/
structure Tool where
  name : String
  description : String
  parameters : Option (List (String × JsonValue))

inductive Stop where
  | absent
  | string (stop : String)
  | array (stops : List JsonValue)
  | other

inductive Role where
  | system | user | assistant | tool
  | other (role : String)
  deriving DecidableEq

structure ToolCall where
  id : String
  name : String
  arguments : String

/-- An element of a content list: a text, or a file with the source it is read from. -/
inductive Part where
  | text (text : String)
  | file (source : Option String)
  deriving DecidableEq

inductive Content where
  | null
  | string (content : String)
  | parts (parts : List Part)
  | other (encoded : String)
  deriving DecidableEq

structure Message where
  role : Role
  content : Content
  toolCallId : String
  toolCalls : Option (List ToolCall)

structure Request where
  tools : List Tool
  stop : Stop
  messages : List Message

structure ClaudeTool where
  name : String
  description : String
  inputSchema : List (String × JsonValue)
  deriving DecidableEq

inductive ClaudeBlock where
  | text (text : String)
  | toolUse (id name input : String)
  | toolResult (toolUseId : String) (content : Content)
  | media (type mediaType data : String)
  deriving DecidableEq

inductive ClaudeContent where
  | string (content : String)
  | blocks (blocks : List ClaudeBlock)
  deriving DecidableEq

structure ClaudeMessage where
  role : Role
  content : ClaudeContent
  deriving DecidableEq

structure ClaudeRequest where
  tools : List ClaudeTool
  stopSequences : List String
  system : List String
  messages : List ClaudeMessage
  deriving DecidableEq

/-- `json.Unmarshal` into an object, with its result encoded again, and `GetBase64Data`, which
gives the data and the MIME type. -/
structure Services where
  unmarshalObject : String → Option String
  getBase64Data : String → Except String (String × String)

/-- A `type` that is no string makes the type assertion panic. -/
def convertTool (tool : Tool) : Except Failure (List ClaudeTool) :=
  match tool.parameters with
  | none => .ok []
  | some params =>
    let rest := [("properties", (params.lookup "properties").getD .null),
      ("required", (params.lookup "required").getD .null)] ++
      params.filter fun field => field.1 ≠ "type" ∧ field.1 ≠ "properties" ∧ field.1 ≠ "required"
    match params.lookup "type" with
    | none | some .null => .ok [⟨tool.name, tool.description, rest⟩]
    | some (.string type) => .ok [⟨tool.name, tool.description, ("type", .string type) :: rest⟩]
    | some (.other _) => .error .panic

def convertTools : List Tool → Except Failure (List ClaudeTool)
  | [] => .ok []
  | tool :: rest =>
    match convertTool tool, convertTools rest with
    | .ok converted, .ok later => .ok (converted ++ later)
    | .error failure, _ => .error failure
    | .ok _, .error failure => .error failure

def convertStops : List JsonValue → Except Failure (List String)
  | [] => .ok []
  | .string stop :: rest =>
    match convertStops rest with
    | .ok stops => .ok (stop :: stops)
    | .error failure => .error failure
  | _ :: _ => .error .panic

def convertStop : Stop → Except Failure (List String)
  | .string stop => .ok [stop]
  | .array stops => convertStops stops
  | .absent | .other => .ok []

def Content.isString : Content → Bool
  | .string _ => true
  | _ => false

/-- `StringContent` of a string. -/
def Content.stringContent : Content → String
  | .string content => content
  | _ => ""

/-- `strings.Trim` with a double quote. -/
def trimQuotes (s : String) : String :=
  ofList ((s.toList.dropWhile (· = '"')).reverse.dropWhile (· = '"')).reverse

def joins (last message : Message) : Bool :=
  last.role = message.role ∧ last.role ≠ .tool ∧ last.content.isString ∧ message.content.isString

def Content.filled (content : Content) : Content :=
  if content = .null ∨ content = .string "" then .string "..." else content

/-- Of two messages that are put together only the later one's tool calls stay. -/
def fmtMessage (last message : Message) : Message :=
  let content := if joins last message then
      .string (trimQuotes (last.content.stringContent ++ " " ++ message.content.stringContent))
    else message.content
  { role := message.role
    content := content.filled
    toolCallId := if message.role = .tool then message.toolCallId else ""
    toolCalls := if message.role = .assistant then message.toolCalls else none }

def formatLoop : List Message → Message → List Message → List Message
  | formatted, _, [] => formatted
  | formatted, last, message :: rest =>
    let kept := if joins last message then formatted.dropLast else formatted
    formatLoop (kept ++ [fmtMessage last message]) (fmtMessage last message) rest

def formatMessages (messages : List Message) : List Message :=
  formatLoop [] ⟨.tool, .null, "", none⟩ messages

structure Progress where
  messages : List ClaudeMessage
  isFirstMessage : Bool
  systemMessages : List String

def systemTexts : Content → List String
  | .string content => if content ≠ "" then [content] else []
  | .parts parts => parts.filterMap fun part =>
    match part with
    | .text text => if text ≠ "" then some text else none
    | .file _ => none
  | _ => []

def convertPart (services : Services) : Part → Except Failure (List ClaudeBlock)
  | .text text => .ok (if text ≠ "" then [.text text] else [])
  | .file none => .ok []
  | .file (some source) =>
    match services.getBase64Data source with
    | .error err => .error (.error ("get file data failed: " ++ err))
    | .ok (base64Data, mimeType) =>
      let type := if "application/pdf".toList.isPrefixOf mimeType.toList then "document" else "image"
      .ok [.media type mimeType base64Data]

def convertParts (services : Services) : List Part → Except Failure (List ClaudeBlock)
  | [] => .ok []
  | part :: rest =>
    match convertPart services part with
    | .error failure => .error failure
    | .ok blocks =>
      match convertParts services rest with
      | .error failure => .error failure
      | .ok later => .ok (blocks ++ later)

def convertToolCalls (services : Services) (toolCalls : List ToolCall) : List ClaudeBlock :=
  toolCalls.filterMap fun toolCall =>
    (services.unmarshalObject toolCall.arguments).map fun input =>
      .toolUse toolCall.id toolCall.name input

/-- `ParseContent`. -/
def Content.parseContent : Content → List Part
  | .string content => [.text content]
  | .parts list => list
  | _ => []

def convertContent (services : Services) (message : Message) : Except Failure ClaudeContent :=
  if message.content.isString ∧ message.toolCalls = none then
    let text := message.content.stringContent
    .ok (.string (if text = "" then "..." else text))
  else
    match convertParts services message.content.parseContent with
    | .error failure => .error failure
    | .ok blocks => .ok (.blocks (blocks ++ convertToolCalls services (message.toolCalls.getD [])))

def ClaudeContent.toBlocks : ClaudeContent → List ClaudeBlock
  | .string content => [.text content]
  | .blocks list => list

def appendToolResult (messages : List ClaudeMessage) (block : ClaudeBlock) : List ClaudeMessage :=
  match messages.getLast? with
  | some last =>
    if last.role = .user then
      messages.dropLast ++ [{ last with content := .blocks (last.content.toBlocks ++ [block]) }]
    else messages ++ [⟨.user, .blocks [block]⟩]
  | none => messages ++ [⟨.user, .blocks [block]⟩]

def opening (progress : Progress) (message : Message) : List ClaudeMessage :=
  if progress.isFirstMessage ∧ message.role ≠ .user then [⟨.user, .blocks [.text "..."]⟩] else []

def convertMessage (services : Services) (progress : Progress) (message : Message) :
    Except Failure Progress :=
  if message.role = .system then
    .ok { progress with
      systemMessages := progress.systemMessages ++ systemTexts message.content }
  else
    let messages := progress.messages ++ opening progress message
    if message.role = .tool then
      .ok { progress with
        messages := appendToolResult messages (.toolResult message.toolCallId message.content)
        isFirstMessage := false }
    else
      match convertContent services message with
      | .error failure => .error failure
      | .ok content => .ok { progress with
          messages := messages ++ [⟨message.role, content⟩]
          isFirstMessage := false }

def convertMessages (services : Services) : Progress → List Message → Except Failure Progress
  | progress, [] => .ok progress
  | progress, message :: rest =>
    match convertMessage services progress message with
    | .error failure => .error failure
    | .ok progress => convertMessages services progress rest

def requestOpenAI2ClaudeMessage (services : Services) (textRequest : Request) :
    Except Failure ClaudeRequest :=
  match convertTools textRequest.tools with
  | .error failure => .error failure
  | .ok tools =>
    match convertStop textRequest.stop with
    | .error failure => .error failure
    | .ok stopSequences =>
      match convertMessages services ⟨[], true, []⟩ (formatMessages textRequest.messages) with
      | .error failure => .error failure
      | .ok progress => .ok ⟨tools, stopSequences, progress.systemMessages, progress.messages⟩

inductive Item where
  | text (text : String)
  | toolUse (id name input : String)
  | toolResult (toolUseId : String) (content : Content)

def Content.texts (content : Content) : List Item := (systemTexts content).map .text

def Message.toolUses (services : Services) (message : Message) : List Item :=
  (message.toolCalls.getD []).filterMap fun toolCall =>
    (services.unmarshalObject toolCall.arguments).map fun input =>
      .toolUse toolCall.id toolCall.name input

/-- The items of a chat message: its texts that are not empty and its tool calls with an object,
or its tool result. -/
def Message.items (services : Services) (message : Message) : List Item :=
  if message.role = .tool then [.toolResult message.toolCallId message.content.filled]
  else message.content.texts ++ message.toolUses services

def ClaudeBlock.item? : ClaudeBlock → Option Item
  | .text content => some (.text content)
  | .toolUse id name input => some (.toolUse id name input)
  | .toolResult toolUseId content => some (.toolResult toolUseId content)
  | .media _ _ _ => none

def ClaudeMessage.items (message : ClaudeMessage) : List Item :=
  message.content.toBlocks.filterMap ClaudeBlock.item?

/-- A text says some texts: it is one of them, or dots for none, or a text that says the first
ones with the next one after a space. -/
inductive Says : List String → String → Prop where
  | dots : Says [] "..."
  | one {s : String} (h : s ≠ "") : Says [s] s
  | more {texts : List String} {said : String} (h : Says texts said) (s : String) :
      Says (texts ++ if s = "" then [] else [s]) (said ++ " " ++ s)

/-- Items read off a Claude request: the same ones in the same order, with texts put together. -/
inductive Reads : List Item → List Item → Prop where
  | nil : Reads [] []
  | text {texts : List String} {said : String} {items shown : List Item} (h : Says texts said)
      (hrest : Reads items shown) : Reads (texts.map .text ++ items) (.text said :: shown)
  | same (item : Item) {items shown : List Item} (hrest : Reads items shown) :
      Reads (item :: items) (item :: shown)

structure Kept (services : Services) (request : Request) (claude : ClaudeRequest) : Prop where
  conversation : Reads
    ((request.messages.filter fun message => message.role ≠ .system).flatMap (Message.items services))
    (claude.messages.flatMap ClaudeMessage.items)
  system : Reads
    ((request.messages.filter fun message => message.role = .system).flatMap (Message.items services))
    (claude.system.map .text)
  roles : ∀ message ∈ claude.messages, message.role = .user ∨ message.role = .assistant
  first : ∀ message ∈ claude.messages.head?, message.role = .user

def startsQuoted (s : String) : Bool := s.toList.head? = some '"'

def endsQuoted (s : String) : Bool := s.toList.getLast? = some '"'

def Neighbours (message next : Message) : Prop :=
  message.role = next.role ∧ message.role ≠ .tool ∧
    (message.content.isString = true ∨ message.content = .null) ∧ next.content.isString = true

/-- Neighbours lose nothing: no quote at the outer ends, no tool calls in the earlier one. -/
def JoinsWell (services : Services) (message next : Message) : Prop :=
  Neighbours message next → startsQuoted message.content.stringContent = false ∧
    endsQuoted next.content.stringContent = false ∧ message.toolUses services = []

instance (services : Services) (message next : Message) : Decidable (JoinsWell services message next) :=
  inferInstanceAs (Decidable (_ = _ ∧ _ ≠ _ ∧ (_ = true ∨ _ = Content.null) ∧ _ = true →
    _ = false ∧ _ = false ∧ _ = []))

structure Carried (services : Services) (request : Request) : Prop where
  schemas : ∀ tool ∈ request.tools, ∀ params ∈ tool.parameters,
    ∀ encoded, params.lookup "type" ≠ some (.other encoded)
  stops : ∀ stops, request.stop = .array stops → ∀ stop ∈ stops, ∃ s, stop = .string s
  roles : ∀ message ∈ request.messages,
    message.role = .system ∨ message.role = .user ∨ message.role = .assistant ∨ message.role = .tool
  calls : ∀ message ∈ request.messages, message.role ≠ .assistant → message.role ≠ .tool →
    message.toolUses services = []
  joined : request.messages.IsChain (JoinsWell services)

theorem Reads.append {items shown later laterShown : List Item} (h : Reads items shown)
    (hlater : Reads later laterShown) : Reads (items ++ later) (shown ++ laterShown) := by
  induction h with
  | nil => exact hlater
  | text htexts _ ih =>
    rw [List.append_assoc]
    exact .text htexts ih
  | same item _ ih => exact .same item ih

theorem Reads.refl (items : List Item) : Reads items items := by
  induction items with
  | nil => exact .nil
  | cons item rest ih => exact .same item ih

theorem Reads.dots {items shown : List Item} (h : Reads items shown) :
    Reads items (.text "..." :: shown) := .text .dots h

def formatFrom : Message → List Message → List Message
  | last, [] => [last]
  | last, message :: rest =>
    if joins last message then formatFrom (fmtMessage last message) rest
    else last :: formatFrom (fmtMessage last message) rest

structure Held (services : Services) (run : List Item) (prev last : Message) : Prop where
  role : last.role = prev.role
  content : last.content.isString = true ↔ prev.content.isString = true ∨ prev.content = .null
  reads : Reads run (last.items services)
  texts : last.role ≠ .tool → last.content.isString = true → prev.toolUses services = [] →
    ∃ texts, run = texts.map .text ∧ Says texts last.content.stringContent
  start : last.role ≠ .tool → startsQuoted prev.content.stringContent = false →
    startsQuoted last.content.stringContent = false
  calls : last.toolCalls = if last.role = .assistant then prev.toolCalls else none
  nonempty : last.content ≠ .string ""

variable (content : Content) (block : ClaudeBlock)

section Joining

variable {services : Services}

/-- Only an assistant calls tools. -/
def CallsKept (services : Services) (message : Message) : Prop :=
  message.role ≠ .assistant → message.role ≠ .tool → message.toolUses services = []

end Joining

def itemsOn (services : Services) (p : Role → Bool) (message : Message) : List Item :=
  if p message.role then message.items services else []

variable {rest : List Message} {services : Services}

structure Formatted (message : Message) : Prop where
  nonempty : message.content ≠ .string ""
  calls : message.role ≠ .assistant → message.toolCalls = none
  filled : message.role = .tool → message.content.filled = message.content

structure FormatsTo (services : Services) (messages formatted : List Message) : Prop where
  reads : ∀ p : Role → Bool, Reads (messages.flatMap (itemsOn services p))
    (formatted.flatMap (itemsOn services p))
  wellFormed : ∀ message ∈ formatted, Formatted message
  roles : ∀ message ∈ formatted, ∃ m ∈ messages, message.role = m.role

def notSystem (role : Role) : Bool := role ≠ .system

def isSystem (role : Role) : Bool := role = .system

structure Sound (progress : Progress) : Prop where
  roles : ∀ message ∈ progress.messages, message.role = .user ∨ message.role = .assistant
  first : ∀ message ∈ progress.messages.head?, message.role = .user
  begun : progress.isFirstMessage = true → progress.messages = []
  running : progress.isFirstMessage = false → progress.messages ≠ []

structure Adds (services : Services) (formatted : List Message) (progress later : Progress) : Prop where
  sound : Sound later
  items : ∃ opened, (opened = [] ∨ progress.isFirstMessage = true ∧ opened = [.text "..."]) ∧
    later.messages.flatMap ClaudeMessage.items = progress.messages.flatMap ClaudeMessage.items ++
      (opened ++ formatted.flatMap (itemsOn services notSystem))
  first : later.isFirstMessage = true → progress.isFirstMessage = true
  system : later.systemMessages.map Item.text =
    progress.systemMessages.map Item.text ++ formatted.flatMap (itemsOn services isSystem)

section Building

variable {services : Services} {progress later : Progress} {message : Message}

theorem Adds.trans {first rest : List Message} {middle : Progress}
    (h : Adds services first progress middle) (hrest : Adds services rest middle later) :
    Adds services (first ++ rest) progress later := by
  obtain ⟨opened, hopened, hitems⟩ := h.items
  obtain ⟨opened', hopened', hitems'⟩ := hrest.items
  refine ⟨hrest.sound, ?_, fun hf => h.first (hrest.first hf), ?_⟩
  · rcases hopened' with hnone | ⟨hfirst, hdots⟩
    · refine ⟨opened, hopened, ?_⟩
      simp [hitems', hitems, hnone]
    · -- nothing was there before the opening
      have hempty : middle.messages = [] := h.sound.begun hfirst
      rw [hempty, flatMap_nil] at hitems
      obtain ⟨hbefore, hadded⟩ := append_eq_nil_iff.mp hitems.symm
      obtain ⟨-, hfirstItems⟩ := append_eq_nil_iff.mp hadded
      refine ⟨opened', .inr ⟨h.first hfirst, hdots⟩, ?_⟩
      simp only [hitems', hempty, flatMap_nil, hbefore, flatMap_append, hfirstItems,
        nil_append]
  · rw [hrest.system, h.system, List.flatMap_append, List.append_assoc]

end Building

def sampleServices : Services := ⟨some, fun _ => .error "no file"⟩

def toolRequest : Request where
  tools := [⟨"weather", "", some [("type", .string "object")]⟩]
  stop := .array [.string "END"]
  messages := [⟨.system, .string "Be brief.", "", none⟩, ⟨.user, .string "Hello.", "", none⟩,
    ⟨.user, .string "Weather?", "", none⟩,
    ⟨.assistant, .null, "", some [⟨"call_1", "weather", "[]"⟩]⟩,
    ⟨.tool, .string "sunny", "call_1", none⟩]

end ChatToClaude
