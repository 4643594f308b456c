import TinyToken.GoText
import TinyToken.StepMachines

/-! Header and parameter overrides of channels across the attempts of one request, which share one
`RelayInfo`. A parameter override is a list of operations on the body and on the header overrides
in a context; the operations on the body alone may be any function of the body and the context.
Header values are the texts `%v` makes of them, maps are lists of entries. -/
namespace HeaderOverrides

open GoText StepMachines

abbrev Headers := List (String × String)

def Headers.put (headers : Headers) (key value : String) : Headers :=
  headers.filter (fun entry => entry.1 ≠ key) ++ [(key, value)]

def Headers.delete (headers : Headers) (key : String) : Headers :=
  headers.filter fun entry => entry.1 ≠ key

def normalizeHeaderContextKey (key : String) : String := trimSpace (toLower key)

def hasLead (s lead : String) : Bool := lead.toList.isPrefixOf s.toList

def isHeaderPassthroughRuleKeyForOverride (key : String) : Bool :=
  let key := trimSpace (toLower key)
  key ≠ "" && (key = "*" || hasLead key "re:" || hasLead key "regex:")

def sanitizeHeaderOverrideMap (source : Headers) : Headers :=
  source.foldl (fun target entry =>
    let normalizedKey := normalizeHeaderContextKey entry.1
    let normalizedValue := trimSpace entry.2
    if normalizedKey = "" then target
    else if normalizedValue = "" then
      if isHeaderPassthroughRuleKeyForOverride normalizedKey then target.put normalizedKey ""
      else target
    else target.put normalizedKey normalizedValue) []

def buildRequestHeadersContext (headers : Headers) : Headers :=
  headers.foldl (fun target entry =>
    let normalized := normalizeHeaderContextKey entry.1
    let value := trimSpace entry.2
    if normalized = "" ∨ value = "" then target else target.put normalized value) []

structure ApiError where
  statusCode : ℤ
  message : String
  code : String
  errorType : String
  skipRetry : Bool

structure Context where
  model : Option String
  upstreamModel : Option String
  originalModel : Option String
  requestPath : Option String
  requestHeaders : Headers
  headerOverride : Headers
  retryIndex : ℕ
  lastError : Option ApiError
  isChannelTest : Bool

inductive OverrideError where
  | sourceNotFound (header : String)
  /-- the error an operation `return_error` asks for -/
  | returned (error : ApiError)
  | other (message : String)

variable (context : Context)

def getHeaderValueFromContext (headerName : String) : Option String :=
  let headerName := normalizeHeaderContextKey headerName
  if headerName = "" then none
  else
    [context.headerOverride, context.requestHeaders].findSome? fun source =>
      ((source.lookup headerName).map trimSpace).filter (· ≠ "")

inductive Replacement where
  | tokens (list : List String)
  | flag (b : Bool)
  | object

inductive HeaderValue where
  | missing
  | text (value : String)
  | mapping (entries : List (String × Replacement))

def splitHeaderListValue (raw : String) : List String :=
  ((splitAt (· = ',') raw).map trimSpace).filter (· ≠ "")

def parseHeaderReplacementTokens : Replacement → Except OverrideError (List String)
  | .tokens list => .ok (list.flatMap splitHeaderListValue).eraseDups
  | .flag b => .ok [if b then "true" else "false"]
  | .object => .error (.other "header replacement value must be string, array or null")

def parseHeaderKeepOnlyDeclared (mapping : List (String × Replacement)) : Bool :=
  match mapping.lookup "$keep_only_declared" with
  | some (.flag b) => b
  | _ => false

def replaceToken (mapping : List (String × Replacement)) (token : String) :
    Except OverrideError (List String) :=
  let keepOnlyDeclared := parseHeaderKeepOnlyDeclared mapping
  match mapping.lookup token with
  | some replacement => parseHeaderReplacementTokens replacement
  | none =>
    match mapping.lookup "*" with
    | some replacement =>
      if keepOnlyDeclared then .ok [] else parseHeaderReplacementTokens replacement
    | none => if keepOnlyDeclared then .ok [] else .ok [token]

/-- The value of a header by a mapping of its tokens; none if no token is left. -/
def resolveHeaderOverrideValueByMapping (headerName : String)
    (mapping : List (String × Replacement)) : Except OverrideError (Option String) := do
  if mapping = [] then throw (.other "header value mapping cannot be empty")
  let appendTokens ←
    match mapping.lookup "$append" with
    | some replacement => parseHeaderReplacementTokens replacement
    | none => pure []
  let sourceTokens := ((getHeaderValueFromContext context headerName).map splitHeaderListValue).getD []
  let replaced ← sourceTokens.mapM (replaceToken mapping)
  let resultTokens := (replaced.flatten ++ appendTokens).eraseDups
  pure (if resultTokens = [] then none else some (",".intercalate resultTokens))

def resolveHeaderOverrideValue (headerName : String) :
    HeaderValue → Except OverrideError (Option String)
  | .missing => .error (.other "header value is required")
  | .mapping entries => resolveHeaderOverrideValueByMapping context headerName entries
  | .text value => .ok (if trimSpace value = "" then none else some (trimSpace value))

def setHeaderOverrideInContext (headerName : String) (value : HeaderValue) (keepOrigin : Bool) :
    Except OverrideError Context := do
  let headerName := normalizeHeaderContextKey headerName
  if headerName = "" then throw (.other "header name is required")
  let existing := (context.headerOverride.lookup headerName).map trimSpace
  if keepOrigin = true ∧ existing ≠ none ∧ existing ≠ some "" then pure context
  else
    match ← resolveHeaderOverrideValue context headerName value with
    | none => pure { context with headerOverride := context.headerOverride.delete headerName }
    | some headerValue =>
      pure { context with headerOverride := context.headerOverride.put headerName headerValue }

def copyHeaderInContext (fromHeader toHeader : String) (keepOrigin : Bool) :
    Except OverrideError Context := do
  let fromHeader := normalizeHeaderContextKey fromHeader
  let toHeader := normalizeHeaderContextKey toHeader
  if fromHeader = "" ∨ toHeader = "" then throw (.other "copy_header from/to is required")
  match getHeaderValueFromContext context fromHeader with
  | none => throw (.sourceNotFound fromHeader)
  | some value => setHeaderOverrideInContext context toHeader (.text value) keepOrigin

def deleteHeaderOverrideInContext (headerName : String) : Except OverrideError Context := do
  let headerName := normalizeHeaderContextKey headerName
  if headerName = "" then throw (.other "header name is required")
  pure { context with headerOverride := context.headerOverride.delete headerName }

def moveHeaderInContext (fromHeader toHeader : String) (keepOrigin : Bool) :
    Except OverrideError Context := do
  let fromHeader := normalizeHeaderContextKey fromHeader
  let toHeader := normalizeHeaderContextKey toHeader
  if fromHeader = "" ∨ toHeader = "" then throw (.other "move_header from/to is required")
  let context ← copyHeaderInContext context fromHeader toHeader keepOrigin
  if fromHeader = toHeader then pure context else deleteHeaderOverrideInContext context fromHeader

structure BodyAccess (B : Type) where
  read : B → String → Option HeaderValue
  write : B → String → HeaderValue → Except OverrideError B

inductive Mode (B : Type) where
  /-- the modes that change the body only, and `return_error` -/
  | edit (apply : B → Context → Except OverrideError B)
  | setHeader (value : HeaderValue)
  | deleteHeader
  | copyHeader
  | moveHeader
  | passHeaders (headerNames : Except OverrideError (List String))
  | syncFields

structure Operation (B : Type) where
  mode : Mode B
  path : String
  fromPath : String
  toPath : String
  keepOrigin : Bool
  conditions : B → Context → Except OverrideError Bool

inductive SyncTarget where
  | json (key : String)
  | header (key : String)

def parseSyncTarget (spec : String) : Except OverrideError SyncTarget :=
  let raw := trimSpace spec
  if raw = "" then .error (.other "sync_fields target is required")
  else if ':' ∉ raw.toList then .ok (.json raw)
  else
    let kind := toLower (trimSpace (before ':' raw))
    let key := trimSpace (String.ofList ((raw.toList.dropWhile (· ≠ ':')).drop 1))
    if key = "" then .error (.other ("sync_fields target key is required: " ++ raw))
    else if kind = "json" ∨ kind = "body" then .ok (.json key)
    else if kind = "header" then .ok (.header key)
    else .error (.other ("sync_fields target prefix is invalid: " ++ raw))

section Apply

variable {B : Type} (access : BodyAccess B)

def readSyncTargetValue (body : B) (context : Context) : SyncTarget → Option HeaderValue
  | .json key =>
    match access.read body key with
    | some (.text value) => if trimSpace value = "" then none else some (.text value)
    | value => value
  | .header key => (getHeaderValueFromContext context key).map .text

def writeSyncTargetValue (body : B) (context : Context) (value : HeaderValue) :
    SyncTarget → Except OverrideError (B × Context)
  | .json key => do pure (← access.write body key value, context)
  | .header key => do pure (body, ← setHeaderOverrideInContext context key value false)

def syncFieldsBetweenTargets (body : B) (context : Context) (fromSpec toSpec : String) :
    Except OverrideError (B × Context) := do
  let fromTarget ← parseSyncTarget fromSpec
  let toTarget ← parseSyncTarget toSpec
  match readSyncTargetValue access body context fromTarget,
    readSyncTargetValue access body context toTarget with
  | some value, none => writeSyncTargetValue access body context value toTarget
  | none, some value => writeSyncTargetValue access body context value fromTarget
  | _, _ => pure (body, context)

def ignoreNotFound (context : Context) : Except OverrideError Context → Except OverrideError Context
  | .error (.sourceNotFound _) => .ok context
  | result => result

def failed {α : Type} (mode : String) : Except OverrideError α → Except OverrideError α
  | .error (.other message) => .error (.other ("operation " ++ mode ++ " failed: " ++ message))
  | result => result

def orPath (name path : String) : String :=
  if trimSpace name = "" then trimSpace path else trimSpace name

def applyMode (body : B) (context : Context) (op : Operation B) : Except OverrideError (B × Context) :=
  match op.mode with
  | .edit apply => do pure (← apply body context, context)
  | .setHeader value =>
    do pure (body, ← failed "set_header"
      (setHeaderOverrideInContext context op.path value op.keepOrigin))
  | .deleteHeader =>
    do pure (body, ← failed "delete_header" (deleteHeaderOverrideInContext context op.path))
  | .copyHeader =>
    do pure (body, ← failed "copy_header" (ignoreNotFound context (copyHeaderInContext context
      (orPath op.fromPath op.path) (orPath op.toPath op.path) op.keepOrigin)))
  | .moveHeader =>
    do pure (body, ← failed "move_header" (ignoreNotFound context (moveHeaderInContext context
      (orPath op.fromPath op.path) (orPath op.toPath op.path) op.keepOrigin)))
  | .passHeaders headerNames => do
    let names ← headerNames
    let context ← failed "pass_headers" (names.foldlM (fun context name =>
      ignoreNotFound context (copyHeaderInContext context name name op.keepOrigin)) context)
    pure (body, context)
  | .syncFields =>
    failed "sync_fields" (syncFieldsBetweenTargets access body context op.fromPath op.toPath)

def applyOperations (operations : List (Operation B)) (body : B) (context : Context) :
    Except OverrideError (B × Context) :=
  operations.foldlM (fun (body, context) op => do
    if ← op.conditions body context then applyMode access body context op
    else pure (body, context)) (body, context)

end Apply

/-- What concerns overrides in the configuration of a channel. A parameter override that is none
is an empty map; one that has no operations may still have other keys. -/
structure Channel (B : Type) where
  headersOverride : Headers
  paramOverride : Option (List (Operation B))
  passThroughBodyEnabled : Bool
  upstreamModelName : String
  convertedBody : B

structure Request (B : Type) where
  originModelName : String
  requestURLPath : String
  requestHeaders : Headers
  isChannelTest : Bool
  body : B

structure RelayInfo (B : Type) where
  request : Request B
  retryIndex : ℕ
  lastError : Option ApiError
  runtimeHeadersOverride : Headers
  useRuntimeHeadersOverride : Bool
  channelMeta : Option (Channel B)

section Attempts

variable {B : Type}

variable (info : RelayInfo B) (channel : Channel B)

/-- `InitChannelMeta`: the channel is replaced, nothing else is reset. -/
def initChannelMeta : RelayInfo B :=
  { info with channelMeta := some channel }

def getHeaderOverrideMap : Headers :=
  (info.channelMeta.map Channel.headersOverride).getD []

def getEffectiveHeaderOverride : Headers :=
  if info.useRuntimeHeadersOverride then sanitizeHeaderOverrideMap info.runtimeHeadersOverride
  else sanitizeHeaderOverrideMap (getHeaderOverrideMap info)

def nonEmpty (s : String) : Option String := if s = "" then none else some s

def buildParamOverrideContext : Context :=
  let upstream := (info.channelMeta.map Channel.upstreamModelName).bind nonEmpty
  let origin := nonEmpty info.request.originModelName
  { model := upstream <|> origin
    upstreamModel := upstream
    originalModel := origin
    requestPath := nonEmpty info.request.requestURLPath
    requestHeaders := buildRequestHeadersContext info.request.requestHeaders
    headerOverride := sanitizeHeaderOverrideMap (getEffectiveHeaderOverride info)
    retryIndex := info.retryIndex
    lastError := info.lastError
    isChannelTest := info.request.isChannelTest }

def syncRuntimeHeaderOverrideFromContext (context : Context) : RelayInfo B :=
  { info with
    runtimeHeadersOverride := sanitizeHeaderOverrideMap context.headerOverride
    useRuntimeHeadersOverride := true }

def applyParamOverrideWithRelayInfo (access : BodyAccess B) (body : B) (info : RelayInfo B) :
    Except OverrideError B × RelayInfo B :=
  match info.channelMeta.bind Channel.paramOverride with
  | none => (.ok body, info)
  | some operations =>
    match applyOperations access operations body (buildParamOverrideContext info) with
    | .error e => (.error e, info)
    | .ok (result, context) => (.ok result, syncRuntimeHeaderOverrideFromContext info context)

/-- What an attempt uses and sends: the context of its parameter override, the body, and the
header overrides of the request to the channel. -/
structure Sent (B : Type) where
  context : Context
  body : B
  headerOverride : Headers

/-- `newAPIErrorFromParamOverride`. -/
def paramOverrideError : OverrideError → ApiError
  | .returned error => error
  | .sourceNotFound header =>
    ⟨500, "source header does not exist: " ++ header, "channel:param_override_invalid",
      "new_api_error", true⟩
  | .other message => ⟨500, message, "channel:param_override_invalid", "new_api_error", true⟩

/-- One attempt on a channel, with the error its upstream answers with; what the loop keeps for
the next attempt. -/
def attempt (access : BodyAccess B) (info : RelayInfo B) (tried : Channel B × ApiError) :
    Except ApiError (Sent B) × RelayInfo B :=
  let info := initChannelMeta info tried.1
  let context := buildParamOverrideContext info
  let applied :=
    if tried.1.passThroughBodyEnabled then (.ok info.request.body, info)
    else applyParamOverrideWithRelayInfo access tried.1.convertedBody info
  match applied with
  | (.error e, info) =>
    (.error (paramOverrideError e),
      { info with retryIndex := info.retryIndex + 1, lastError := some (paramOverrideError e) })
  | (.ok body, info) =>
    (.ok ⟨context, body, getEffectiveHeaderOverride info⟩,
      { info with retryIndex := info.retryIndex + 1, lastError := some tried.2 })

def start (request : Request B) : RelayInfo B := ⟨request, 0, none, [], false, none⟩

def attemptAfter (access : BodyAccess B) (request : Request B) (earlier : List (Channel B × ApiError))
    (channel : Channel B) : Except ApiError (Sent B) :=
  -- the answer of the last upstream has no influence on what is sent to it
  (attempt access (after (attempt access) (start request) earlier)
    (channel, ⟨0, "", "", "", false⟩)).1

/-- Two channels that differ in nothing but their overrides, tried with the same result. -/
structure Alike (a b : Channel B × ApiError) : Prop where
  passThroughBodyEnabled : a.1.passThroughBodyEnabled = b.1.passThroughBodyEnabled
  upstreamModelName : a.1.upstreamModelName = b.1.upstreamModelName
  convertedBody : a.1.convertedBody = b.1.convertedBody
  error : a.2 = b.2

def Inert : Prop :=
  channel.passThroughBodyEnabled = true ∨ channel.paramOverride = none

/-- The parts of the shared state that an attempt reads and that earlier attempts may write. -/
structure SameForNext (a b : RelayInfo B) : Prop where
  request : a.request = b.request
  retryIndex : a.retryIndex = b.retryIndex
  lastError : a.lastError = b.lastError
  useLeft : a.useRuntimeHeadersOverride = false
  useRight : b.useRuntimeHeadersOverride = false

theorem attempt_inert (access : BodyAccess B) (info : RelayInfo B) (tried : Channel B × ApiError)
    (h : Inert tried.1) :
    ∃ body, attempt access info tried =
      (.ok ⟨buildParamOverrideContext (initChannelMeta info tried.1), body,
          getEffectiveHeaderOverride (initChannelMeta info tried.1)⟩,
        { initChannelMeta info tried.1 with
          retryIndex := info.retryIndex + 1, lastError := some tried.2 }) := by
  rcases h with h | h
  · refine ⟨info.request.body, ?_⟩
    unfold attempt
    simp only [h, if_true]
    rfl
  · refine ⟨if tried.1.passThroughBodyEnabled then info.request.body else tried.1.convertedBody, ?_⟩
    unfold attempt applyParamOverrideWithRelayInfo
    by_cases hp : tried.1.passThroughBodyEnabled = true
    · simp only [hp, if_true]
      rfl
    · simp only [hp, initChannelMeta, Option.bind_some, h]
      rfl

variable {a b : RelayInfo B} {access : BodyAccess B}

theorem sameForNext_attempt
    {tried tried' : Channel B × ApiError} (h : SameForNext a b) (halike : Alike tried tried')
    (hi : Inert tried.1) (hi' : Inert tried'.1) :
    SameForNext (attempt access a tried).2 (attempt access b tried').2 := by
  obtain ⟨body, hbody⟩ := attempt_inert access a tried hi
  obtain ⟨body', hbody'⟩ := attempt_inert access b tried' hi'
  rw [hbody, hbody']
  constructor
  · exact h.request
  · exact congrArg (· + 1) h.retryIndex
  · exact congrArg some halike.error
  · exact h.useLeft
  · exact h.useRight

theorem sameForNext_after {earlier earlier' : List (Channel B × ApiError)} (h : SameForNext a b)
    (halike : List.Forall₂ Alike earlier earlier') (hi : ∀ tried ∈ earlier, Inert tried.1)
    (hi' : ∀ tried ∈ earlier', Inert tried.1) :
    SameForNext (after (attempt access) a earlier) (after (attempt access) b earlier') := by
  induction halike generalizing a b with
  | nil => exact h
  | cons hhead _ ih =>
    rw [List.forall_mem_cons] at hi hi'
    exact ih (sameForNext_attempt h hhead hi.1 hi'.1) hi.2 hi'.2

theorem effective_of_unused {info : RelayInfo B} (h : info.useRuntimeHeadersOverride = false)
    (channel : Channel B) :
    getEffectiveHeaderOverride (initChannelMeta info channel) =
      sanitizeHeaderOverrideMap channel.headersOverride := by
  unfold getEffectiveHeaderOverride initChannelMeta
  simp only [h, Bool.false_eq_true, if_false]
  rfl

theorem context_same (h : SameForNext a b) (channel : Channel B) :
    buildParamOverrideContext (initChannelMeta a channel) =
      buildParamOverrideContext (initChannelMeta b channel) := by
  unfold buildParamOverrideContext
  rw [effective_of_unused h.useLeft, effective_of_unused h.useRight]
  simp only [initChannelMeta, h.request, h.retryIndex, h.lastError]

theorem attempt_same (h : SameForNext a b)
    (tried : Channel B × ApiError) : (attempt access a tried).1 = (attempt access b tried).1 := by
  have hcontext := context_same h tried.1
  have hleft := effective_of_unused h.useLeft tried.1
  have hright := effective_of_unused h.useRight tried.1
  unfold attempt
  dsimp only
  by_cases hp : tried.1.passThroughBodyEnabled = true
  · rw [if_pos hp, if_pos hp]
    simp only [hcontext, hleft, hright]
    rw [show (initChannelMeta a tried.1).request = (initChannelMeta b tried.1).request from h.request]
  · rw [if_neg hp, if_neg hp]
    unfold applyParamOverrideWithRelayInfo
    simp only [hcontext]
    simp only [initChannelMeta, Option.bind_some] at hleft hright ⊢
    cases tried.1.paramOverride with
    | none => simp only [hleft, hright]
    | some operations =>
      dsimp only
      generalize applyOperations access operations tried.1.convertedBody _ = applied
      cases applied with
      | error e => rfl
      | ok result => rfl

/-- What is sent to a channel depends on the client's request, on the channel and on how the
attempts before it failed, and not on the overrides of the channels tried before, if no parameter
override was applied for any of them. -/
theorem sent_depends_on_own_channel (access : BodyAccess B) (request : Request B)
    (earlier earlier' : List (Channel B × ApiError)) (halike : List.Forall₂ Alike earlier earlier')
    (hinert : ∀ tried ∈ earlier, Inert tried.1) (hinert' : ∀ tried ∈ earlier', Inert tried.1)
    (channel : Channel B) :
    attemptAfter access request earlier channel = attemptAfter access request earlier' channel := by
  have hstart : SameForNext (start request) (start request) := by
    constructor <;> rfl
  exact attempt_same (sameForNext_after hstart halike hinert hinert') _

end Attempts

def sampleAccess : BodyAccess Unit := ⟨fun _ _ => none, fun body _ _ => .ok body⟩

def sampleRequest : Request Unit := ⟨"gpt-5", "/v1/chat/completions", [], false, ()⟩

def sampleError : ApiError := ⟨500, "upstream error", "bad_response_status_code", "openai_error", false⟩

def sampleChannel (headersOverride : Headers) (paramOverride : Option (List (Operation Unit))) :
    Channel Unit :=
  ⟨headersOverride, paramOverride, false, "gpt-5", ()⟩

/-- The header overrides of a first channel without parameter override do not matter. -/
theorem header_override_stays_with_channel : attemptAfter sampleAccess sampleRequest
        [(sampleChannel [("Authorization", "Bearer first")] none, sampleError)]
        (sampleChannel [("X-Own", "2")] none) =
      attemptAfter sampleAccess sampleRequest [(sampleChannel [] none, sampleError)]
        (sampleChannel [("X-Own", "2")] none) :=
  sent_depends_on_own_channel sampleAccess sampleRequest _ _
    (.cons ⟨rfl, rfl, rfl, rfl⟩ .nil) (by rintro _ (_ | ⟨_, ⟨⟩⟩); exact .inr rfl)
    (by rintro _ (_ | ⟨_, ⟨⟩⟩); exact .inr rfl) _

def sentHeaders {B : Type} : Except ApiError (Sent B) → Option Headers
  | .ok sent => some sent.headerOverride
  | .error _ => none

/-- With a parameter override, even one without operations, the header overrides of the first
channel are sent to the second one in place of its own. -/
theorem header_override_leaks :
    ∃ (earlier earlier' : List (Channel Unit × ApiError)) (channel : Channel Unit),
      List.Forall₂ Alike earlier earlier' ∧
      sentHeaders (attemptAfter sampleAccess sampleRequest earlier channel) =
        some [("authorization", "Bearer first")] ∧
      sentHeaders (attemptAfter sampleAccess sampleRequest earlier' channel) = some [("x-own", "2")] :=
  ⟨[(sampleChannel [("Authorization", "Bearer first")] (some []), sampleError)],
    [(sampleChannel [] none, sampleError)], sampleChannel [("X-Own", "2")] none,
    .cons ⟨rfl, rfl, rfl, rfl⟩ .nil, by decide +kernel, by decide +kernel⟩

end HeaderOverrides
