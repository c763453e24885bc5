import NomoApi.Lib.Table
import NomoApi.Lib.Text

/-! # Parameter overrides and their header operations

`relay/common/override.go`. A *parameter override* is a list of operations that are applied to the
JSON body of a request before it is sent. The header operations edit the `header_override` map of a
context instead, which is made from the channel's header overrides and read back when all operations
have succeeded. They are modelled in full; the body is an arbitrary type, and what is done to it is
left to a `JsonEngine`. -/

namespace NomoApi

/-! ### Values, header maps and the context -/

inductive JsonValue where
  | null
  | bool (b : Bool)
  /-- A number, by the text that `%v` prints for it. -/
  | num (text : String)
  | str (s : String)
  | arr (items : List JsonValue)
  | obj (fields : List (String × JsonValue))

abbrev HeaderMap := Table (String × String) Prod.fst

def headerValue (m : HeaderMap) (name : String) : Option String := (m.find? name).map Prod.snd

inductive OverrideError where
  /-- Ignored by `copy_header`, `move_header` and `pass_headers`. -/
  | sourceHeaderNotFound (header : String)
  | text (message : String)
  | returned (message : String) (statusCode : Int) (code type : String) (skipRetry : Bool)
  deriving DecidableEq

structure LastError where
  statusCode : Int
  message : String
  code : String
  type : String
  skipRetry : Bool
  deriving DecidableEq

structure OverrideContext where
  upstreamModel : String
  originalModel : String
  requestPath : String
  requestHeaders : HeaderMap
  headerOverride : HeaderMap
  retryIndex : Nat
  lastError : Option LastError
  isChannelTest : Bool

/-! ### Operations -/

inductive ParamMode where
  | body (name : String)
  | returnError
  | setHeader
  | deleteHeader
  | copyHeader
  | moveHeader
  | passHeaders
  | syncFields
  | unknown (name : String)
  deriving DecidableEq

def ParamMode.name : ParamMode → String
  | .body name => name
  | .returnError => "return_error"
  | .setHeader => "set_header"
  | .deleteHeader => "delete_header"
  | .copyHeader => "copy_header"
  | .moveHeader => "move_header"
  | .passHeaders => "pass_headers"
  | .syncFields => "sync_fields"
  | .unknown name => name

structure ConditionOperation where
  path : String
  mode : String
  value : JsonValue
  invert : Bool
  passMissingKey : Bool

/-- A missing `value` is `null`. -/
structure ParamOperation where
  path : String
  mode : ParamMode
  value : JsonValue
  keepOrigin : Bool
  fromKey : String
  toKey : String
  conditions : List ConditionOperation
  logic : String

/-- **A channel's parameter override**: the operations if they can be parsed, and the other entries.
-/
structure ParamOverride where
  legacy : List (String × JsonValue)
  operations : Option (List ParamOperation)

def ParamOverride.isEmpty (p : ParamOverride) : Bool := p.legacy.isEmpty && p.operations.isNone

/-- **What is done to the JSON body**, and the functions of the Go library. -/
structure JsonEngine (Body : Type) where
  checkConditions : Body → OverrideContext → List ConditionOperation → String →
    Except OverrideError Bool
  edit : ParamOperation → Body → OverrideContext → Except OverrideError Body
  /-- `applyOperationsLegacy`. -/
  merge : Body → List (String × JsonValue) → Except OverrideError Body
  /-- `gjson.Get`, with negative indexes resolved. -/
  get : Body → String → Option JsonValue
  /-- `sjson.Set`, with negative indexes resolved. -/
  set : Body → String → JsonValue → Except OverrideError Body
  /-- `parseParamOverrideReturnError`; either result ends the override. -/
  returnError : JsonValue → OverrideError
  passThroughNames : JsonValue → Except OverrideError (List String)
  /-- `fmt.Sprintf("%v")` of a value that is not a text. -/
  format : JsonValue → String

section Headers
variable (format : JsonValue → String) (ctx : OverrideContext)

def sprint : JsonValue → String
  | .str s => s
  | v => format v

/-! ### Header maps -/

def normalizeHeaderContextKey (key : String) : String := trimSpace (toLower key)

def isHeaderPassthroughRuleKey (key : String) : Bool :=
  let key := trimSpace (toLower key)
  key == "*" || hasPrefix key "re:" || hasPrefix key "regex:"

def sanitizeHeader (target : HeaderMap) (entry : String × JsonValue) : HeaderMap :=
  let normalizedKey := normalizeHeaderContextKey entry.1
  if normalizedKey = "" then target
  else
    let normalizedValue := trimSpace (sprint format entry.2)
    if normalizedValue = "" then
      -- the value of a passthrough rule is not used
      if isHeaderPassthroughRuleKey normalizedKey then target.put (normalizedKey, "") else target
    else target.put (normalizedKey, normalizedValue)

def sanitizeHeaderOverrideMap (source : List (String × JsonValue)) :
    HeaderMap := source.foldl (sanitizeHeader format) .empty

def headerEntries (m : HeaderMap) : List (String × JsonValue) :=
  m.rows.map fun entry => (entry.1, .str entry.2)

def buildRequestHeadersContext (headers : List (String × String)) : HeaderMap :=
  headers.foldl (fun target entry =>
    let normalized := normalizeHeaderContextKey entry.1
    let value := trimSpace entry.2
    if normalized = "" ∨ value = "" then target else target.put (normalized, value)) .empty

/-! ### Header operations -/

def getHeaderValueFromContext (headerName : String) : Option String :=
  let headerName := normalizeHeaderContextKey headerName
  if headerName = "" then none
  else
    let value := fun m => (headerValue m headerName).map trimSpace |>.filter (· ≠ "")
    (value ctx.headerOverride).orElse fun _ => value ctx.requestHeaders

def splitHeaderListValue (raw : String) : List String :=
  ((split raw ',').map trimSpace).filter (· ≠ "")

mutual

def parseHeaderReplacementTokens : JsonValue → Except OverrideError (List String)
  | .null => .ok []
  | .str raw => .ok (splitHeaderListValue raw)
  | .arr items => (parseHeaderReplacementItems items).map (firstByKey id)
  | .obj _ => .error (.text "header replacement value must be string, array or null")
  | .bool b => .ok ([trimSpace (format (.bool b))].filter (· ≠ ""))
  | .num text => .ok ([trimSpace (format (.num text))].filter (· ≠ ""))

def parseHeaderReplacementItems : List JsonValue → Except OverrideError (List String)
  | [] => .ok []
  | item :: items => do
      let itemTokens ← parseHeaderReplacementTokens item
      let tokens ← parseHeaderReplacementItems items
      return itemTokens ++ tokens

end

def fieldOf (mapping : List (String × JsonValue)) (key : String) : Option JsonValue :=
  (mapping.find? (·.1 = key)).map Prod.snd

def parseHeaderKeepOnlyDeclared (mapping : List (String × JsonValue)) : Bool :=
  match fieldOf mapping "$keep_only_declared" with
  | some (.bool b) => b
  | _ => false

def replaceHeaderToken (mapping : List (String × JsonValue))
    (token : String) : Except OverrideError (List String) :=
  let keepOnlyDeclared := parseHeaderKeepOnlyDeclared mapping
  match fieldOf mapping token with
  | some replacement => parseHeaderReplacementTokens format replacement
  | none =>
    match fieldOf mapping "*" with
    | some wildcard =>
      -- `$keep_only_declared` goes before the wildcard
      if keepOnlyDeclared then .ok [] else parseHeaderReplacementTokens format wildcard
    | none => .ok (if keepOnlyDeclared then [] else [token])

def resolveHeaderOverrideValueByMapping (headerName : String)
    (mapping : List (String × JsonValue)) : Except OverrideError (Option String) :=
  if mapping = [] then .error (.text "header value mapping cannot be empty")
  else do
    let appendTokens ←
      match fieldOf mapping "$append" with
      | none => .ok []
      | some raw => parseHeaderReplacementTokens format raw
    let sourceTokens :=
      ((getHeaderValueFromContext ctx headerName).map splitHeaderListValue).getD []
    let replaced ← sourceTokens.mapM (replaceHeaderToken format mapping)
    let resultTokens := firstByKey id (replaced.flatten ++ appendTokens)
    return if resultTokens = [] then none else some (",".intercalate resultTokens)

def resolveHeaderOverrideValue (headerName : String) :
    JsonValue → Except OverrideError (Option String)
  | .null => .error (.text "header value is required")
  | .obj mapping => resolveHeaderOverrideValueByMapping format ctx headerName mapping
  | value =>
    let headerValue := trimSpace (sprint format value)
    .ok (if headerValue = "" then none else some headerValue)

def OverrideContext.withHeaders (headers : HeaderMap) : OverrideContext :=
  { ctx with headerOverride := headers }

def setHeaderOverrideInContext (headerName : String) (value : JsonValue) (keepOrigin : Bool) :
    Except OverrideError OverrideContext :=
  let headerName := normalizeHeaderContextKey headerName
  if headerName = "" then .error (.text "header name is required")
  else if keepOrigin ∧ ((headerValue ctx.headerOverride headerName).map trimSpace).getD "" ≠ "" then
    .ok ctx
  else do
    match ← resolveHeaderOverrideValue format ctx headerName value with
    | none => return ctx.withHeaders (ctx.headerOverride.erase headerName)
    | some value => return ctx.withHeaders (ctx.headerOverride.put (headerName, value))

def deleteHeaderOverrideInContext (headerName : String) : Except OverrideError OverrideContext :=
  let headerName := normalizeHeaderContextKey headerName
  if headerName = "" then .error (.text "header name is required")
  else .ok (ctx.withHeaders (ctx.headerOverride.erase headerName))

def copyHeaderInContext (fromHeader toHeader : String) (keepOrigin : Bool) :
    Except OverrideError OverrideContext :=
  let fromHeader := normalizeHeaderContextKey fromHeader
  let toHeader := normalizeHeaderContextKey toHeader
  if fromHeader = "" ∨ toHeader = "" then .error (.text "copy_header from/to is required")
  else
    match getHeaderValueFromContext ctx fromHeader with
    | none => .error (.sourceHeaderNotFound fromHeader)
    | some value => setHeaderOverrideInContext format ctx toHeader (.str value) keepOrigin

def moveHeaderInContext (fromHeader toHeader : String) (keepOrigin : Bool) :
    Except OverrideError OverrideContext :=
  let fromHeader := normalizeHeaderContextKey fromHeader
  let toHeader := normalizeHeaderContextKey toHeader
  if fromHeader = "" ∨ toHeader = "" then .error (.text "move_header from/to is required")
  else do
    let ctx ← copyHeaderInContext format ctx fromHeader toHeader keepOrigin
    if fromHeader = toHeader then return ctx
    else deleteHeaderOverrideInContext ctx fromHeader

def ignoreMissingSource (res : Except OverrideError OverrideContext) :
    Except OverrideError OverrideContext :=
  match res with
  | .error (.sourceHeaderNotFound _) => .ok ctx
  | res => res

def passHeaders (keepOrigin : Bool) :
    OverrideContext → List String → Except OverrideError OverrideContext
  | ctx, [] => .ok ctx
  | ctx, name :: names => do
      let ctx ← ignoreMissingSource ctx (copyHeaderInContext format ctx name name keepOrigin)
      passHeaders keepOrigin ctx names

end Headers

/-! ### Fields kept in step -/

/-- One side of a `sync_fields` operation (`syncTarget`). -/
inductive SyncTarget where
  | json (key : String)
  | header (key : String)
  deriving DecidableEq

/-- `json:` and `body:` name a path, `header:` a header; without a colon it is a path. -/
def parseSyncTarget (spec : String) : Except OverrideError SyncTarget :=
  let raw := trimSpace spec
  if raw = "" then .error (.text "sync_fields target is required")
  else
    match raw.toList.span (· ≠ ':') with
    | (_, []) => .ok (.json raw)
    | (kind, _ :: key) =>
      let kind := toLower (trimSpace (String.ofList kind))
      let key := trimSpace (String.ofList key)
      if key = "" then .error (.text ("sync_fields target key is required: " ++ raw))
      else if kind = "json" ∨ kind = "body" then .ok (.json key)
      else if kind = "header" then .ok (.header key)
      else .error (.text ("sync_fields target prefix is invalid: " ++ raw))

variable {Body : Type}

def readSyncTargetValue (engine : JsonEngine Body) (body : Body) (ctx : OverrideContext) :
    SyncTarget → Option JsonValue
  | .json key =>
    match engine.get body key with
    | none => none
    | some .null => none
    | some (.str s) => if trimSpace s = "" then none else some (.str s)
    | some v => some v
  | .header key => (getHeaderValueFromContext ctx key).map .str

def writeSyncTargetValue (engine : JsonEngine Body) (body : Body) (ctx : OverrideContext)
    (value : JsonValue) : SyncTarget → Except OverrideError (Body × OverrideContext)
  | .json key => do return (← engine.set body key value, ctx)
  | .header key => do
      return (body, ← setHeaderOverrideInContext engine.format ctx key value false)

def syncFieldsBetweenTargets (engine : JsonEngine Body) (body : Body) (ctx : OverrideContext)
    (fromSpec toSpec : String) : Except OverrideError (Body × OverrideContext) := do
  let fromTarget ← parseSyncTarget fromSpec
  let toTarget ← parseSyncTarget toSpec
  match readSyncTargetValue engine body ctx fromTarget,
      readSyncTargetValue engine body ctx toTarget with
  | some value, none => writeSyncTargetValue engine body ctx value toTarget
  | none, some value => writeSyncTargetValue engine body ctx value fromTarget
  | _, _ => return (body, ctx)

/-! ### A whole override -/

/-- The header of a `copy_header` or `move_header`; the default is the path. -/
def headerOr (name path : String) : String :=
  if trimSpace name = "" then trimSpace path else trimSpace name

/-- The error of an operation, as `applyOperations` reports it. -/
def OverrideError.wrap (mode : ParamMode) : OverrideError → OverrideError
  | .sourceHeaderNotFound header =>
    .text ("operation " ++ mode.name ++ " failed: source header does not exist: " ++ header)
  | .text message => .text ("operation " ++ mode.name ++ " failed: " ++ message)
  | e => e

def headerOperation (mode : ParamMode) (body : Body) (res : Except OverrideError OverrideContext) :
    Except OverrideError (Body × OverrideContext) :=
  (res.map (body, ·)).mapError (·.wrap mode)

/-- **What one operation does**, its conditions being met. -/
def runOperation (engine : JsonEngine Body) (op : ParamOperation) (body : Body)
    (ctx : OverrideContext) : Except OverrideError (Body × OverrideContext) :=
  let source := headerOr op.fromKey op.path
  let target := headerOr op.toKey op.path
  match op.mode with
  | .body _ => do return (← engine.edit op body ctx, ctx)
  | .returnError => .error (engine.returnError op.value)
  | .setHeader =>
    headerOperation op.mode body
      (setHeaderOverrideInContext engine.format ctx op.path op.value op.keepOrigin)
  | .deleteHeader => headerOperation op.mode body (deleteHeaderOverrideInContext ctx op.path)
  | .copyHeader =>
    headerOperation op.mode body (ignoreMissingSource ctx
      (copyHeaderInContext engine.format ctx source target op.keepOrigin))
  | .moveHeader =>
    headerOperation op.mode body (ignoreMissingSource ctx
      (moveHeaderInContext engine.format ctx source target op.keepOrigin))
  | .passHeaders => do
      let names ← engine.passThroughNames op.value
      headerOperation op.mode body (passHeaders engine.format op.keepOrigin ctx names)
  | .syncFields =>
    (syncFieldsBetweenTargets engine body ctx op.fromKey op.toKey).mapError (·.wrap op.mode)
  | .unknown name => .error (.text ("unknown operation: " ++ name))

def applyOperations (engine : JsonEngine Body) :
    List ParamOperation → Body → OverrideContext → Except OverrideError (Body × OverrideContext)
  | [], body, ctx => .ok (body, ctx)
  | op :: ops, body, ctx => do
      if ← engine.checkConditions body ctx op.conditions op.logic then
        let (body, ctx) ← runOperation engine op body ctx
        applyOperations engine ops body ctx
      else applyOperations engine ops body ctx

def applyParamOverride (engine : JsonEngine Body) (p : ParamOverride) (body : Body)
    (ctx : OverrideContext) : Except OverrideError (Body × OverrideContext) :=
  match p.operations with
  | none => do return (← engine.merge body p.legacy, ctx)
  | some operations => do
      let body ← if p.legacy = [] then .ok body else engine.merge body p.legacy
      applyOperations engine operations body ctx

end NomoApi
