import McpSshTool.Remote.ControlPlane.Step

/-!
# The REST and the MCP front end

`handleApi` and `handleMcp` (`control-plane.ts`), from the point where the caller is authenticated:
the routes of the REST API, the methods of the MCP endpoint, and what each answers.

A PATCH request is answered in two parts, for it waits for its body in between (`awaitBody`,
`finishPatch`), and so is a tool call that runs on an agent (`awaiting`, `dispatchReply`). A request
that throws is answered by the error (`http-server.ts` renders code, message and status).
-/

open Library

namespace Remote

/-! ### REST requests -/

/-- What a REST handler reads of a request. -/
structure ApiRequest where
  method : String
  pathname : String
  /-- `url.searchParams.get("limit")`. -/
  limit : Option String
  /-- `readJson(req)`. -/
  body : Except Thrown Value

/-- What a REST request is answered; a PATCH request that has found its agent waits for its body
first. -/
inductive ApiReply where
  | respond (status : ℕ) (body : Value)
  | awaitBody (agent : RemoteAgentRecord)

/-- `/^\/api\/agents\/([^/]+)(?:\/(policy|revoke))?$/u`: the two groups. -/
def agentMatch (pathname : String) : Option (String × Option String) :=
  match (pathname.toList.splitOn '/').map String.ofList with
  | ["", "api", "agents", ref] => if ref = "" then none else some (ref, none)
  | ["", "api", "agents", ref, part] =>
    if ref = "" || (part ≠ "policy" && part ≠ "revoke") then none else some (ref, some part)
  | _ => none

example : agentMatch "/api/agents/web/policy" = some ("web", some "policy") := by decide +kernel

namespace RemoteControlPlane

variable (d : Deployment) (m : Moment)

/-- `Number(url.searchParams.get("limit") ?? 50)`. -/
def auditLimit (r : ApiRequest) : JsNumber :=
  match r.limit with
  | some text => d.platform.numberText.parse text
  | none => .ofInt 50

/-- `GET /api/audit`, and the answer to a request that no route takes. -/
def handleAuditRoute (principal : RemotePrincipal) (r : ApiRequest) (s : RemoteControlPlane) :
    Outcome ApiReply :=
  if r.pathname = "/api/audit" && r.method = "GET" then
    if !s.store.isOpen then (.error .sqlite, s)
    else
      ((s.listAudit principal.userId none (auditLimit d r)).map fun events =>
        .respond 200 (.obj [("events", .arr (events.map auditValue))]), s)
  else (.ok (.respond 404 (.obj [("error", .str "Not found")])), s)

/-- `handleApi`, once the request is authenticated. -/
def handleApi (principal : RemotePrincipal) (r : ApiRequest) (s : RemoteControlPlane) :
    Outcome ApiReply :=
  if r.pathname = "/api/agents/enrollment-tokens" && r.method = "POST" then
    match r.body with
    | .error e => (.error e, s)
    | .ok body => mapOutcome (.respond 201) (s.createEnrollmentToken d m principal body)
  else if r.pathname = "/api/agents" && r.method = "GET" then
    if !s.store.isOpen then (.error .sqlite, s)
    else
      (.ok (.respond 200
        (.obj [("agents", .arr ((s.listAgents principal.userId).map sanitizeAgent))])), s)
  else
    match agentMatch r.pathname with
    | none => s.handleAuditRoute d principal r
    | some (ref, part) =>
      if !s.store.isOpen then (.error .sqlite, s)
      else
        match s.resolveAgent principal.userId ref with
        | none => (.error (.safe .agentNotFound "Agent not found" 404), s)
        | some agent =>
          if part = none && r.method = "GET" then
            (.ok (.respond 200 (.obj [("agent", sanitizeAgent agent)])), s)
          else if (part = none || part = some "policy") && r.method = "PATCH" then
            (.ok (.awaitBody agent), s)
          else if part = some "revoke" && r.method = "POST" then
            mapOutcome (fun updated => .respond 200 (.obj [("agent", sanitizeAgent updated)]))
              (s.revokeAgent d m principal agent)
          else s.handleAuditRoute d principal r

/-- The rest of a PATCH request, for the agent it has found before: what it answers with status
200. -/
def finishPatch (principal : RemotePrincipal) (agent : RemoteAgentRecord)
    (body : Except Thrown Value) (s : RemoteControlPlane) : Outcome Value :=
  match body with
  | .error e => (.error e, s)
  | .ok body =>
    mapOutcome (fun updated => .obj [("agent", sanitizeAgent updated)])
      (s.updateAgentPolicy d m principal agent (body.member "policy"))

end RemoteControlPlane

/-! ### MCP requests -/

/-- What the MCP endpoint takes from elsewhere. -/
structure McpSurface where
  /-- `SERVER_VERSION`. -/
  serverVersion : String
  /-- The titles, descriptions and schemas of `mcp-tools.ts`. -/
  descriptors : RemoteToolName → Fields
  /-- `JSON.stringify(value, null, 2)`. -/
  prettyJson : Value → String

/-- What an MCP request is answered; a tool that runs on an agent waits for the agent first. -/
inductive McpReply where
  | respond (body : Value)
  | awaiting (rpcId : Value) (actionId : String)

def listRemoteToolDescriptors (x : McpSurface) (capabilities : List RemoteCapability) :
    List Value :=
  (remoteTools.filter fun tool => capabilities.contains (toolCapabilityMap tool)).map fun tool =>
    .obj ([("name", .str tool.text), ("capability", .str (toolCapabilityMap tool).text)]
      ++ x.descriptors tool)

/-- A JSON-RPC message. -/
def rpcMessage (rpcId : Value) (member : String) (content : Value) : Value :=
  .obj [("jsonrpc", .str "2.0"), ("id", rpcId), (member, content)]

def rpcError (rpcId : Value) (code : ℤ) (message : String) : Value :=
  rpcMessage rpcId "error" (.obj [("code", .int code), ("message", .str message)])

/-- The result of a tool, as text and as it is. -/
def toolResult (x : McpSurface) (result : Value) : Value :=
  .obj [("content", .arr [.obj [("type", .str "text"), ("text", .str (x.prettyJson result))]]),
    ("structuredContent", result)]

/-- The text of a member that every object inherits: `name in TOOL_CAPABILITY_MAP` holds for the
name of such a member, too, and no scope grants it. -/
def inheritedText (name : String) : Option String :=
  let native := fun f => "function " ++ f ++ "() \x7b [native code] \x7d"
  match name with
  | "constructor" => some (native "Object")
  | "__proto__" => some "[object Object]"
  | "__defineGetter__" | "__defineSetter__" | "__lookupGetter__" | "__lookupSetter__"
  | "hasOwnProperty" | "isPrototypeOf" | "propertyIsEnumerable" | "toLocaleString" | "toString"
  | "valueOf" => some (native name)
  | _ => none

namespace RemoteControlPlane

variable (d : Deployment) (m : Moment)

/-- `tools/call`. -/
def handleToolCall (x : McpSurface) (principal : RemotePrincipal) (rpcId : Value) (params : Value)
    (s : RemoteControlPlane) : Outcome McpReply :=
  let name := (params.member "name").asString.getD ""
  let args := if (params.member "arguments").isRecord then (params.member "arguments").ownMembers
    else []
  match ofText? remoteTools RemoteToolName.text name with
  | some tool =>
    mapOutcome (fun reply => match reply with
      | .reply result => .respond (rpcMessage rpcId "result" (toolResult x result))
      | .awaiting actionId => .awaiting rpcId actionId)
      (s.callRemoteTool d m principal tool args)
  | none =>
    match inheritedText name with
    | some text => (.error (.safe .invalidScope ("Scope does not grant " ++ text) 403), s)
    | none => (.ok (.respond (rpcError rpcId (-32602) "Unknown tool")), s)

/-- `handleMcp`, once the request is authenticated and its body is read. -/
def handleMcp (x : McpSurface) (principal : RemotePrincipal) (body : Value)
    (s : RemoteControlPlane) : Outcome McpReply :=
  let method := (body.member "method").asString.getD ""
  let rpcId := (body.member "id").orElse .null
  if method = "initialize" then
    (.ok (.respond (rpcMessage rpcId "result" (.obj
      [("protocolVersion", .str "2025-06-18"), ("capabilities", .obj [("tools", .obj [])]),
        ("serverInfo", .obj [("name", .str "sshautomator-remote-agent"),
          ("version", .str x.serverVersion)])]))), s)
  else if method = "tools/list" then
    (.ok (.respond (rpcMessage rpcId "result" (.obj
      [("tools", .arr (listRemoteToolDescriptors x principal.capabilities))]))), s)
  else if method = "tools/call" then
    s.handleToolCall d m x principal rpcId
      (if (body.member "params").isRecord then body.member "params" else .obj [])
  else (.ok (.respond (rpcError rpcId (-32601) "Method not found")), s)

/-- What a tool call is answered when its action has settled and its continuation has run. -/
def dispatchReply (outcome : ActionOutcome) (finished : Except Thrown Unit) :
    Except Thrown Value :=
  match finished with
  | .error e => .error e
  | .ok () =>
    match outcome with
    | .resolved result => .ok (.obj [("action", .obj result.toFields)])
    | .rejected code =>
      let code := code.getD .internalError
      .error (.safe code
        (if code = .agentTimeout then "Agent timed out" else "Agent action failed") 504)

end RemoteControlPlane

end Remote
