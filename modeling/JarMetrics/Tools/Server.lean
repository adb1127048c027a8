import JarMetrics.Bytes.Base64
import JarMetrics.CommandLine.Command
import JarMetrics.Json.Parser
import JarMetrics.Tools.Call
import JarMetrics.Tools.Shape

/-!
# The tool server

A client sends messages, one JSON object per line, and gets a reply to each that has an identity.
Messages without one are notices. `Server.receive` takes one line. Numbers in an identity are
doubles.
-/

namespace JarMetrics.Tools

/-- The name under which the server introduces itself. -/
def serverName : String := "jarscn"

/-- Why a message gets an error for a reply. -/
inductive MessageError
  | notJson
  | unreadable
  | unreadableNotice
  | wrongVersion
  | unparsable (method : String) (mismatch : Mismatch)
  | unknownMethod (method : String)
  | unsupported (feature : String)
  | unknownTool (name : String)
  | unknownLevel (level : String)
  /-- A cursor that is no base-64 text, with the place that shows it. -/
  | brokenCursor (place : Nat)
  | notReady
  deriving Repr, DecidableEq

namespace MessageError

/-- The number of an error. -/
def code : MessageError → Int
  | .notJson | .unreadable | .unreadableNotice => -32700
  | .wrongVersion | .unparsable _ _ => -32600
  | .unknownMethod _ | .unsupported _ => -32601
  | .unknownTool _ | .unknownLevel _ | .brokenCursor _ => -32602
  | .notReady => -32603

/-- The wording of an error. -/
def message : MessageError → String
  | .notJson => "Parse error"
  | .unreadable => "Failed to parse message"
  | .unreadableNotice => "Failed to parse notification"
  | .wrongVersion => "Invalid JSON-RPC version"
  | .unparsable method mismatch => "unparsable " ++ method ++ " request: " ++ mismatch.message
  | .unknownMethod method => "Method " ++ method ++ " not found"
  | .unsupported feature => feature ++ " not supported"
  | .unknownTool name => "tool '" ++ name ++ "' not found: tool not found"
  | .unknownLevel level => "invalid logging level '" ++ level ++ "'"
  | .brokenCursor place => "illegal base64 data at input byte " ++ toString place
  | .notReady => "session not properly initialized"

end MessageError

/-- A server between two messages. -/
structure Server where
  host : Host
  settingsPath : String
  /-- Whether the client has introduced itself. -/
  ready : Bool := false

/-- What comes of a message. -/
structure Received where
  server : Server
  reply : Option Json := none
  log : List Log.Line := []

/-- A reply with a result. -/
def resultReply (identity result : Json) : Json :=
  .object [("jsonrpc", .string "2.0"), ("id", identity), ("result", result)]

/-- A reply with an error. -/
def errorReply (identity : Json) (error : MessageError) : Json :=
  .object [("jsonrpc", .string "2.0"), ("id", identity),
    ("error", .object [("code", .int error.code), ("message", .string error.message)])]

/-- The versions of the protocol that are known, the latest first. -/
def protocolVersions : List String := ["2025-06-18", "2025-03-26", "2024-11-05"]

/-- The version in which a client is answered. -/
def protocolVersion (asked : String) : String :=
  let asked := if asked.isEmpty then "2025-03-26" else asked
  if protocolVersions.contains asked then asked else protocolVersions.headD ""

/-- How the server introduces itself. -/
def introduction (host : Host) (asked : String) : Json :=
  .object [
    ("protocolVersion", .string (protocolVersion asked)),
    ("capabilities",
      .object [("logging", .object []), ("tools", .object [("listChanged", .bool true)])]),
    ("serverInfo", .object [("name", .string serverName), ("version", .string host.build.version)])]

/-- The answer of a tool in a reply. -/
def Answer.toJson (a : Answer) : Json :=
  .object (("content", .array [.object [("type", .string "text"), ("text", .string a.text)]]) ::
    if a.isError then [("isError", .bool true)] else [])

/-- The levels that a client can ask the log for. -/
def logLevels : List String :=
  ["debug", "info", "notice", "warning", "error", "critical", "alert", "emergency"]

mutual

/-- The value with doubles for all numbers. -/
def doubles : Json → Json
  | .int n => .float (Float.ofInt n)
  | .array items => .array (itemDoubles items)
  | .object members => .object (memberDoubles members)
  | value => value

/-- The items with doubles for all numbers. -/
def itemDoubles : List Json → List Json
  | [] => []
  | item :: rest => doubles item :: itemDoubles rest

/-- The members with doubles for all numbers. -/
def memberDoubles : List (String × Json) → List (String × Json)
  | [] => []
  | (key, value) :: rest => (key, doubles value) :: memberDoubles rest

end

/-- The tools that come after a cursor. -/
def toolsAfter (cursor : String) : Except MessageError (List Tool) :=
  match Base64.decode cursor with
  | .ok name => .ok (all.filter fun tool => name < tool.name.toUTF8.toList)
  | .error place => .error (.brokenCursor place)

/-- The text of a member; empty if there is none. -/
def memberText (message : Json) (key : String) : String :=
  ((message.getAnyCase key).string?).getD ""

/-- Whether a member is a text, if it is there. -/
def isTextMember (message : Json) (key : String) : Bool :=
  match message.getAnyCase key with
  | .null | .string _ => true
  | _ => false

/-- Whether a value is an object, if it is there. -/
def isObject : Json → Bool
  | .null | .object _ => true
  | _ => false

namespace Server

/-- Reply to a request. -/
def reply (s : Server) (identity : Json) (method : String) (parameters : Json) : Received :=
  let result := fun json => { server := s, reply := some (resultReply identity json) : Received }
  let error := fun error => { server := s, reply := some (errorReply identity error) : Received }
  match (RequestShape.ofMethod? method).bind (·.mismatch? parameters) with
  | some mismatch => error (.unparsable method mismatch)
  | none =>
      match method with
      | "initialize" =>
          { result (introduction s.host (memberText parameters "protocolVersion")) with
            server := { s with ready := true } }
      | "ping" => result (.object [])
      | "tools/list" =>
          let cursor := memberText parameters "cursor"
          match if cursor.isEmpty then .ok all else toolsAfter cursor with
          | .ok tools => result (.object [("tools", .array (tools.map Tool.toJson))])
          | .error e => error e
      | "tools/call" =>
          let name := memberText parameters "name"
          match call? s.host s.settingsPath name (parameters.getAnyCase "arguments") with
          | some call => { result call.answer.toJson with log := call.log }
          | none => error (.unknownTool name)
      | "logging/setLevel" =>
          let level := memberText parameters "level"
          if !s.ready then error .notReady
          else if logLevels.contains level then result (.object [])
          else error (.unknownLevel level)
      | "resources/list" | "resources/templates/list" | "resources/read" =>
          error (.unsupported "resources")
      | "prompts/list" | "prompts/get" => error (.unsupported "prompts")
      | other => error (.unknownMethod other)

/-- Take a message. -/
def take (s : Server) (message : Json) : Received :=
  let error :=
    fun identity error => { server := s, reply := some (errorReply identity error) : Received }
  let identity := doubles (message.getAnyCase "id")
  let parameters := message.getAnyCase "params"
  if !isTextMember message "jsonrpc" || !isTextMember message "method" then error .null .unreadable
  else if memberText message "jsonrpc" != "2.0" then error identity .wrongVersion
  else if identity.isNull then
    if isObject parameters then { server := s } else error .null .unreadableNotice
  else if !(message.getAnyCase "result").isNull then { server := s }
  else s.reply identity (memberText message "method") parameters

/-- Take a line. -/
def receive (s : Server) (line : String) : Received :=
  match Json.parse? line with
  | none => { server := s, reply := some (errorReply .null .notJson) }
  | some (.object members) => s.take (.object members)
  | some .null => s.take (.object [])
  | some _ => { server := s, reply := some (errorReply .null .unreadable) }

/-- Take several lines, one after the other: the server after them, the replies and the log. -/
def receiveLines (s : Server) : List String → Server × List Json × List Log.Line
  | [] => (s, [], [])
  | line :: rest =>
      let received := s.receive line
      let (server, replies, log) := received.server.receiveLines rest
      (server, received.reply.toList ++ replies, received.log ++ log)

end Server

/-! ## Starting -/

open CommandLine

/-- The option that names a settings file. -/
def configFlag : Flag :=
  { name := "config", letter := some 'c', standard := .text ""
    usage := "Configuration file path (default: discover " ++ settingsFileName ++ ")" }

/-- The option that makes the log verbose. -/
def verboseFlag : Flag :=
  { name := "verbose", standard := .switch false, usage := "Enable debug logging" }

/-- The options of the server. -/
def flags : List Flag := [configFlag, verboseFlag]

/-- A server that has started, or the messages and the code with which it ends. -/
inductive Start
  | ready (server : Server) (verbose : Bool)
  | ended (messages : String) (code : Nat)

/-- How the server is used. -/
def usage : String := "Usage of " ++ serverName ++ "-mcp:\n" ++ Program.flagLines flags ++ "\n"

/-- Start a server from a command line. -/
def start (host : Host) (arguments : List String) : Start :=
  match readArguments flags {} arguments with
  | .error .help => .ended usage 0
  | .error error => .ended (error.message ++ "\n" ++ usage ++ error.message ++ "\n") 2
  | .ok a =>
      let settingsPath := match a.value configFlag with
        | .text path => path
        | _ => ""
      .ready { host, settingsPath } (a.value verboseFlag == .switch true)

/-- What the log tells of a server that starts. -/
def startLog (host : Host) : List Log.Line := [
  ⟨.info, "starting MCP server", [("name", serverName), ("version", host.build.version)]⟩,
  ⟨.info, "registered tools", [("tools", "[" ++ " ".intercalate (all.map (·.name)) ++ "]")]⟩]

end JarMetrics.Tools
