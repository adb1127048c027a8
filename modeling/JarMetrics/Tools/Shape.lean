import JarMetrics.Json.Basic
import JarMetrics.Text.Case

/-!
# Shapes of parameters

What the parameters of a request must be. Any part may be missing or `null`, and parts that are not
known may stand beside the others. Keys are known in any case. The first mismatch of a message is
told to the client.
-/

namespace JarMetrics.Tools

/-- What a part of a message must be. Where the wording of a mismatch needs it, a shape has the name
of its type. -/
inductive Shape
  | any
  | text (type : String)
  | truth
  /-- An object with any members. A mismatch of an `eager` one is told before all others. -/
  | dictionary (eager : Bool)
  /-- An object with known members; its short name is told with a mismatch in one of them. -/
  | record (name type : String) (fields : List (String × Shape))

/-- A part of a message that is not what it must be. -/
structure Mismatch where
  /-- What was found. -/
  found : String
  /-- The name of the object that has the part, and the path to the part. -/
  owner : String
  path : List String
  expected : String
  eager : Bool := false
  deriving Repr, DecidableEq

/-- The wording of a mismatch. -/
def Mismatch.message (m : Mismatch) : String :=
  "json: cannot unmarshal " ++ m.found ++ " into Go struct field " ++ m.owner ++ "." ++
    ".".intercalate m.path ++ " of type " ++ m.expected

/-- What a value is. -/
def kindName : Json → String
  | .null => "null"
  | .bool _ => "bool"
  | .int _ | .float _ => "number"
  | .string _ => "string"
  | .array _ => "array"
  | .object _ => "object"

namespace Shape

/-- The name of the type of a shape. -/
def typeName : Shape → String
  | .any => "interface \x7b\x7d"
  | .text type => type
  | .truth => "bool"
  | .dictionary _ => "map[string]interface \x7b\x7d"
  | .record _ type _ => type

/-- Whether mismatches of a shape are told before others. -/
def isEager : Shape → Bool
  | .dictionary eager => eager
  | _ => false

mutual

/-- All mismatches of a value at a path in an object, in the order of the message. -/
def mismatches (owner : String) (path : List String) : Shape → Json → List Mismatch
  | _, .null => []
  | .any, _ => []
  | .text _, .string _ => []
  | .truth, .bool _ => []
  | .dictionary _, .object _ => []
  | .record name _ fields, .object members =>
      members.flatMap fun (key, value) => fieldMismatches name path key value fields
  | shape, value => [⟨kindName value, owner, path, shape.typeName, shape.isEager⟩]

/-- The mismatches of one member of an object with known fields. -/
def fieldMismatches (owner : String) (path : List String) (key : String) (value : Json) :
    List (String × Shape) → List Mismatch
  | [] => []
  | (name, shape) :: rest =>
      if Text.lower key == Text.lower name then mismatches owner (path ++ [name]) shape value
      else fieldMismatches owner path key value rest

end

end Shape

/-- A known kind of request: the name of its type, the parts within it that lead to the parameters,
and what these must be. -/
structure RequestShape where
  name : String
  inner : List String := []
  parameters : Shape

namespace RequestShape

/-- A text without a name of its own. -/
def plainText : Shape := .text "string"

/-- An object without known members. -/
def empty : Shape := .record "" "struct \x7b\x7d" []

/-- Remarks on a request. -/
def remarks : String × Shape := ("_meta", .dictionary true)

/-- What a client can do. -/
def capabilities : Shape :=
  .record "ClientCapabilities" "mcp.ClientCapabilities" [
    ("experimental", .dictionary false),
    ("roots", .record "" "struct \x7b ListChanged bool \"json:\\\"listChanged,omitempty\\\"\" \x7d"
      [("listChanged", .truth)]),
    ("sampling", empty),
    ("elicitation", empty)]

/-- Who a client is. -/
def clientInfo : Shape :=
  .record "Implementation" "mcp.Implementation"
    [("name", plainText), ("version", plainText), ("title", plainText)]

/-- The shape of requests with a method. -/
def ofMethod? (method : String) : Option RequestShape :=
  match method with
  | "initialize" => some {
      name := "InitializeRequest"
      parameters := .record "InitializeParams" "mcp.InitializeParams"
        [("protocolVersion", plainText), ("capabilities", capabilities),
          ("clientInfo", clientInfo)] }
  | "ping" => some {
      name := "PingRequest"
      inner := ["Request"]
      parameters := .record "RequestParams" "mcp.RequestParams" [remarks] }
  | "tools/list" => some {
      name := "ListToolsRequest"
      inner := ["PaginatedRequest"]
      parameters :=
        .record "PaginatedParams" "mcp.PaginatedParams" [("cursor", .text "mcp.Cursor")] }
  | "tools/call" => some {
      name := "CallToolRequest"
      parameters := .record "CallToolParams" "mcp.CallToolParams"
        [("name", plainText), ("arguments", .any), remarks] }
  | "logging/setLevel" => some {
      name := "SetLevelRequest"
      parameters :=
        .record "SetLevelParams" "mcp.SetLevelParams" [("level", .text "mcp.LoggingLevel")] }
  | _ => none

/-- The mismatch that is told of the parameters of a request. -/
def mismatch? (shape : RequestShape) (parameters : Json) : Option Mismatch :=
  let found := shape.parameters.mismatches shape.name (shape.inner ++ ["params"]) parameters
  (found.find? (·.eager)).or found.head?

end RequestShape

end JarMetrics.Tools
