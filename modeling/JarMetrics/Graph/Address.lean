import JarMetrics.Failure
import JarMetrics.Text.Case
import JarMetrics.Text.Quoted

/-!
# Addresses of graph stores

An address is a scheme, a colon and the rest. Only the schemes of the store's own protocols are
known.
-/

namespace JarMetrics.Graph

/-- Why an address is none. -/
inductive AddressError
  | control
  | noScheme
  | colon
  | badPort (port : String)
  | badEscape (escape : String)
  deriving Repr, DecidableEq

/-- The wording of an error. -/
def AddressError.message : AddressError → String
  | .control => "net/url: invalid control character in URL"
  | .noScheme => "missing protocol scheme"
  | .colon => "first path segment in URL cannot contain colon"
  | .badPort port => "invalid port " ++ Text.quoted port ++ " after host"
  | .badEscape escape => "invalid URL escape " ++ Text.quoted escape

/-- The parts of an address. -/
structure Address where
  scheme : String
  host : String
  query : String
  deriving Repr, DecidableEq

namespace Address

/-- Whether a character is a control character. -/
def isControl (c : Char) : Bool := c.toNat < 0x20 || c.toNat == 0x7F

/-- Whether a character may stand in a scheme behind its first letter. -/
def isSchemeChar (c : Char) : Bool := c.isAlphanum || c == '+' || c == '-' || c == '.'

/-- The scheme of an address, in lower case, and what is behind its colon. -/
def splitScheme (cs : List Char) : Except AddressError (String × List Char) :=
  let scheme := cs.takeWhile isSchemeChar
  match scheme, cs.drop scheme.length with
  | [], ':' :: _ => .error .noScheme
  | c :: _, ':' :: rest =>
      if c.isAlpha then .ok (Text.lower (String.ofList scheme), rest) else .ok ("", cs)
  | _, _ => .ok ("", cs)

/-- Whether a digit has base 16. -/
def isHex (c : Char) : Bool := c.isDigit || ('a' ≤ c && c ≤ 'f') || ('A' ≤ c && c ≤ 'F')

/-- The first escape that is none. -/
def badEscape? : List Char → Option String
  | '%' :: a :: b :: rest =>
      if isHex a && isHex b then badEscape? rest else some (String.ofList ['%', a, b])
  | '%' :: rest => some (String.ofList ('%' :: rest))
  | _ :: rest => badEscape? rest
  | [] => none

/-- Check the host of an address: what stands behind its last colon is a number. -/
def checkHost (host : List Char) : Except AddressError Unit :=
  let port := host.reverse.takeWhile fun c => c != ':' && c != ']'
  if port.length < host.length && host.reverse[port.length]? ==
    some ':' && !port.all Char.isDigit then
    .error (.badPort (String.ofList (':' :: port.reverse)))
  else
    match badEscape? host with
    | some escape => .error (.badEscape escape)
    | none => .ok ()

/-- The parts of an address. -/
def parse (text : String) : Except AddressError Address := do
  let cs := text.toList.takeWhile (· != '#')
  if cs.any isControl then .error .control
  else do
    let (scheme, rest) ← splitScheme cs
    let place := rest.takeWhile (· != '?')
    let query := String.ofList ((rest.drop place.length).drop 1)
    match place with
    | '/' :: '/' :: authority =>
        let host := (authority.takeWhile (· != '/')).reverse.takeWhile (· != '@')
        checkHost host.reverse
        match badEscape? (authority.dropWhile (· != '/')) with
        | some escape => .error (.badEscape escape)
        | none => return ⟨scheme, String.ofList host.reverse, query⟩
    | '/' :: path =>
        match badEscape? path with
        | some escape => .error (.badEscape escape)
        | none => return ⟨scheme, "", query⟩
    | _ =>
        if !scheme.isEmpty then return ⟨scheme, "", query⟩
        else if (place.takeWhile (· != '/')).contains ':' then .error .colon
        else
          match badEscape? place with
          | some escape => .error (.badEscape escape)
          | none => return ⟨scheme, "", query⟩

/-- The schemes that are known. -/
def schemes : List String :=
  ["bolt", "bolt+unix", "bolt+s", "bolt+ssc", "neo4j", "neo4j+s", "neo4j+ssc"]

/-- Check that an address has a scheme that is known. -/
def check (text : String) : Outcome Address :=
  let refuse :=
    fun reason => Except.error
      (.codedBy .graphExport "failed to create neo4j driver" (.plain reason))
  match parse text with
  | .error error =>
      refuse ("parse " ++ Text.quoted (String.ofList (text.toList.takeWhile (· != '#'))) ++
        ": " ++ error.message)
  | .ok address =>
      if !schemes.contains address.scheme then
        refuse ("URI scheme " ++ address.scheme ++ " is not supported")
      else if address.scheme == "bolt+unix" && !address.host.isEmpty then
        refuse ("Host part should be empty for scheme " ++ address.scheme)
      else if address.scheme.startsWith "bolt" && !address.query.isEmpty then
        refuse ("Routing context is not supported for URL scheme " ++ address.scheme)
      else .ok address

end Address

end JarMetrics.Graph
