import JarMetrics.Yaml.Token

/-!
# Trees of YAML

The tree of the first document of a text. Whatever follows that document is not looked at. Anchors
name nodes, and an alias stands for the node that its name has named last; a node that is not
complete yet has no meaning.
-/

namespace JarMetrics.Yaml

/-- A node of a document. -/
inductive Node
  | scalar (tag : Option String) (style : Style) (text : String)
  | list (items : List Node)
  | table (members : List (Node × Node))
  /-- Another node by its name; none if it has this one in it. -/
  | alias (name : String) (target : Option Node)
  deriving Inhabited

/-- An empty scalar. -/
def Node.empty : Node := .scalar none .plain ""

/-- What a document has named so far. -/
structure Names where
  /-- The nodes by their anchors, the last one first; none while a node is not complete. -/
  anchors : List (String × Option Node) := []
  /-- What the handles of tags stand for. -/
  handles : List (String × String) := []

/-- Name a node, if it has an anchor. -/
def Names.name (names : Names) (anchor : Option String) (node : Option Node) : Names :=
  match anchor with
  | some a => { names with anchors := (a, node) :: names.anchors }
  | none => names

/-- The tag in full. -/
def Names.tag? (names : Names) (handle suffix : String) : Option String :=
  if handle.isEmpty then some suffix
  else
    match names.handles.find? (·.1 == handle) with
    | some (_, start) => if (start ++ suffix).isEmpty then none else some (start ++ suffix)
    | none => none

/-- What has been read of a document, and the tokens that are left. -/
abbrev Step (α : Type) := α × Names × List Token

/-- An anchor and a tag before a node, in any order. -/
def properties (names : Names) : List Token → Option (Option String × Option String × List Token)
  | .anchor a :: .tag handle suffix :: ts => do
      return (some a, some (← names.tag? handle suffix), ts)
  | .tag handle suffix :: .anchor a :: ts => do
      return (some a, some (← names.tag? handle suffix), ts)
  | .anchor a :: ts => some (some a, none, ts)
  | .tag handle suffix :: ts => do return (none, some (← names.tag? handle suffix), ts)
  | ts => some (none, none, ts)

/-- Whether no key or value begins here, but perhaps the node of one does. -/
def startsNode : List Token → Bool
  | .key :: _ | .value :: _ | .blockEnd :: _ => false
  | _ => true

/-- A node of which there is no more than an anchor or a tag. -/
def emptyNode (names : Names) (anchor tag : Option String) (ts : List Token) : Option (Step Node) :=
  if anchor.isNone && tag.isNone then none
  else
    let node := Node.scalar tag .plain ""
    some (node, names.name anchor (some node), ts)

mutual

/-- Read a node. A node of lines may only stand where `block` holds; where `bare` holds, items may
stand there without an indentation of their own. -/
def readNode (block bare : Bool) : Nat → Names → List Token → Option (Step Node)
  | 0, _, _ => none
  | _ + 1, names, .alias name :: ts => do
      let (_, target) ← names.anchors.find? (·.1 == name)
      return (.alias name target, names, ts)
  | fuel + 1, names, ts => do
      let (anchor, tag, ts) ← properties names ts
      let inner := names.name anchor none
      let named := fun (r : Option (Step Node)) => r.map fun (node, names, ts) =>
        (node, names.name anchor (some node), ts)
      match ts with
      | .scalar style text :: ts =>
          let node := Node.scalar tag style text
          return (node, names.name anchor (some node), ts)
      | .openList :: ts => named (readFlowList true fuel inner ts [])
      | .openTable :: ts => named (readFlowTable true fuel inner ts [])
      | .item :: _ =>
          if bare then named (readBareItems fuel inner ts []) else emptyNode names anchor tag ts
      | .blockSequence :: rest =>
          if block then named (readItems fuel inner rest []) else emptyNode names anchor tag ts
      | .blockTable :: rest =>
          if block then named (readMembers fuel inner rest []) else emptyNode names anchor tag ts
      | [] => none
      | _ => emptyNode names anchor tag ts

/-- Items of lines, up to their end. -/
def readItems : Nat → Names → List Token → List Node → Option (Step Node)
  | 0, _, _, _ => none
  | fuel + 1, names, ts, items =>
      match ts with
      | .item :: .item :: ts => readItems fuel names (.item :: ts) (.empty :: items)
      | .item :: .blockEnd :: ts => readItems fuel names (.blockEnd :: ts) (.empty :: items)
      | .item :: ts => do
          let (node, names, ts) ← readNode true false fuel names ts
          readItems fuel names ts (node :: items)
      | .blockEnd :: ts => some (.list items.reverse, names, ts)
      | _ => none

/-- Items of lines without an indentation of their own. -/
def readBareItems : Nat → Names → List Token → List Node → Option (Step Node)
  | 0, _, _, _ => none
  | fuel + 1, names, ts, items =>
      match ts with
      | [] => none
      | .item :: ts =>
          match ts with
          | [] => none
          | .item :: _ => readBareItems fuel names ts (.empty :: items)
          | _ =>
              if startsNode ts then do
                let (node, names, ts) ← readNode true false fuel names ts
                readBareItems fuel names ts (node :: items)
              else readBareItems fuel names ts (.empty :: items)
      | ts => some (.list items.reverse, names, ts)

/-- Keys and values of lines, up to their end. -/
def readMembers : Nat → Names → List Token → List (Node × Node) → Option (Step Node)
  | 0, _, _, _ => none
  | fuel + 1, names, ts, members =>
      match ts with
      | .key :: ts => do
          let (key, names, ts) ← readPart fuel names ts
          let (value, names, ts) ← readValue fuel names ts
          readMembers fuel names ts ((key, value) :: members)
      | .blockEnd :: ts => some (.table members.reverse, names, ts)
      | _ => none

/-- A key or a value of lines, which may be empty. -/
def readPart : Nat → Names → List Token → Option (Step Node)
  | 0, _, _ => none
  | _ + 1, _, [] => none
  | fuel + 1, names, ts =>
      if startsNode ts then readNode true true fuel names ts else some (.empty, names, ts)

/-- The value behind a key of lines, if there is one. -/
def readValue : Nat → Names → List Token → Option (Step Node)
  | 0, _, _ => none
  | _ + 1, _, [] => none
  | fuel + 1, names, .value :: ts => readPart fuel names ts
  | _ + 1, names, ts => some (.empty, names, ts)

/-- Items in brackets, up to the closing one. -/
def readFlowList (first : Bool) : Nat → Names → List Token → List Node → Option (Step Node)
  | 0, _, _, _ => none
  | fuel + 1, names, ts, items =>
      match ts with
      | .closeList :: ts => some (.list items.reverse, names, ts)
      | _ => do
          let ts ← if first then some ts
            else match ts with
              | .comma :: ts => some ts
              | _ => none
          match ts with
          | .closeList :: ts => return (.list items.reverse, names, ts)
          | .key :: ts =>
              let (member, names, ts) ← readPair fuel names ts
              readFlowList false fuel names ts (.table [member] :: items)
          | ts =>
              let (node, names, ts) ← readNode false false fuel names ts
              readFlowList false fuel names ts (node :: items)

/-- A key and a value among the items of a list in brackets. Where the key is missing, so is the
token behind it. -/
def readPair : Nat → Names → List Token → Option (Step (Node × Node))
  | 0, _, _ => none
  | fuel + 1, names, ts => do
      let (key, names, ts) ← match ts with
        | [] => none
        | .value :: ts | .comma :: ts | .closeList :: ts => some (Node.empty, names, ts)
        | ts => readNode false false fuel names ts
      match ts with
      | [] => none
      | .value :: ts =>
          match ts with
          | [] => none
          | .comma :: _ | .closeList :: _ => return ((key, .empty), names, ts)
          | ts =>
              let (value, names, ts) ← readNode false false fuel names ts
              return ((key, value), names, ts)
      | ts => return ((key, .empty), names, ts)

/-- Keys and values in brackets, up to the closing one. -/
def readFlowTable (first : Bool) :
    Nat → Names → List Token → List (Node × Node) → Option (Step Node)
  | 0, _, _, _ => none
  | fuel + 1, names, ts, members =>
      match ts with
      | .closeTable :: ts => some (.table members.reverse, names, ts)
      | _ => do
          let ts ← if first then some ts
            else match ts with
              | .comma :: ts => some ts
              | _ => none
          match ts with
          | .closeTable :: ts => return (.table members.reverse, names, ts)
          | .key :: ts =>
              let (key, names, ts) ← readFlowPart fuel names ts
              let (value, names, ts) ← match ts with
                | [] => none
                | .value :: ts => readFlowPart fuel names ts
                | ts => some (Node.empty, names, ts)
              readFlowTable false fuel names ts ((key, value) :: members)
          | ts =>
              let (key, names, ts) ← readNode false false fuel names ts
              readFlowTable false fuel names ts ((key, .empty) :: members)

/-- A key or a value in brackets, which may be empty. -/
def readFlowPart : Nat → Names → List Token → Option (Step Node)
  | 0, _, _ => none
  | fuel + 1, names, ts =>
      match ts with
      | [] => none
      | .value :: _ | .comma :: _ | .closeTable :: _ => some (.empty, names, ts)
      | ts => readNode false false fuel names ts

end

/-! ## Documents -/

/-- What the handles of tags stand for where nothing is said. -/
def standardHandles : List (String × String) := [("!", "!"), ("!!", "tag:yaml.org,2002:")]

/-- The directives before a document: a version at most once, and each handle at most once. -/
def readDirectives (versions : Nat) (handles : List (String × String)) :
    List Token → Option (List (String × String) × List Token)
  | .version major minor :: ts =>
      if versions > 0 || major != 1 || minor != 1 then none
      else readDirectives (versions + 1) handles ts
  | .tagHandle handle start :: ts =>
      if handles.any (·.1 == handle) then none
      else readDirectives versions (handles ++ [(handle, start)]) ts
  | ts => some (handles, ts)

/-- The tree of the first document. The outer none is for a text that cannot be read, the inner one
for a text without a document. -/
def rootOf (tokens : List Token) : Option (Option Node) :=
  let fuel := 3 * tokens.length + 10
  let finish := fun (handles : List (String × String)) (ts : List Token) => do
    let (node, _, ts) ← readNode true false fuel { handles := handles ++ standardHandles } ts
    if ts.isEmpty then none else some (some node)
  match tokens with
  | [] => none
  | .streamEnd :: _ => some none
  | .version _ _ :: _ | .tagHandle _ _ :: _ | .documentStart :: _ => do
      let (handles, ts) ← readDirectives 0 [] tokens
      match ts with
      | .documentStart :: ts =>
          match ts with
          | [] => none
          | .version _ _ :: _ | .tagHandle _ _ :: _ | .documentStart :: _ | .documentEnd ::
              _ | .streamEnd :: _ =>
              some (some .empty)
          | ts => finish handles ts
      | _ => none
  | ts => finish [] ts

end JarMetrics.Yaml
