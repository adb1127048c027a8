import JarMetrics.Bytes.Utf8
import JarMetrics.CommandLine.Flag
import JarMetrics.Text.Blank

/-!
# Commands

A program is a tree of commands, kept as a list in which every command has the path of names that
leads to it. `Command.find` finds the command that a command line names, and `Command.help` tells
all about one.
-/

namespace JarMetrics.CommandLine

/-- What a command does. -/
inductive Action
  | analyze
  | exportGraph
  | showVersion
  | writeSettings
  | showHelp
  /-- Write a completion script for a shell. -/
  | script (shell : String)
  /-- Tell a shell how a command line may go on, with or without descriptions. -/
  | complete (described : Bool)
  deriving Repr, DecidableEq

/-- How many arguments a command takes. -/
inductive Arity
  | any
  | atLeast (count : Nat)
  | noArguments
  deriving Repr, DecidableEq

/-- What is known of the arguments of a command: that they are files, that there are none, or that
they are commands on which there is help. -/
inductive Hints
  | files
  | nothing
  | topics
  deriving Repr, DecidableEq

/-- A command. -/
structure Command where
  /-- The names that lead to it; none for the program itself. -/
  path : List String
  /-- How it is used, from its own name on. -/
  use : String
  short : String
  long : String
  flags : List Flag := []
  arity : Arity := .any
  /-- Whether the line about its use speaks of options. -/
  tellsFlags : Bool := true
  /-- Without an action, the command shows help. -/
  action : Option Action := none
  hints : Hints := .files
  /-- A hidden command is for shells: it is not told of, and it takes all that follows for
  arguments. -/
  hidden : Bool := false

/-- A program: its name, its commands, and the options that all of them have. -/
structure Program where
  name : String
  version : String
  commands : List Command
  shared : List Flag

namespace Program

/-- The commands directly below a path. -/
def children (p : Program) (path : List String) : List Command :=
  p.commands.filter fun c => !c.path.isEmpty && c.path.dropLast == path

/-- The path of a command in words. -/
def wordsOf (p : Program) (path : List String) : String := " ".intercalate (p.name :: path)

/-! ## Finding a command -/

/-- Whether an argument is an option whose value is the next argument. -/
def takesNext (flags : List Flag) (argument : String) : Bool :=
  let switch := fun (test : Flag → Bool) => (flags.find? test).any (·.isSwitch)
  match argument.toList with
  | '-' :: '-' :: name => !name.contains '=' && !switch (·.name == String.ofList name)
  | ['-', c] => c != '=' && c.utf8Size == 1 && !switch (·.letter == some c)
  | _ => false

/-- The arguments that are neither options nor their values. -/
def words (flags : List Flag) : List String → List String
  | [] => []
  | argument :: rest =>
      if argument == "--" then []
      else if takesNext flags argument then
        match rest with
        | _ :: second :: others => words flags (second :: others)
        | _ => []
      else if argument.startsWith "-" || argument.isEmpty then words flags rest
      else argument :: words flags rest

/-- The arguments without the first word that is a given one. -/
def without (flags : List Flag) (word : String) : List String → List String
  | [] => []
  | argument :: rest =>
      if argument == "--" then argument :: rest
      else if takesNext flags argument then
        match rest with
        | value :: others => argument :: value :: without flags word others
        | [] => [argument]
      else if argument == word then rest
      else argument :: without flags word rest

/-- The options that are known while a command is looked for. -/
def plainFlags (p : Program) (c : Command) : List Flag := c.flags ++ p.shared

/-- Go down from a command as far as the words lead, at most so many steps. -/
def descend (p : Program) : Nat → Command → List String → Command × List String
  | 0, c, arguments => (c, arguments)
  | steps + 1, c, arguments =>
      match words (p.plainFlags c) arguments with
      | [] => (c, arguments)
      | word :: _ =>
          match (p.children c.path).find? (·.path == c.path ++ [word]) with
          | some child => descend p steps child (without (p.plainFlags c) word arguments)
          | none => (c, arguments)

/-- One row of the table of distances from the one before it. -/
def nextRow (c : UInt8) (before : List Nat) (word : List UInt8) : List Nat :=
  let first := before.headD 0 + 1
  let cells := (word.zip (before.zip (before.drop 1))).foldl
    (fun (row : List Nat) (d, diagonal, above) =>
      min (min (row.headD 0 + 1) (above + 1)) (diagonal + if c == d then 0 else 1) :: row) [first]
  cells.reverse

/-- The number of bytes to change, add or leave out to come from one word to another in any case. -/
def distance (one other : String) : Nat :=
  let bytes := fun word => Utf8.encode (Text.lower word)
  let row := (bytes one).foldl (fun row c => nextRow c row (bytes other))
    (List.range ((bytes other).length + 1))
  row.getLast?.getD 0

/-- Commands that a word may have been meant for. -/
def suggestions (p : Program) (word : String) : List String :=
  let names :=
    ((p.children []).filter fun c => c.action != some .showHelp).filterMap (·.path.getLast?)
  names.filter fun name =>
    distance word name ≤ 2 || (Text.lower word).toList.isPrefixOf (Text.lower name).toList

/-- What is said of a word that names no command. -/
def unknownCommand (p : Program) (word : String) : String :=
  let found := p.suggestions word
  "unknown command " ++ Text.quoted word ++ " for " ++ Text.quoted p.name ++
    if found.isEmpty then "" else "\n\nDid you mean this?\n" ++
      String.join (found.map fun s => "\t" ++ s ++ "\n")

/-- The command that a command line names, and the arguments for it. -/
def find (p : Program) (root : Command) (arguments : List String) :
    Outcome (Command × List String) :=
  let (c, rest) := p.descend arguments.length root arguments
  match c.path, words (p.plainFlags c) rest with
  | [], word :: _ => .error (.plain (p.unknownCommand word))
  | _, _ => .ok (c, rest)

/-! ## Help -/

/-- The option that asks for help about a command. -/
def helpFlag (p : Program) (c : Command) : Flag :=
  { name := "help", letter := some 'h', standard := .switch false
    usage := "help for " ++ c.path.getLast?.getD p.name }

/-- The option that asks for the version of the program. -/
def versionFlag (p : Program) : Flag :=
  { name := "version", standard := .switch false, usage := "version for " ++ p.name }

/-- The options of a command that it does not share with all. -/
def ownFlags (p : Program) (c : Command) : List Flag :=
  c.flags ++ [p.helpFlag c] ++ if c.path.isEmpty then [p.versionFlag] else []

/-- All options of a command. -/
def allFlags (p : Program) (c : Command) : List Flag := p.ownFlags c ++ p.shared

/-- A text filled up with blanks. -/
def padded (width : Nat) (text : String) : String :=
  text ++ String.ofList (List.replicate (width - text.length) ' ')

/-- The word for the value of an option. -/
def valueWord : FlagValue → String
  | .switch _ => ""
  | .number _ => " int"
  | .text _ => " string"
  | .list _ => " strings"

/-- How the help tells the value of an option that is not given. -/
def standardText : FlagValue → String
  | .switch on => if on then " (default true)" else ""
  | .number n => if n == 0 then "" else " (default " ++ toString n ++ ")"
  | .text t => if t.isEmpty then "" else " (default " ++ Text.quoted t ++ ")"
  | .list items => if items.isEmpty then "" else " (default [" ++ ",".intercalate items ++ "])"

/-- The first column of the help about an option. -/
def flagHead (flag : Flag) : String :=
  let title := match flag.letter with
    | some letter => "  -" ++ letter.toString ++ ", --"
    | none => "      --"
  title ++ flag.name ++ valueWord flag.standard

/-- The help about options, in the order of their names. -/
def flagLines (flags : List Flag) : String :=
  let flags := flags.mergeSort fun a b => a.name ≤ b.name
  let width := (flags.map fun flag => (flagHead flag).length).foldl max 0
  "\n".intercalate (flags.map fun flag =>
    padded (width + 3) (flagHead flag) ++ flag.usage ++ standardText flag.standard)

/-- A part of the help with a title. -/
def helpPart (title body : String) : String :=
  if body.isEmpty then "" else "\n\n" ++ title ++ ":\n" ++ body

/-- How a command is used; `own` are the options that are told as its own. -/
def usage (p : Program) (c : Command) (own : List Flag) : String :=
  let path := p.wordsOf c.path
  let children :=
    (p.children c.path).mergeSort fun a b => a.path.getLast?.getD "" ≤ b.path.getLast?.getD ""
  let use := if c.action.isSome then
      "\n  " ++ p.wordsOf c.path.dropLast ++ " " ++ c.use ++ if c.tellsFlags then " [flags]" else ""
    else ""
  let below := if children.isEmpty then "" else "\n  " ++ path ++ " [command]"
  let commands := "\n".intercalate (children.map fun child =>
    "  " ++ padded 11 (child.path.getLast?.getD "") ++ " " ++ child.short)
  "Usage:" ++ use ++ below ++ helpPart "Available Commands" commands ++
    helpPart "Flags" (flagLines own) ++
    helpPart "Global Flags" (if c.path.isEmpty then "" else flagLines p.shared) ++
    (if children.isEmpty then ""
      else "\n\nUse \"" ++ path ++
        " [command] --help\" for more information about a command.") ++ "\n"

/-- All about a command. -/
def help (p : Program) (c : Command) : String :=
  let own := if c.path.isEmpty then p.allFlags c else p.ownFlags c
  Text.trimEnd c.long ++ "\n\n" ++ p.usage c own

end Program

end JarMetrics.CommandLine
