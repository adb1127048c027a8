import JarMetrics.CommandLine.Command

/-!
# Completing command lines

A shell can ask how the last word of a command line may go on. `Program.complete` answers with
commands, options or topics of help, and tells whether names of files may stand there too.
-/

namespace JarMetrics.CommandLine

/-- What else may stand where a word is completed. -/
inductive Directive
  | files
  | noFiles
  deriving Repr, DecidableEq

namespace Directive

/-- The number of a directive. -/
def number : Directive → Nat
  | .files => 0
  | .noFiles => 4

/-- The name of a directive. -/
def name : Directive → String
  | .files => "ShellCompDirectiveDefault"
  | .noFiles => "ShellCompDirectiveNoFileComp"

end Directive

/-- A way in which a word may go on. -/
structure Candidate where
  word : String
  about : String
  deriving Repr, DecidableEq

/-- The answer to a shell. -/
structure Completed where
  candidates : List Candidate := []
  directive : Directive := .files
  /-- Why there is no better answer. -/
  problem : Option String := none
  deriving Repr, DecidableEq

/-- What is being typed: the value of an option or a word, behind other arguments. -/
structure Typed where
  flag : Option Flag
  arguments : List String
  word : String
  /-- The name of an option that there is not. -/
  missing : Option String := none

/-- Words in the form of a list. -/
def listed (words : List String) : String := "[" ++ " ".intercalate words ++ "]"

/-- Whether an argument is an option. -/
def isOption (argument : String) : Bool :=
  match argument.toList with
  | '-' :: '-' :: _ :: _ => true
  | '-' :: c :: _ => c != '-'
  | _ => false

/-- The name of an option without its value: the one behind two dashes, or else the last letter. -/
def optionName (option : String) : String :=
  match option.toList with
  | '-' :: '-' :: name => String.ofList name
  | letters => (letters.getLast?.map (·.toString)).getD ""

/-- The option with a name; a name of one letter is the letter of the option. -/
def findOption? (flags : List Flag) (name : String) : Option Flag :=
  match name.toList with
  | [c] => flags.find? (·.letter == some c)
  | _ => flags.find? (·.name == name)

/-- What is being typed by the last of some arguments. -/
def typed (flags : List Flag) (arguments : List String) (word : String) : Typed :=
  let isFlag := word.startsWith "-"
  let joined := word.toList.contains '='
  let front := String.ofList (word.toList.takeWhile (· != '='))
  let own := if isFlag && joined then optionName front else ""
  let value :=
    if isFlag && joined then String.ofList ((word.toList.dropWhile (· != '=')).drop 1) else word
  if isFlag && !joined then ⟨none, arguments, word, none⟩
  else
    let before := arguments.getLast?.getD ""
    let pending := own.isEmpty && isOption before && !before.toList.contains '='
    let name := if pending then optionName before else own
    if name.isEmpty then ⟨none, arguments, value, none⟩
    else
      match findOption? flags name with
      | none => ⟨none, arguments, word, some name⟩
      | some flag =>
          if flag.isSwitch && !(isFlag && joined) then ⟨none, arguments, value, none⟩
          else ⟨some flag, if pending then arguments.dropLast else arguments, value, none⟩

namespace Program

/-- The commands below a command that begin with a word. -/
def commandCandidates (p : Program) (c : Command) (word : String) : List Candidate :=
  let children := ((p.children c.path).filter fun child => !child.hidden).mergeSort fun a b =>
    a.path.getLast?.getD "" ≤ b.path.getLast?.getD ""
  (children.map fun child => ⟨child.path.getLast?.getD "", child.short⟩).filter fun candidate =>
    candidate.word.startsWith word

/-- The ways of giving an option that begin with a word. -/
def flagCandidates (word : String) (flag : Flag) : List Candidate :=
  let long := "--" ++ flag.name
  let short := (flag.letter.map fun c => "-" ++ c.toString).toList
  ((long :: short).filter (·.startsWith word)).map fun way => ⟨way, flag.usage⟩

/-- The options of a command that may still be given, those that all commands share first. -/
def openFlags (p : Program) (c : Command) (given : Given) : List Flag :=
  let ordered := fun (flags : List Flag) => flags.mergeSort fun a b => a.name ≤ b.name
  let flags :=
    if c.path.isEmpty then ordered (p.allFlags c) else ordered p.shared ++ ordered (p.ownFlags c)
  flags.filter fun flag => match flag.standard with
    | .list _ => true
    | _ => !given.has flag.name

/-- What a command knows of its arguments. -/
def hinted (p : Program) (root c : Command) (arguments : List String) (word : String)
    (found : Completed) :
    Completed :=
  match c.hints with
  | .files => found
  | .nothing => { found with directive := .noFiles }
  | .topics =>
      match p.find root arguments with
      | .ok (topic, _) => ⟨found.candidates ++ p.commandCandidates topic word, .noFiles, none⟩
      | .error _ => { found with directive := .noFiles }

/-- How a word or the value of an option of a command may go on, when its arguments have been read.
`options` tells whether options may stand there. -/
def completeWord (p : Program) (root c : Command) (a : Arguments) (options : Bool) (t : Typed) :
    Completed :=
  if t.flag.isNone && options && t.word.startsWith "-" && !t.word.toList.contains '=' then
    ⟨(p.openFlags c a.given).flatMap (flagCandidates t.word), .noFiles, none⟩
  else
    let isFree := a.rest.isEmpty && !(p.ownFlags c).any fun flag => a.given.has flag.name
    let found : Completed :=
      if t.flag.isNone && isFree && !(p.children c.path).isEmpty then
        ⟨p.commandCandidates c t.word, .noFiles, none⟩
      else {}
    if t.flag.isSome && options then found else p.hinted root c a.rest t.word found

/-- How the last word for a command may go on, behind other arguments. -/
def completeFor (p : Program) (root c : Command) (arguments : List String) (word : String) :
    Completed :=
  let t := typed (p.allFlags c) arguments word
  match readArguments (p.allFlags c) {} t.arguments with
  | .error error =>
      { problem := some ("Error while parsing flags from args " ++ listed t.arguments ++ ": " ++
          error.message) }
  | .ok a =>
      let options := match readArguments (p.allFlags c) {} (t.arguments ++ ["--"]) with
        | .ok b => b.rest.length == a.rest.length
        | .error _ => true
      match t.missing, options with
      | some name, true =>
          { problem :=
              some ("Subcommand '" ++ c.path.getLast?.getD p.name ++
                "' does not support flag '" ++ name ++ "'") }
      | _, _ =>
          if a.given.has "help" || (c.path.isEmpty && a.given.has "version") then
            { directive := .noFiles }
          else p.completeWord root c a options t

/-- How the last word of a command line may go on. -/
def complete (p : Program) (root : Command) (words : List String) : Completed :=
  let before := words.dropLast
  match p.find root before with
  | .error _ => { problem := some ("unable to find a command for arguments: " ++ listed before) }
  | .ok (c, arguments) => p.completeFor root c arguments (words.getLast?.getD "")

end Program

end JarMetrics.CommandLine
