import JarMetrics.CommandLine.ListValue
import JarMetrics.Decimal.Numeral
import JarMetrics.Failure
import JarMetrics.Given
import JarMetrics.Settings.Lenient
import JarMetrics.Text.Quoted

/-!
# Options on a command line

Options have a name and may have a letter: `--name value`, `--name=value`, `-l value`, `-lvalue`,
`-l=value`. A switch needs no value, and letters of switches may be joined. All that is no option is
an argument, and so is everything behind `--`.
-/

namespace JarMetrics.CommandLine

/-- The value of an option. -/
inductive FlagValue
  | switch (on : Bool)
  | number (value : Int)
  | text (value : String)
  | list (items : List String)
  deriving Repr, DecidableEq

/-- An option. -/
structure Flag where
  name : String
  letter : Option Char := none
  /-- The value where the option is not given. -/
  standard : FlagValue
  usage : String := ""
  deriving Repr, DecidableEq

/-- Whether an option needs no value. -/
def Flag.isSwitch (flag : Flag) : Bool :=
  match flag.standard with
  | .switch _ => true
  | _ => false

/-- How an option is called in messages. -/
def Flag.title (flag : Flag) : String :=
  match flag.letter with
  | some letter => "-" ++ letter.toString ++ ", --" ++ flag.name
  | none => "--" ++ flag.name

/-- Why a command line cannot be read. -/
inductive FlagError
  | badForm (argument : String)
  | unknown (name : String)
  | unknownLetter (letter : Char) (letters : String)
  | noValue (argument : String)
  | noLetterValue (letter : Char) (letters : String)
  | badValue (value title reason : String)
  /-- Help is asked for, and there is no option for it. -/
  | help
  deriving Repr, DecidableEq

/-- A letter in quotes. Of a letter of several bytes the first one is shown. -/
def quotedLetter (c : Char) : String :=
  let shown := Char.ofNat ((c.toString.toUTF8.toList.headD 0).toNat)
  "'" ++ (if shown == '\'' then "\\'" else if shown == '"' then "\"" else Text.quotedChar shown) ++
    "'"

/-- The wording of an error. -/
def FlagError.message : FlagError → String
  | .badForm argument => "bad flag syntax: " ++ argument
  | .unknown name => "unknown flag: --" ++ name
  | .unknownLetter letter letters =>
      "unknown shorthand flag: " ++ quotedLetter letter ++ " in -" ++ letters
  | .noValue argument => "flag needs an argument: " ++ argument
  | .noLetterValue letter letters =>
      "flag needs an argument: " ++ quotedLetter letter ++ " in -" ++ letters
  | .badValue value title reason =>
      "invalid argument " ++ Text.quoted value ++ " for " ++
        Text.quoted title ++ " flag: " ++ reason
  | .help => "pflag: help requested"

/-- What a command line holds. -/
structure Arguments where
  /-- The options that were given, in the order in which they first were, with their values. -/
  values : List (String × FlagValue) := []
  rest : List String := []
  deriving Repr, DecidableEq

namespace Arguments

/-- The value of an option. -/
def value (a : Arguments) (flag : Flag) : FlagValue :=
  (a.values.lookup flag.name).getD flag.standard

/-- The options that were given. -/
def given (a : Arguments) : Given := .ofList (a.values.map (·.1))

/-- Note the value of an option. -/
def note (a : Arguments) (name : String) (value : FlagValue) : Arguments :=
  if (a.values.lookup name).isSome then
    { a with values := a.values.map fun (n, old) => if n == name then (n, value) else (n, old) }
  else { a with values := a.values ++ [(name, value)] }

/-- How a function that reads values tells that it cannot read one. -/
def unreadable (function value reason : String) : String :=
  "strconv." ++ function ++ ": parsing " ++ Text.quoted value ++ ": " ++ reason

/-- The reason why a numeral is not read. -/
def numeralReason : Decimal.NumeralError → String
  | .malformed => "invalid syntax"
  | .outOfRange => "value out of range"

/-- The value that an option takes on; a list that is given again grows. -/
def read (a : Arguments) (flag : Flag) (text : String) : Except String FlagValue :=
  match flag.standard with
  | .text _ => .ok (.text text)
  | .switch _ =>
      match Value.boolWord? text with
      | some on => .ok (.switch on)
      | none => .error (unreadable "ParseBool" text "invalid syntax")
  | .number _ =>
      match Decimal.readInteger text.toList with
      | .ok n => .ok (.number n)
      | .error error => .error (unreadable "ParseInt" text (numeralReason error))
  | .list _ =>
      match ListValue.read text with
      | .error error => .error error.message
      | .ok items =>
          match a.values.lookup flag.name with
          | some (.list before) => .ok (.list (before ++ items))
          | _ => .ok (.list items)

/-- Give an option a value. -/
def set (a : Arguments) (flag : Flag) (text : String) : Except FlagError Arguments :=
  match a.read flag text with
  | .ok value => .ok (a.note flag.name value)
  | .error reason => .error (.badValue text flag.title reason)

end Arguments

/-- Read an argument that starts with two dashes, without them. `following` is the argument behind
it; the answer tells whether that was used. -/
def readLong (flags : List Flag) (following : Option String) (body : String) (a : Arguments) :
    Except FlagError (Bool × Arguments) :=
  let argument := "--" ++ body
  if body.isEmpty || body.startsWith "-" || body.startsWith "=" then .error (.badForm argument)
  else
    let name := String.ofList (body.toList.takeWhile (· != '='))
    match flags.find? (·.name == name), body.toList.dropWhile (· != '='), following with
    | none, _, _ => .error (if name == "help" then .help else .unknown name)
    | some flag, _ :: value, _ => (a.set flag (String.ofList value)).map (false, ·)
    | some flag, [], following =>
        if flag.isSwitch then (a.set flag "true").map (false, ·)
        else
          match following with
          | some value => (a.set flag value).map (true, ·)
          | none => .error (.noValue argument)

/-- Read the letters behind one dash. `following` is the argument behind them; the answer tells
whether that was used. -/
def readLetters (flags : List Flag) (following : Option String) :
    List Char → Arguments → Except FlagError (Bool × Arguments)
  | [], a => .ok (false, a)
  | c :: more, a =>
      match flags.find? (·.letter == some c) with
      | none => .error (if c == 'h' then .help else .unknownLetter c (String.ofList (c :: more)))
      | some flag =>
          match more with
          | '=' :: first :: value => (a.set flag (String.ofList (first :: value))).map (false, ·)
          | _ =>
              if flag.isSwitch then
                match a.set flag "true" with
                | .ok a => readLetters flags following more a
                | .error error => .error error
              else if !more.isEmpty then (a.set flag (String.ofList more)).map (false, ·)
              else
                match following with
                | some value => (a.set flag value).map (true, ·)
                | none => .error (.noLetterValue c (String.ofList [c]))

/-- Read the arguments of a command line. -/
def readArguments (flags : List Flag) (a : Arguments) : List String → Except FlagError Arguments
  | [] => .ok a
  | argument :: rest =>
      if argument == "--" then .ok { a with rest := a.rest ++ rest }
      else
        let read := match argument.toList with
          | '-' :: '-' :: body => some (readLong flags rest.head? (String.ofList body) a)
          | '-' :: c :: letters => some (readLetters flags rest.head? (c :: letters) a)
          | _ => none
        match read with
        | none => readArguments flags { a with rest := a.rest ++ [argument] } rest
        | some (.error error) => .error error
        | some (.ok (used, a)) => readArguments flags a (if used then rest.drop 1 else rest)
  termination_by arguments => arguments.length
  decreasing_by
    · simp
    · split <;> grind

end JarMetrics.CommandLine
