import JarMetrics.Host

/-!
# Showing progress

Progress is shown on a terminal and nowhere else, and never when the environment asks for none.
-/

namespace JarMetrics

/-- Where progress could be shown. -/
inductive Screen
  /-- Not a file: kept in memory. -/
  | buffer
  | file (terminal : Bool)
  deriving Repr, DecidableEq

/-- Whether something is a terminal. -/
def Screen.isTerminal : Screen → Bool
  | .buffer => false
  | .file terminal => terminal

/-- How far the decoding of classes has come, for somebody who watches. -/
structure Progress where
  /-- Whether anything is shown at all. -/
  interactive : Bool := false
  /-- Whether something is being shown now. -/
  shown : Bool := false
  text : String := ""
  deriving Repr, DecidableEq

/-- What happens while classes are decoded. -/
inductive ProgressStep
  | reset
  | begin
  | advance (done total : Nat)
  | finish
  | moveTo (screen : Screen)
  deriving Repr, DecidableEq

namespace Progress

/-- Progress for a run on a machine; `terminal` tells whether messages go to one. -/
def on (host : Host) (terminal : Bool) : Progress :=
  let quiet := ["CI", "JARSCN_NO_PROGRESS"].any fun name => (host.lookup name).any (· != "")
  { interactive := terminal && !quiet }

/-- What is shown of so many classes. -/
def line (done total : Nat) : String :=
  "\rDecoding classes " ++ toString done ++ "/" ++ toString total

/-- Take a step. -/
def step (p : Progress) : ProgressStep → Progress
  | .reset => { p with shown := false }
  | .begin => if p.interactive then { p with shown := true } else p
  | .advance done total =>
      if p.interactive then { p with shown := true, text := p.text ++ line done total } else p
  | .finish => if p.shown then { p with shown := false, text := p.text ++ "\n" } else p
  | .moveTo screen => { p with interactive := screen.isTerminal, text := "" }

end Progress

end JarMetrics
