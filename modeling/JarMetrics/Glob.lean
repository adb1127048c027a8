/-!
# Patterns for entry names

`*` matches within a segment, `**` as a whole segment matches any number of segments, `?` one
character, `[...]` a set of characters, `{a,b}` either alternative, and a backslash takes the next
character literally. Segments end at `/`.

Matching is greedy with two fall-back points, one for the latest `*` and one for the latest `**`. A
set may match a `/`, which a `*` cannot; so the latest `*` is not always the one that could still
help, and a name can be refused that another choice would have matched.
-/

namespace JarMetrics.Glob

/-! ## Alternatives -/

/-- Split behind an opening brace at the closing brace that belongs to it: what is inside and what
follows. -/
def splitClosing (depth : Nat) : List Char → List Char → Option (List Char × List Char)
  | [], _ => none
  | '\\' :: c :: rest, inside => splitClosing depth rest (c :: '\\' :: inside)
  | '\x7b' :: rest, inside => splitClosing (depth + 1) rest ('\x7b' :: inside)
  | '\x7d' :: rest, inside =>
      match depth with
      | 0 => some (inside.reverse, rest)
      | depth + 1 => splitClosing depth rest ('\x7d' :: inside)
  | c :: rest, inside => splitClosing depth rest (c :: inside)

/-- Split at the commas that are not inside inner braces. -/
def splitCommas (depth : Nat) : List Char → List Char → List (List Char)
  | [], current => [current.reverse]
  | '\\' :: c :: rest, current => splitCommas depth rest (c :: '\\' :: current)
  | '\x7b' :: rest, current => splitCommas (depth + 1) rest ('\x7b' :: current)
  | '\x7d' :: rest, current => splitCommas (depth - 1) rest ('\x7d' :: current)
  | ',' :: rest, current =>
      if depth = 0 then current.reverse :: splitCommas depth rest []
      else splitCommas depth rest (',' :: current)
  | c :: rest, current => splitCommas depth rest (c :: current)

/-- The patterns that a pattern behind an opening brace stands for: each alternative followed by
what comes after the closing brace. -/
def alternatives (afterBrace : List Char) : List (List Char) :=
  match splitClosing 0 afterBrace [] with
  | some (inside, rest) => (splitCommas 0 inside []).map (· ++ rest)
  | none => []

/-! ## Character sets -/

/-- The pattern behind the closing bracket of a set. -/
def afterSet : List Char → Option (List Char)
  | [] => none
  | '\\' :: _ :: rest => afterSet rest
  | ']' :: rest => some rest
  | _ :: rest => afterSet rest

/-- Look for a character in a set, `last` being the possible start of a range. Whether it is there,
and the pattern from where the search stopped. Each step takes a character, so `fuel` may be the
length. -/
def searchSet (c : Char) : Nat → Option Char → List Char → Bool × List Char
  | 0, _, set => (false, set)
  | _ + 1, _, [] => (false, [])
  | _ + 1, _, ']' :: rest => (false, ']' :: rest)
  | fuel + 1, last, d :: rest =>
      let range : Option (Char × Char × List Char) :=
        match last, d, rest with
        | some low, '-', '\\' :: high :: rest => some (low, high, rest)
        | _, '-', ']' :: _ => none
        | some low, '-', high :: rest => some (low, high, rest)
        | _, _, _ => none
      match range with
      | some (low, high, rest) =>
          if low ≤ c ∧ c ≤ high then (true, rest) else searchSet c fuel none rest
      | none =>
          let (member, rest) : Char × List Char :=
            match d, rest with
            | '\\', e :: rest => (e, rest)
            | _, _ => (d, rest)
          if member = c then (true, rest) else searchSet c fuel (some member) rest

/-- Match a character against a set behind its opening bracket; the pattern after the set on
success. -/
def matchSet (c : Char) (set : List Char) : Option (List Char) :=
  let (negated, body) : Bool × List Char :=
    match set with
    | '!' :: rest => (true, rest)
    | '^' :: rest => (true, rest)
    | _ => (false, set)
  match body with
  | [] => none
  | ']' :: _ => none
  | _ =>
      let (found, rest) := searchSet c body.length none body
      if found = negated then none else afterSet rest

/-! ## Validity -/

/-- Skip a set behind its opening bracket; it must hold something and be closed. -/
def validSet (set : List Char) : Option (List Char) :=
  let body : List Char :=
    match set with
    | '!' :: rest => rest
    | '^' :: rest => rest
    | _ => set
  match body with
  | [] => none
  | ']' :: _ => none
  | _ => afterSet body

/-- Whether a pattern is well formed inside `depth` braces. Each step takes a character, so `fuel`
may be the length. -/
def validFrom : Nat → Nat → List Char → Bool
  | _, depth, [] => depth == 0
  | 0, _, _ => false
  | fuel + 1, depth, '\\' :: rest =>
      match rest with
      | [] => false
      | _ :: rest => validFrom fuel depth rest
  | fuel + 1, depth, '[' :: rest =>
      match validSet rest with
      | some rest => validFrom fuel depth rest
      | none => false
  | fuel + 1, depth, '\x7b' :: rest => validFrom fuel (depth + 1) rest
  | fuel + 1, depth, '\x7d' :: rest =>
      match depth with
      | 0 => false
      | depth + 1 => validFrom fuel depth rest
  | fuel + 1, depth, _ :: rest => validFrom fuel depth rest

/-- Whether a pattern is well formed. -/
def isValid (pattern : String) : Bool :=
  validFrom pattern.length 0 pattern.toList

/-! ## Matching -/

/-- Whether a pattern matches when nothing is left of the name. `fuel` bounds the nesting of
braces. -/
def matchesEmpty : Nat → List Char → Bool
  | _, [] => true
  | _, ['*'] => true
  | _, ['*', '*'] => true
  | _, ['/', '*', '*'] => true
  | _, ['*', '*', '/'] => true
  | _, ['/', '*', '*', '/'] => true
  | fuel + 1, '\x7b' :: rest => (alternatives rest).any (matchesEmpty fuel)
  | _, _ => false

/-- A point to fall back to: the pattern and the name from there on. -/
structure Retry where
  pattern : List Char
  name : List Char
  deriving Repr, DecidableEq

/-- Put `replacement` in place of `current` at the end of a fall-back pattern. -/
def Retry.substitute (r : Retry) (current replacement : List Char) : Retry :=
  { r with pattern := r.pattern.take (r.pattern.length - current.length) ++ replacement }

/-- The state of a match: what is left of pattern and name, whether a segment of the pattern starts
here, and the fall-back points of the latest `*` and `**`. -/
structure State where
  pattern : List Char
  name : List Char
  segmentStart : Bool
  star : Option Retry
  deep : Option Retry
  deriving Repr, DecidableEq

/-- Where to go on after a mismatch: let the latest `*` take one more character, or else the latest
`**` one more segment. -/
def State.fallBack (s : State) : Option State :=
  let viaDeep : Option State :=
    match s.deep with
    | none => none
    | some r =>
        match r.name.dropWhile (· != '/') with
        | [] => none
        | _ :: rest => some ⟨r.pattern, rest, true, s.star, some { r with name := rest }⟩
  match s.star with
  | some ⟨pattern, c :: rest⟩ =>
      if c = '/' then viaDeep
      else some ⟨pattern, rest, false, some ⟨pattern, rest⟩, s.deep⟩
  | _ => viaDeep

/-- One step of a match that has something left of the name. -/
inductive Move
  | accept
  | mismatch
  | resume (s : State)
  /-- Any of the patterns may go on in place of the rest of this one. -/
  | branch (patterns : List (List Char))

/-- A star: what follows it is tried here, and after every further character of the segment. -/
def State.atStar (s : State) (rest : List Char) : Move :=
  .resume { s with pattern := rest, segmentStart := false, star := some ⟨rest, s.name⟩ }

/-- The next move, given the first character of the name. -/
def State.move (s : State) (c : Char) (name : List Char) : Move :=
  match s.pattern with
  | [] => .mismatch
  | '*' :: '*' :: rest =>
      if s.segmentStart then
        match rest with
        | [] => .accept
        | '/' :: rest =>
            .resume { s with pattern := rest, star := none, deep := some ⟨rest, s.name⟩ }
        | _ => s.atStar rest
      else s.atStar rest
  | '*' :: rest => s.atStar rest
  | '?' :: rest =>
      if c = '/' then .mismatch else .resume { s with pattern := rest, name, segmentStart := false }
  | '[' :: set =>
      match matchSet c set with
      | some rest => .resume { s with pattern := rest, name, segmentStart := false }
      | none => .mismatch
  | '\x7b' :: rest => .branch (alternatives rest)
  | '\\' :: d :: rest =>
      if d = c then .resume { s with pattern := rest, name, segmentStart := c = '/' } else .mismatch
  | d :: rest =>
      if d = c then .resume { s with pattern := rest, name, segmentStart := c = '/' } else .mismatch

/-- Run a match for at most `fuel` moves. -/
def run : Nat → State → Bool
  | 0, _ => false
  | fuel + 1, s =>
      match s.name with
      | [] => matchesEmpty s.pattern.length s.pattern
      | c :: name =>
          match s.move c name with
          | .accept => true
          | .resume next => run fuel next
          | .mismatch =>
              match s.fallBack with
              | some next => run fuel next
              | none => false
          | .branch patterns =>
              patterns.any fun pattern =>
                run fuel
                  { s with
                    pattern
                    segmentStart := true
                    star := s.star.map (·.substitute s.pattern pattern)
                    deep := s.deep.map (·.substitute s.pattern pattern) }

/-- Whether a pattern matches a whole name. Between two falls of the `**` point the `*` point moves
at most once per character, and between those the pattern is passed at most once, so the moves are
bounded. -/
def isMatch (pattern name : String) : Bool :=
  let p := pattern.toList
  let n := name.toList
  run ((p.length + 2) * (n.length + 2) * (n.length + 2) * (p.count '\x7b' + 1))
    ⟨p, n, true, none, none⟩

end JarMetrics.Glob
