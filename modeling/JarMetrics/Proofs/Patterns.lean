import JarMetrics.Glob

/-!
# Patterns with a fixed ending

A pattern may end in characters that stand for themselves, behind a star. `isMatch_star` and
`isMatch_deep` say what such patterns match: `*` before the ending takes the names with that ending
and without a slash, and `**/*` before it all names with that ending.

The matcher tries the ending at one place after the other. `run_literal` is what one such try comes
to, and `run_star`, by induction on the rest of the name, what all of them come to.
-/

namespace JarMetrics.Glob

/-! ## Characters that stand for themselves -/

/-- A character that stands for itself and does not end a segment. -/
def IsLiteral (c : Char) : Prop := c ∉ ['*', '?', '[', '\x7b', '\\', '/']

/-- A text of such characters. -/
def Literal (text : List Char) : Prop := ∀ c ∈ text, IsLiteral c

instance (c : Char) : Decidable (IsLiteral c) := inferInstanceAs (Decidable (_ ∉ _))

theorem Literal.tail {c : Char} {rest : List Char} (literal : Literal (c :: rest)) : Literal rest :=
  fun d member => literal d (List.mem_cons_of_mem _ member)

theorem Literal.head {c : Char} {rest : List Char} (literal : Literal (c :: rest)) : IsLiteral c :=
  literal c List.mem_cons_self

theorem matchesEmpty_literal {pattern : List Char} (literal : Literal pattern) (fuel : Nat) :
    matchesEmpty fuel pattern = pattern.isEmpty := by
  cases pattern with
  | nil => simp [matchesEmpty]
  | cons c rest =>
    have plain := literal.head
    simp only [IsLiteral, List.mem_cons, List.not_mem_nil, or_false, not_or] at plain
    unfold matchesEmpty
    split <;> simp_all

theorem move_literal {d : Char} {rest : List Char} (plain : IsLiteral d) (s : State)
    (here : s.pattern = d :: rest) (c : Char) (name : List Char) :
    s.move c name =
      if d = c then .resume { s with pattern := rest, name, segmentStart := c = '/' }
      else .mismatch := by
  simp only [IsLiteral, List.mem_cons, List.not_mem_nil, or_false, not_or] at plain
  unfold State.move
  rw [here]
  split <;> simp_all

/-! ## Trying the ending at one place -/

theorem run_mismatch (fuel : Nat) (s : State) {c : Char} {rest : List Char}
    (here : s.name = c :: rest) (mismatched : s.move c rest = .mismatch) :
    run (fuel + 1) s = s.fallBack.any (run fuel) := by
  rw [run, here]
  simp only [mismatched]
  cases s.fallBack <;> rfl

theorem run_resume (fuel : Nat) (s next : State) {c : Char} {rest : List Char}
    (here : s.name = c :: rest) (moved : s.move c rest = .resume next) :
    run (fuel + 1) s = run fuel next := by
  rw [run, here]
  simp only [moved]

/-- A fixed text at the end of a pattern is tried at the rest of a name. The match succeeds if the
text is that rest and fails if it goes on behind the end of the name. Otherwise the matcher falls
back, after at most one move for each character of the text. -/
theorem run_literal {text : List Char} (literal : Literal text) (name : List Char) (first : Bool)
    (star deep : Option Retry) (fuel : Nat) (enough : text.length < fuel) :
    (name <+: text ∧ run fuel ⟨text, name, first, star, deep⟩ = decide (text = name)) ∨
      ¬ name <+: text ∧ ∃ left, fuel ≤ left + text.length + 1 ∧
        run fuel ⟨text, name, first, star, deep⟩ =
          (State.fallBack ⟨[], [], true, star, deep⟩).any (run left) := by
  induction text generalizing name first fuel with
  | nil =>
    obtain ⟨fuel, rfl⟩ : ∃ left, fuel = left + 1 := ⟨fuel - 1, by simp at enough; omega⟩
    cases name with
    | nil => exact .inl ⟨List.prefix_rfl, by simp [run, matchesEmpty]⟩
    | cons c rest =>
      refine .inr ⟨by simp, fuel, by simp, ?_⟩
      rw [run_mismatch fuel _ rfl rfl]
      rfl
  | cons d text ih =>
    obtain ⟨fuel, rfl⟩ : ∃ left, fuel = left + 1 := ⟨fuel - 1, by omega⟩
    simp only [List.length_cons] at enough
    cases name with
    | nil =>
      refine .inl ⟨List.nil_prefix, ?_⟩
      simp only [run, matchesEmpty_literal literal]
      rfl
    | cons c rest =>
      have moved := move_literal literal.head ⟨d :: text, c :: rest, first, star, deep⟩ rfl c rest
      by_cases same : d = c
      · subst same
        rw [if_pos rfl] at moved
        rw [run_resume fuel _ _ rfl moved]
        rcases ih literal.tail rest (d = '/') fuel (by omega) with ⟨front, ran⟩ |
          ⟨apart, left, spent, ran⟩
        · exact .inl ⟨by simpa using front, by simpa using ran⟩
        · exact .inr ⟨by simpa using apart, left, by simp; omega, ran⟩
      · rw [if_neg same] at moved
        refine .inr ⟨by simp [List.cons_prefix_cons, Ne.symm same], fuel, by omega, ?_⟩
        rw [run_mismatch fuel _ rfl moved]
        rfl

/-! ## Trying it everywhere -/

/-- The part of the name behind its first slash can be reached: by the pattern's `**/`, if it has
one. Otherwise the name holds no slash. -/
inductive Covers (text : List Char) : Option Retry → List Char → Prop
  | within {name : List Char} (plain : '/' ∉ name) : Covers text none name
  | across {start name : List Char}
      (same : start.dropWhile (· != '/') = name.dropWhile (· != '/')) :
      Covers text (some ⟨'*' :: text, start⟩) name

theorem Covers.tail {text : List Char} {deep : Option Retry} {c : Char} {rest : List Char}
    (covers : Covers text deep (c :: rest)) (inside : c ≠ '/') : Covers text deep rest := by
  cases covers with
  | within plain => exact .within fun slash => plain (List.mem_cons_of_mem c slash)
  | across same =>
    rw [List.dropWhile_cons_of_pos (by simpa using inside)] at same
    exact .across same

theorem matchesEmpty_star {text : List Char} (literal : Literal text) (someText : text ≠ [])
    (fuel : Nat) :
    matchesEmpty fuel ('*' :: text) = false := by
  obtain ⟨d, rest, rfl⟩ := List.exists_cons_of_ne_nil someText
  have plain := literal.head
  simp only [IsLiteral, List.mem_cons, List.not_mem_nil, or_false, not_or] at plain
  unfold matchesEmpty
  split <;> simp_all

/-- A star before a fixed text, at a place where it has not taken anything yet. -/
theorem run_at_star {text : List Char} (literal : Literal text) (someText : text ≠ [])
    (name : List Char) (first : Bool) (star deep : Option Retry) (fuel : Nat) :
    run (fuel + 1) ⟨'*' :: text, name, first, star, deep⟩ =
      (!name.isEmpty && run fuel ⟨text, name, false, some ⟨text, name⟩, deep⟩) := by
  cases name with
  | nil =>
    simp only [run, matchesEmpty_star literal someText, List.isEmpty_nil,
      Bool.not_true, Bool.false_and]
  | cons c rest =>
    obtain ⟨d, others, rfl⟩ := List.exists_cons_of_ne_nil someText
    have plain := literal.head
    simp only [IsLiteral, List.mem_cons, List.not_mem_nil, or_false, not_or] at plain
    rw [run_resume fuel _ ⟨d :: others, c :: rest, false, some ⟨d :: others, c :: rest⟩, deep⟩ rfl]
    · simp
    · simp [State.move, State.atStar, plain]

/-- A star before a fixed text takes all of the name but that text: the match succeeds if and only
if the name ends in it. -/
theorem run_star {text : List Char} (literal : Literal text) (someText : text ≠ [])
    (name : List Char) (first : Bool) (deep : Option Retry) (fuel : Nat)
    (covers : Covers text deep name) (enough : (text.length + 2) * (name.length + 1) ≤ fuel) :
    run fuel ⟨text, name, first, some ⟨text, name⟩, deep⟩ = decide (text <:+ name) := by
  induction name generalizing first deep fuel with
  | nil =>
    rcases run_literal literal [] first (some ⟨text, []⟩) deep fuel (by simp at enough; omega) with
      ⟨-, ran⟩ | ⟨apart, -⟩
    · rw [ran]; simp
    · exact absurd List.nil_prefix apart
  | cons c rest ih =>
    have spent : (text.length + 2) * (rest.length + 1) + text.length + 2 ≤ fuel := by
      rw [List.length_cons, Nat.mul_add _ (rest.length + 1), Nat.mul_one] at enough
      omega
    rcases run_literal literal (c :: rest) first (some ⟨text, c :: rest⟩) deep fuel (by omega) with
      ⟨front, ran⟩ | ⟨apart, left, used, ran⟩
    · rw [ran]
      -- Here the name is at most as long as the text, so ending in it is being it.
      have same : text = c :: rest ↔ text <:+ c :: rest :=
        ⟨fun same => same ▸ List.suffix_rfl, fun ends => ends.eq_of_length_le front.length_le⟩
      simp [same]
    · have ends : text <:+ c :: rest ↔ text <:+ rest := by
        rw [List.suffix_cons_iff, or_iff_right]
        exact fun same => apart (same ▸ List.prefix_rfl)
      rw [ran, decide_eq_decide.mpr ends]
      -- The star takes one character more. A slash it does not take; there `**/` does, and the star
      -- starts anew.
      by_cases slash : c = '/'
      · subst slash
        cases covers with
        | within plain => exact absurd List.mem_cons_self plain
        | @across start _ behind =>
          rw [List.dropWhile_cons_of_neg (by simp)] at behind
          have next :
              State.fallBack ⟨[], [], true, some ⟨text, '/' :: rest⟩, some ⟨'*' :: text, start⟩⟩ =
              some ⟨'*' :: text, rest, true, some ⟨text, '/' :: rest⟩,
                some ⟨'*' :: text, rest⟩⟩ := by
            simp [State.fallBack, behind]
          obtain ⟨left, rfl⟩ : ∃ more, left = more + 1 := ⟨left - 1, by omega⟩
          rw [next, Option.any_some, run_at_star literal someText,
            ih false (some ⟨'*' :: text, rest⟩) left (.across rfl) (by omega)]
          cases rest <;> simp [someText]
      · have next : State.fallBack ⟨[], [], true, some ⟨text, c :: rest⟩, deep⟩ =
            some ⟨text, rest, false, some ⟨text, rest⟩, deep⟩ := by
          simp [State.fallBack, slash]
        rw [next, Option.any_some]
        exact ih false deep left (covers.tail slash) (by omega)

/-! ## Whole names -/

theorem isMatch_ofList {text : List Char} (literal : Literal text) (front : List Char)
    (plain : '\x7b' ∉ front) (name : String) :
    ∃ fuel, (text.length + 2) * (name.toList.length + 1) + 2 ≤ fuel ∧
      isMatch (String.ofList (front ++ text)) name =
        run fuel ⟨front ++ text, name.toList, true, none, none⟩ := by
  have noBraces : (front ++ text).count '\x7b' = 0 := by
    rw [List.count_eq_zero, List.mem_append, not_or]
    exact ⟨plain, fun brace => literal _ brace (by simp)⟩
  refine ⟨_, ?_, by rw [isMatch, String.toList_ofList]⟩
  rw [noBraces, Nat.zero_add, Nat.mul_one]
  calc (text.length + 2) * (name.toList.length + 1) + 2
      ≤ (text.length + 2) * (name.toList.length + 2) := by
        rw [Nat.mul_add _ _ 2, Nat.mul_add _ _ 1]; omega
    _ ≤ ((front ++ text).length + 2) * (name.toList.length + 2) :=
        Nat.mul_le_mul_right _ (by simp)
    _ ≤ ((front ++ text).length + 2) * (name.toList.length + 2) * (name.toList.length + 2) :=
        Nat.le_mul_of_pos_right _ (by omega)

/-- A star before a fixed text matches the names of one segment that end in it. -/
theorem isMatch_star {text : List Char} (literal : Literal text) (someText : text ≠ [])
    {name : String} (plain : '/' ∉ name.toList) :
    isMatch (String.ofList ('*' :: text)) name = decide (text <:+ name.toList) := by
  obtain ⟨fuel, enough, ran⟩ := isMatch_ofList literal ['*'] (by decide) name
  obtain ⟨fuel, rfl⟩ : ∃ left, fuel = left + 1 := ⟨fuel - 1, by omega⟩
  rw [List.singleton_append] at ran
  rw [ran, run_at_star literal someText,
    run_star literal someText _ _ _ _ (.within plain) (by omega)]
  cases name.toList <;> simp [someText]

/-- With `**/` before it, it matches all names that end in the text. -/
theorem isMatch_deep {text : List Char} (literal : Literal text) (someText : text ≠ [])
    (name : String) :
    isMatch (String.ofList ('*' :: '*' :: '/' :: '*' :: text)) name =
      decide (text <:+ name.toList) := by
  obtain ⟨fuel, enough, ran⟩ := isMatch_ofList literal ['*', '*', '/', '*'] (by decide) name
  obtain ⟨fuel, rfl⟩ : ∃ left, fuel = left + 2 := ⟨fuel - 2, by omega⟩
  refine ran.trans ?_
  cases chars : name.toList with
  | nil => simp [run, matchesEmpty, someText]
  | cons c rest =>
    rw [run_resume (fuel + 1) _ ⟨'*' :: text, c :: rest, true, none,
      some ⟨'*' :: text, c :: rest⟩⟩ rfl rfl, run_at_star literal someText, ← chars,
      run_star literal someText _ _ _ _ (.across rfl) (by omega)]
    simp [chars]

end JarMetrics.Glob
