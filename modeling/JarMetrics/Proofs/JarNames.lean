import JarMetrics.Files.Discovery
import JarMetrics.Proofs.Patterns

/-!
# The names of archives

`EndsInJar` says that a text ends in `.jar` in any letter case. Two tests of the library come down
to it: the pattern by which directories are searched, which looks at a path in lower case
(`isJarPath_iff`), and the check of a single file, which compares the ending of its path up to case
(`hasJarEnding_iff`).

The two do not treat the same characters outside ASCII as cases of a letter. They agree because none
of these is a case of a letter in `.jar`, which is what `OnlyAscii` says of a character.
-/

namespace JarMetrics

/-- The text ends in `.jar`, in any letter case. -/
def EndsInJar (text : String) : Prop := ['.', 'j', 'a', 'r'] <:+ text.toList.map Char.toLower

instance (text : String) : Decidable (EndsInJar text) := inferInstanceAs (Decidable (_ <:+ _))

/-! ## Letter case outside ASCII -/

namespace Text

/-- A character of ASCII that is no lower case and no folded form of a character outside ASCII. -/
def OnlyAscii (x : Char) : Prop := x.toNat < 0x80 ∧ x ∉ ['\x00', 'i', 'k', 's']

instance (x : Char) : Decidable (OnlyAscii x) := inferInstanceAs (Decidable (_ ∧ _))

theorem only_ascii_of_mem_jar {x : Char} (member : x ∈ ['.', 'j', 'a', 'r']) : OnlyAscii x := by
  simp only [List.mem_cons, List.not_mem_nil, or_false] at member
  rcases member with rfl | rfl | rfl | rfl <;> decide

/-- What the table for lower case yields lies outside ASCII, apart from two letters. -/
theorem shifted_of_mem_lowerRanges : ∀ r ∈ lowerRanges,
    0x80 ≤ r.first + r.shift ∨ r.first = r.last ∧
    (r.first + r.shift = 0x69 ∨ r.first + r.shift = 0x6B) := by
  decide +kernel

theorem toLower_of_not_ascii {c : Char} (outside : 0x80 ≤ c.toNat) : c.toLower = c := by
  unfold Char.toLower
  split
  next upper =>
    have low : c.val.toNat ≤ 'Z'.val.toNat := UInt32.le_iff_toNat_le.mp upper.2
    have same : c.toNat = c.val.toNat := rfl
    have last : 'Z'.val.toNat = 90 := rfl
    omega
  next => rfl

/-- Only letters are the lower case of something else. -/
theorem eq_of_toLower {c x : Char} (lowered : c.toLower = x) (notLetter : x.toNat < 97) :
    c = x := by
  unfold Char.toLower at lowered
  split at lowered
  next upper =>
    have above : 'A'.val.toNat ≤ c.val.toNat := UInt32.le_iff_toNat_le.mp upper.1
    have below : c.val.toNat ≤ 'Z'.val.toNat := UInt32.le_iff_toNat_le.mp upper.2
    have code : (c.val + ('a'.val - 'A'.val)).toNat = x.toNat := congrArg Char.toNat lowered
    rw [UInt32.toNat_add] at code
    simp at above below code
    omega
  next => exact lowered

theorem eq_toNat_of_ofNat {n : Nat} {x : Char} (same : Char.ofNat n = x) (valid : x ≠ '\x00') :
    n = x.toNat := by
  by_cases code : n.isValidChar
  · have made : Char.ofNat n = Char.ofNatAux n code := dif_pos code
    rw [← same, made]
    rfl
  · have made : Char.ofNat n = '\x00' := dif_neg code
    exact absurd (same.symm.trans made) valid

theorem mapCase_lowerRanges_ne {c x : Char} (outside : 0x80 ≤ c.toNat) (onlyAscii : OnlyAscii x) :
    mapCase lowerRanges c ≠ x := by
  obtain ⟨ascii, others⟩ := onlyAscii
  simp only [List.mem_cons, List.not_mem_nil, or_false, not_or] at others
  intro same
  unfold mapCase at same
  split at same
  next r found =>
    have bounds := Array.find?_some found
    simp only [Bool.and_eq_true, decide_eq_true_eq] at bounds
    obtain ⟨⟨above, below⟩, -⟩ := bounds
    have code := eq_toNat_of_ofNat same others.1
    -- A range whose lower case is in ASCII has one character, so that the result is one of the two
    -- letters left out.
    rcases shifted_of_mem_lowerRanges r (Array.mem_of_find?_eq_some found) with far |
      ⟨single, image⟩
    · omega
    · have here : c.toNat = r.first := by omega
      rw [here] at same
      rcases image with image | image <;> rw [image] at same
      · exact others.2.1 same.symm
      · exact others.2.2.1 same.symm
  next =>
    rw [same] at outside
    omega

/-- Lower case gives such a character exactly where it does in ASCII. -/
theorem lowerChar_eq_iff {x : Char} (onlyAscii : OnlyAscii x) (c : Char) :
    lowerChar c = x ↔ c.toLower = x := by
  unfold lowerChar
  split
  next => exact Iff.rfl
  next outside =>
    have outside : 0x80 ≤ c.toNat := by omega
    rw [toLower_of_not_ascii outside]
    refine iff_of_false (mapCase_lowerRanges_ne outside onlyAscii) fun same => ?_
    rw [same] at outside
    exact absurd onlyAscii.1 (by omega)

/-- Folding gives such a character exactly where lower case in ASCII does. -/
theorem fold_eq_iff {x : Char} (onlyAscii : OnlyAscii x) (c : Char) :
    equalFold.fold c = x ↔ c.toLower = x := by
  obtain ⟨ascii, others⟩ := onlyAscii
  simp only [List.mem_cons, List.not_mem_nil, or_false, not_or] at others
  have apart : 0x80 ≤ c.toNat → c.toLower ≠ x := by
    intro outside same
    rw [toLower_of_not_ascii outside] at same
    rw [same] at outside
    omega
  unfold equalFold.fold
  split
  next code => exact iff_of_false (Ne.symm others.2.2.2) (apart (by omega))
  split
  next code => exact iff_of_false (Ne.symm others.2.2.1) (apart (by omega))
  next => exact Iff.rfl

theorem eq_map_iff {f g : Char → Char} {text : List Char}
    (agree : ∀ x ∈ text, ∀ c, f c = x ↔ g c = x) (chars : List Char) :
    text = chars.map f ↔ text = chars.map g := by
  induction text generalizing chars with
  | nil => simp
  | cons x text ih =>
    cases chars with
    | nil => simp
    | cons c chars =>
      simp only [List.map_cons, List.cons.injEq, eq_comm (a := x), agree x List.mem_cons_self,
        ih (fun y member => agree y (List.mem_cons_of_mem x member))]

theorem jar_suffix_lower_iff (text : String) :
    ['.', 'j', 'a', 'r'] <:+ (lower text).toList ↔ EndsInJar text := by
  rw [lower, String.toList_map, EndsInJar, List.suffix_map_iff, List.suffix_map_iff]
  have agree (chars : List Char) : ['.', 'j', 'a', 'r'] = chars.map lowerChar ↔
      ['.', 'j', 'a', 'r'] = chars.map Char.toLower :=
    eq_map_iff (fun _ member => lowerChar_eq_iff (only_ascii_of_mem_jar member)) chars
  simp only [agree]

theorem not_slash_mem_lower {text : String} (plain : '/' ∉ text.toList) :
    '/' ∉ (lower text).toList := by
  rw [lower, String.toList_map, List.mem_map]
  rintro ⟨c, member, lowered⟩
  rw [lowerChar_eq_iff (by decide)] at lowered
  rw [eq_of_toLower lowered (by decide)] at member
  exact plain member

end Text

/-! ## The pattern for archives -/

theorem literal_jar : Glob.Literal ['.', 'j', 'a', 'r'] := by
  intro c member
  simp only [List.mem_cons, List.not_mem_nil, or_false] at member
  rcases member with rfl | rfl | rfl | rfl <;> decide

/-- Files are archives by the ending of their path, in a directory as well as at any depth. -/
theorem isJarPath_iff {recursive : Bool} {path : String}
    (flat : recursive = false → '/' ∉ path.toList) :
    isJarPath recursive path = true ↔ EndsInJar path := by
  rw [← Text.jar_suffix_lower_iff, isJarPath]
  cases recursive with
  | true =>
    have pattern : jarPattern true =
        String.ofList ('*' :: '*' :: '/' :: '*' :: ['.', 'j', 'a', 'r']) := by decide
    rw [pattern, Glob.isMatch_deep literal_jar (by decide), decide_eq_true_iff]
  | false =>
    have pattern : jarPattern false = String.ofList ('*' :: ['.', 'j', 'a', 'r']) := by decide
    rw [pattern, Glob.isMatch_star literal_jar (by decide) (Text.not_slash_mem_lower (flat rfl)),
      decide_eq_true_iff]

theorem suffix_of_suffix_slash {ending front name : List Char}
    (ends : ending <:+ front ++ '/' :: name) (plain : '/' ∉ ending) : ending <:+ name := by
  have whole : '/' :: name <:+ front ++ '/' :: name := List.suffix_append ..
  rcases List.suffix_or_suffix_of_suffix ends whole with inside | outside
  · rcases List.suffix_cons_iff.mp inside with same | inside
    · rw [same] at plain
      exact absurd List.mem_cons_self plain
    · exact inside
  · exact absurd (outside.mem List.mem_cons_self) plain

/-- What ends in `.jar` does so in its last name. -/
theorem endsInJar_append (front name : String) :
    EndsInJar (front ++ "/" ++ name) ↔ EndsInJar name := by
  have chars : (front ++ "/" ++ name).toList.map Char.toLower =
      front.toList.map Char.toLower ++ '/' :: name.toList.map Char.toLower := by
    simp [String.toList_append]
  unfold EndsInJar
  rw [chars]
  constructor
  · intro ends
    exact suffix_of_suffix_slash ends (by decide)
  · intro ends
    exact ends.trans ((List.suffix_cons ..).trans (List.suffix_append ..))

/-! ## The ending of a path -/

theorem prefix_through_dot {chars : List Char} (dotted : '.' ∈ chars) :
    chars.takeWhile (· != '.') ++ ['.'] <+: chars := by
  induction chars with
  | nil => simp at dotted
  | cons c rest ih =>
    by_cases dot : c = '.'
    · simp [dot]
    · rw [List.takeWhile_cons_of_pos (by simpa using dot), List.cons_append, List.prefix_cons_inj]
      exact ih ((List.mem_cons.mp dotted).resolve_left (Ne.symm dot))

theorem ending_suffix (path : String) : (Path.ending path).toList <:+ path.toList := by
  rw [← List.reverse_prefix]
  unfold Path.ending
  dsimp only
  split
  next dotted =>
    simp only [String.toList_append, String.toList_ofList,
      List.reverse_append, List.reverse_reverse]
    exact (prefix_through_dot (List.contains_iff_mem.mp dotted)).trans (List.takeWhile_prefix _)
  next => simp

/-- A path has the ending of archives if and only if it ends in `.jar`, in any letter case. -/
theorem hasJarEnding_iff (path : String) : hasJarEnding path = true ↔ EndsInJar path := by
  have folded (chars : List Char) : chars.map Text.equalFold.fold = ".jar".toList ↔
      ['.', 'j', 'a', 'r'] = chars.map Char.toLower := by
    rw [eq_comm, show ".jar".toList = ['.', 'j', 'a', 'r'] by decide]
    exact Text.eq_map_iff
      (fun _ member => Text.fold_eq_iff (Text.only_ascii_of_mem_jar member)) chars
  rw [hasJarEnding, Text.equalFold, beq_iff_eq, folded, EndsInJar, List.suffix_map_iff]
  constructor
  · intro same
    exact ⟨_, ending_suffix path, same⟩
  · rintro ⟨ending, ⟨stem, chars⟩, same⟩
    -- The ending of a path starts at its last dot. Of the last four characters only the first is
    -- one, and none is a slash.
    obtain ⟨a, rest, rfl, dot, same⟩ := List.map_eq_cons_iff.mp same.symm
    obtain ⟨b, rest, rfl, j, same⟩ := List.map_eq_cons_iff.mp same
    obtain ⟨c, rest, rfl, a', same⟩ := List.map_eq_cons_iff.mp same
    obtain ⟨d, rest, rfl, r, same⟩ := List.map_eq_cons_iff.mp same
    obtain rfl := List.map_eq_nil_iff.mp same
    have separate {x y : Char} (lowered : x.toLower = y)
        (apart : '.'.toLower ≠ y ∧ '/'.toLower ≠ y) :
        x ≠ '.' ∧ x ≠ '/' :=
      ⟨fun same => apart.1 (same ▸ lowered), fun same => apart.2 (same ▸ lowered)⟩
    have first : a = '.' := Text.eq_of_toLower dot (by decide)
    have second := separate j (by decide)
    have third := separate a' (by decide)
    have fourth := separate r (by decide)
    have whole : Path.ending path = String.ofList [a, b, c, d] := by
      simp [Path.ending, ← chars, first, second, third, fourth]
    rw [whole, String.toList_ofList]
    simp [dot, j, a', r]

end JarMetrics
