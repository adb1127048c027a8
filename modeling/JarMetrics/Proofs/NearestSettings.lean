import JarMetrics.Proofs.Spellings
import JarMetrics.Settings.Load
import Mathlib.Logic.Function.Iterate

/-!
# The nearest settings file

A search for settings goes from a directory to the one that holds it, and on until a directory holds
itself, which the root alone does. `above path k` is the directory after `k` of these steps. On the
names of a path from the root a step drops the last one (`directory_ofParts`), so there are as many
steps as names (`ascends_ofParts`), and the directories that are searched are those of the steps
(`map_upwards`).

`findFile_nearest` says what is found: the settings file of the first of these directories that has
one.
-/

namespace JarMetrics

/-! ## What holds a path -/

namespace Path

/-- Parts from the root that cannot be reduced are names. -/
theorem Trail.isName_of_mem {done : List String} (trail : Trail true done) :
    ∀ name ∈ done, IsName name := by
  induction trail with
  | back count possible =>
    rw [possible rfl]
    simp
  | name proper _ ih => simpa [proper] using ih

theorem trail_of_names {done : List String} (proper : ∀ name ∈ done, IsName name) (rooted : Bool) :
    Trail rooted done := by
  induction done with
  | nil => exact .nil rooted
  | cons name done ih =>
    exact .name (proper name List.mem_cons_self)
      (ih fun other member => proper other (List.mem_cons_of_mem name member))

theorem exists_names_of_clean {path : String} (rooted : isAbsolute path = true) :
    ∃ names, (∀ name ∈ names, IsName name) ∧ clean path = ofParts true names := by
  have trail := trail_parts path
  have spelled := clean_eq_ofParts path
  rw [rooted] at trail spelled
  exact ⟨_, fun name member => trail.isName_of_mem name (List.mem_reverse.mp member), spelled⟩

theorem isAbsolute_append {front : String} (rooted : isAbsolute front = true) (back : String) :
    isAbsolute (front ++ back) = true := by
  unfold isAbsolute at rooted ⊢
  obtain ⟨rest, chars⟩ := List.head?_eq_some_iff.mp (beq_iff_eq.mp rooted)
  simp [String.toList_append, chars]

/-- For someone who stands at a path from the root, every path has names from the root on. -/
theorem exists_names_of_absolute {here : String} (rooted : isAbsolute here = true) (path : String) :
    ∃ names, (∀ name ∈ names, IsName name) ∧ absolute here path = ofParts true names := by
  have someHere : ¬ here.isEmpty = true := by
    intro empty
    simp [String.isEmpty_iff.mp empty, isAbsolute] at rooted
  unfold absolute join
  rw [if_neg someHere]
  split
  next fromRoot => exact exists_names_of_clean fromRoot
  next =>
    split
    · exact exists_names_of_clean rooted
    · exact exists_names_of_clean (isAbsolute_append (isAbsolute_append rooted "/") path)

/-- A path from the root tells its names. -/
theorem filter_parts_ofParts {names : List String} (proper : ∀ name ∈ names, IsName name) :
    (parts (ofParts true names)).filter (· != "") = names := by
  by_cases none : names = []
  · rw [none]
    decide +kernel
  · rw [parts_ofParts (fun name member => (proper name member).2.2.2) none, if_pos rfl]
    simpa using fun name member => (proper name member).1

theorem isAbsolute_ofParts_true (names : List String) : isAbsolute (ofParts true names) = true := by
  simp [isAbsolute, ofParts, String.toList_append]

/-- A slash at the end of a path changes nothing. -/
theorem clean_append_slash {path : String} (rooted : isAbsolute path = true) :
    clean (path ++ "/") = clean path := by
  have split : parts (path ++ "/") = parts path ++ [""] := by
    have empty : parts "" = [""] := parts_of_plain (by simp)
    have behind := parts_append_slash path ""
    rwa [String.append_empty, empty] at behind
  rw [clean_eq_ofParts, clean_eq_ofParts, isAbsolute_append rooted, rooted,
    split, List.foldl_append]
  rfl

theorem directory_append {front name : String} (plain : '/' ∉ name.toList) :
    directory (front ++ "/" ++ name) = clean (front ++ "/") := by
  have backwards : (front ++ "/" ++ name).toList.reverse = name.toList.reverse ++ '/' ::
      front.toList.reverse := by
    simp [String.toList_append]
  have dropped : (name.toList.reverse ++ '/' :: front.toList.reverse).dropWhile (· != '/') =
      '/' :: front.toList.reverse := by
    rw [List.dropWhile_append_of_pos]
    · simp
    · intro c member
      have other : c ≠ '/' := fun slash => plain (slash ▸ List.mem_reverse.mp member)
      simpa using other
  unfold directory
  rw [backwards, dropped]
  exact congrArg clean (String.toList_injective (by simp))

/-- A path without its last name is the path of what holds it. -/
theorem directory_ofParts {names : List String} {name : String}
    (proper : ∀ part ∈ names ++ [name], IsName part) :
    directory (ofParts true (names ++ [name])) = ofParts true names := by
  have plain : '/' ∉ name.toList := (proper name (by simp)).2.2.2
  by_cases none : names = []
  · subst none
    have written : ofParts true ([] ++ [name]) = "" ++ "/" ++ name := by simp [ofParts]
    rw [written, directory_append plain]
    decide +kernel
  · have written : ofParts true (names ++ [name]) = ofParts true names ++ "/" ++ name := by
      have behind := String.intercalate_append_of_ne_nil (s := "/") none (List.cons_ne_nil name [])
      rw [String.intercalate_singleton] at behind
      simp [ofParts, behind, String.append_assoc]
    have trail : Trail true names.reverse := trail_of_names (fun part member =>
      proper part (List.mem_append_left _ (List.mem_reverse.mp member))) true
    have isClean := clean_ofParts trail
    rw [List.reverse_reverse] at isClean
    rw [written, directory_append plain,
      clean_append_slash (isAbsolute_ofParts_true names), isClean]

end Path

/-! ## The way up -/

namespace Settings

/-- The directory `k` steps up from a path. -/
def above (path : String) (k : Nat) : String := Path.directory^[k] path

theorem above_succ (path : String) (k : Nat) : above path (k + 1) = above (Path.directory path) k :=
  rfl

/-- The first step up drops the last name. -/
theorem above_ofParts_succ {names : List String} {name : String}
    (proper : ∀ part ∈ names ++ [name], Path.IsName part) (k : Nat) :
    above (Path.ofParts true (names ++ [name])) (k + 1) = above (Path.ofParts true names) k := by
  rw [above_succ, Path.directory_ofParts proper]

theorem isName_of_mem_reverse {names : List String} (proper : ∀ name ∈ names, Path.IsName name) :
    ∀ name ∈ names.reverse, Path.IsName name :=
  fun name member => proper name (List.mem_reverse.mp member)

/-- The way up from a path reaches the root in so many steps. The root holds itself, and nothing
before it does. -/
structure Ascends (path : String) (steps : Nat) : Prop where
  arrives : above path steps = "/"
  ends : Path.directory "/" = "/"
  goesOn : ∀ k < steps, Path.directory (above path k) ≠ above path k

theorem directory_ne {names : List String} {name : String}
    (proper : ∀ part ∈ names ++ [name], Path.IsName part) :
    Path.directory (Path.ofParts true (names ++ [name])) ≠ Path.ofParts true (names ++ [name]) := by
  rw [Path.directory_ofParts proper]
  intro same
  have shorter := congrArg (fun path => (Path.parts path).filter (· != "")) same
  simp only [Path.filter_parts_ofParts proper,
    Path.filter_parts_ofParts fun part member =>
      proper part (List.mem_append_left _ member)] at shorter
  exact absurd (congrArg List.length shorter) (by simp)

/-- There are as many steps as names. The names are given from the last one on, as `upwards` takes
them. -/
theorem ascends_ofParts {names : List String} (proper : ∀ name ∈ names, Path.IsName name) :
    Ascends (Path.ofParts true names.reverse) names.length := by
  induction names with
  | nil => exact ⟨by decide +kernel, by decide +kernel, by simp⟩
  | cons name names ih =>
    have forwards := isName_of_mem_reverse proper
    rw [List.reverse_cons] at forwards
    obtain ⟨arrives, ends, goesOn⟩ :=
      ih fun other member => proper other (List.mem_cons_of_mem name member)
    rw [List.reverse_cons, List.length_cons]
    refine ⟨?_, ends, ?_⟩
    · rw [above_ofParts_succ forwards, arrives]
    · intro k few
      cases k with
      | zero => exact directory_ne forwards
      | succ k =>
        rw [above_ofParts_succ forwards]
        exact goesOn k (Nat.lt_of_succ_lt_succ few)

/-- The directories that are searched are those on the way up. -/
theorem map_upwards {names : List String} (proper : ∀ name ∈ names, Path.IsName name) :
    (upwards names).map (fun names => Path.ofParts true names.reverse) =
      (List.range (names.length + 1)).map (above (Path.ofParts true names.reverse)) := by
  induction names with
  | nil => rfl
  | cons name names ih =>
    have forwards := isName_of_mem_reverse proper
    rw [List.reverse_cons] at forwards
    rw [upwards, List.map_cons, ih fun other member =>
      proper other (List.mem_cons_of_mem name member),
      List.reverse_cons, List.length_cons, List.range_succ_eq_map (n := names.length + 1),
      List.map_cons, List.map_map]
    exact congrArg (List.cons _)
      (List.map_congr_left fun k _ => (above_ofParts_succ forwards k).symm)

/-! ## What is found -/

theorem firstSearched_of_file {tree : FileTree} {start : String}
    (file : tree.NamesFile (Path.absolute tree.here start)) :
    firstSearched tree start = Path.directory (Path.absolute tree.here start) := by
  obtain ⟨node, there, single⟩ := file
  simp [firstSearched, there, single]

theorem firstSearched_of_no_file {tree : FileTree} {start : String}
    (noFile : ¬ tree.NamesFile (Path.absolute tree.here start)) :
    firstSearched tree start = Path.absolute tree.here start := by
  cases there : tree.status true (Path.absolute tree.here start) with
  | error error => simp [firstSearched, there]
  | ok node =>
    have opened : node.isDirectory = true := by
      cases kind : node.isDirectory with
      | true => rfl
      | false => exact absurd ⟨node, there, kind⟩ noFile
    simp [firstSearched, there, opened]

/-- A search begins at a path from the root. -/
theorem exists_names_of_firstSearched {tree : FileTree} (rooted : Path.isAbsolute tree.here = true)
    (start : String) :
    ∃ names, (∀ name ∈ names, Path.IsName name) ∧
      firstSearched tree start = Path.ofParts true names := by
  obtain ⟨names, proper, spelled⟩ := Path.exists_names_of_absolute rooted start
  by_cases file : tree.NamesFile (Path.absolute tree.here start)
  · rw [firstSearched_of_file file, spelled]
    rcases List.eq_nil_or_concat names with rfl | ⟨front, last, rfl⟩
    · exact ⟨[], by simp, by decide +kernel⟩
    · rw [List.concat_eq_append] at proper ⊢
      exact ⟨front, fun name member => proper name (List.mem_append_left _ member),
        Path.directory_ofParts proper⟩
  · exact ⟨names, proper, (firstSearched_of_no_file file).trans spelled⟩

theorem findFile_eq_ok_iff {tree : FileTree} {start path : String} :
    findFile tree start = .ok path ↔
    ((searched tree start).map fileIn).find? tree.present = some path := by
  unfold findFile
  cases ((searched tree start).map fileIn).find? tree.present <;> simp

theorem findFile_eq_error_iff {tree : FileTree} {start : String} {failure : Failure} :
    findFile tree start = .error failure ↔
      failure = .missing "file does not exist" ∧
      ((searched tree start).map fileIn).find? tree.present = none := by
  unfold findFile
  cases ((searched tree start).map fileIn).find? tree.present <;> simp [eq_comm]

/-- The first of a row of texts with a property. -/
theorem find?_map_range_eq_some_iff {p : String → Bool} {f : Nat → String} {count : Nat}
    {text : String} :
    ((List.range count).map f).find? p = some text ↔
      ∃ k < count, text = f k ∧ p text = true ∧ ∀ j < k, p (f j) = false := by
  rw [List.find?_map, Option.map_eq_some_iff]
  constructor
  · rintro ⟨k, found, rfl⟩
    obtain ⟨holds, member, earlier⟩ := List.find?_range_eq_some.mp found
    exact ⟨k, List.mem_range.mp member, rfl, holds, fun j before => by simpa using earlier j before⟩
  · rintro ⟨k, few, rfl, holds, earlier⟩
    have found : (List.range count).find? (p ∘ f) = some k :=
      List.find?_range_eq_some.mpr
        ⟨holds, List.mem_range.mpr few, fun j before => by simpa using earlier j before⟩
    exact ⟨k, found, rfl⟩

theorem find?_map_range_eq_none_iff {p : String → Bool} {f : Nat → String} {count : Nat} :
    ((List.range count).map f).find? p = none ↔ ∀ k < count, p (f k) = false := by
  simp

/-- The search for settings ends and finds the nearest file. It begins at the path from the root, or
at what holds it if that is a file, and goes up to the root. What is found is the settings file of
the first directory on the way that has one; there is a failure, and it says that a file is missing,
exactly if none of them has one. -/
theorem findFile_nearest (tree : FileTree) (rooted : Path.isAbsolute tree.here = true)
    (start : String) :
    ∃ first steps,
      (tree.NamesFile (Path.absolute tree.here start) →
        first = Path.directory (Path.absolute tree.here start)) ∧
      (¬ tree.NamesFile (Path.absolute tree.here start) → first = Path.absolute tree.here start) ∧
      Ascends first steps ∧
      (∀ path, findFile tree start = .ok path ↔
        ∃ k ≤ steps, path = fileIn (above first k) ∧ tree.present path = true ∧
          ∀ j < k, tree.present (fileIn (above first j)) = false) ∧
      ∀ failure, findFile tree start = .error failure ↔
        failure = .missing "file does not exist" ∧
        ∀ k ≤ steps, tree.present (fileIn (above first k)) = false := by
  obtain ⟨names, proper, spelled⟩ := exists_names_of_firstSearched rooted start
  have backwards := isName_of_mem_reverse proper
  have ascends := ascends_ofParts backwards
  have searchedEq := map_upwards backwards
  rw [List.reverse_reverse, List.length_reverse, ← spelled] at ascends searchedEq
  have row : (searched tree start).map fileIn =
      (List.range (names.length + 1)).map fun k => fileIn (above (firstSearched tree start) k) := by
    unfold searched
    rw [spelled, Path.filter_parts_ofParts proper, ← spelled, searchedEq, List.map_map]
    rfl
  refine ⟨firstSearched tree start, names.length, firstSearched_of_file,
    firstSearched_of_no_file, ascends, ?_, ?_⟩
  · intro path
    simp only [findFile_eq_ok_iff, row, find?_map_range_eq_some_iff, Nat.lt_succ_iff]
  · intro failure
    simp only [findFile_eq_error_iff, row, find?_map_range_eq_none_iff, Nat.lt_succ_iff]

/-- An archive two directories deep, with settings in the directory between and at the root. -/
def workshop : FileTree where
  root := .directory [
    ("libs", .directory [
      ("vendor", .directory [("app.jar", .file [] false)]),
      (".jarscn.toml", .file [] false)]),
    (".jarscn.toml", .file [] false)]
  here := "/libs"

theorem status_workshop : workshop.NamesFile "/libs/vendor/app.jar" ∧
    workshop.present "/libs/vendor/.jarscn.toml" = false ∧
    workshop.present "/libs/.jarscn.toml" = true := by
  have archive : Path.parts "/libs/vendor/app.jar" = ["", "libs", "vendor", "app.jar"] := by
    decide +kernel
  have inner : Path.parts "/libs/vendor/.jarscn.toml" = ["", "libs", "vendor", ".jarscn.toml"] := by
    decide +kernel
  have between : Path.parts "/libs/.jarscn.toml" = ["", "libs", ".jarscn.toml"] := by decide +kernel
  simp only [FileTree.NamesFile, FileTree.present, FileTree.status, FileTree.locate,
    archive, inner, between, FileTree.walk]
  exact ⟨⟨_, rfl, rfl⟩, rfl, rfl⟩

/-- From the archive the search goes one step up. -/
theorem findFile_nearest_workshop :
    Path.isAbsolute workshop.here = true ∧ findFile workshop "vendor/app.jar" =
      .ok "/libs/.jarscn.toml" := by
  have rooted : Path.isAbsolute workshop.here = true := by decide +kernel
  have absolute : Path.absolute workshop.here "vendor/app.jar" = "/libs/vendor/app.jar" := by
    decide +kernel
  obtain ⟨archive, inner, between⟩ := status_workshop
  obtain ⟨first, steps, ofFile, -, ascends, found, -⟩ :=
    findFile_nearest workshop rooted "vendor/app.jar"
  rw [absolute] at ofFile
  have firstEq : first = "/libs/vendor" := (ofFile archive).trans (by decide +kernel)
  subst firstEq
  have inside : 1 ≤ steps := by
    rcases Nat.eq_zero_or_pos steps with none | some
    · subst none
      exact absurd ascends.arrives (by decide +kernel)
    · exact some
  refine ⟨rooted, (found _).mpr ⟨1, inside, by decide +kernel, between, fun j before => ?_⟩⟩
  obtain rfl : j = 0 := by omega
  have candidate : fileIn (above "/libs/vendor" 0) = "/libs/vendor/.jarscn.toml" := by
    decide +kernel
  rw [candidate, inner]

end Settings

end JarMetrics
