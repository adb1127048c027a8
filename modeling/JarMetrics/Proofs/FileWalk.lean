import JarMetrics.Files.Tree

/-!
# Where paths lead

In a tree without links a path leads to the place that its parts spell out. `Path.advance` is what
one part does, and a walk along the parts ends where all of them lead (`eq_of_walk`), if something
is there (`walk_of_get?`).

Joining a name to a path takes out of it what is not needed, so the joined path spells out other
parts. They lead to the same place (`foldl_settle_spec`); so a path with the name of an entry behind
it leads to that entry (`locate_join`).
-/

namespace JarMetrics

/-! ## Names -/

namespace Path

/-- A name that an entry of a directory can have. -/
def IsName (part : String) : Prop := part ≠ "" ∧ part ≠ "." ∧ part ≠ ".." ∧ '/' ∉ part.toList

instance (part : String) : Decidable (IsName part) := inferInstanceAs (Decidable (_ ∧ _))

/-- Where a part leads from a place. -/
def advance (here : List String) (part : String) : List String :=
  if part = "" ∨ part = "." then here else if part = ".." then here.dropLast else here ++ [part]

theorem advance_name {part : String} (proper : IsName part) (here : List String) :
    advance here part = here ++ [part] := by
  simp [advance, proper.1, proper.2.1, proper.2.2.1]

theorem advance_back (here : List String) : advance here ".." = here.dropLast := by simp [advance]

theorem foldl_advance_names {names : List String} (proper : ∀ name ∈ names, IsName name)
    (here : List String) :
    names.foldl advance here = here ++ names := by
  induction names generalizing here with
  | nil => simp
  | cons name names ih =>
    rw [List.foldl_cons, advance_name (proper name List.mem_cons_self),
      ih fun other member => proper other (List.mem_cons_of_mem name member)]
    simp

/-! ## Reduced parts -/

/-- Parts in reverse that cannot be reduced: names, and before them steps back, which a path from
the root has not. -/
inductive Trail (rooted : Bool) : List String → Prop
  | back (count : Nat) (possible : rooted = true → count = 0) :
      Trail rooted (List.replicate count "..")
  | name {part : String} {done : List String} (proper : IsName part) (trail : Trail rooted done) :
      Trail rooted (part :: done)

theorem Trail.nil (rooted : Bool) : Trail rooted [] := .back 0 fun _ => rfl

theorem Trail.cons_cases {rooted : Bool} {part : String} {done : List String}
    (trail : Trail rooted (part :: done)) :
    (part = ".." ∧ rooted = false ∧ Trail rooted (".." :: part :: done)) ∨
    (IsName part ∧ Trail rooted done) := by
  generalize all : part :: done = parts at trail
  cases trail with
  | back count possible =>
    cases count with
    | zero => simp at all
    | succ count =>
      rw [List.replicate_succ, List.cons.injEq] at all
      have unrooted : rooted = false := by
        cases rooted with
        | true => simp at possible
        | false => rfl
      refine .inl ⟨all.1, unrooted, ?_⟩
      rw [← List.replicate_succ]
      exact .back _ (by simp [unrooted])
  | name proper trail =>
    rw [List.cons.injEq] at all
    rw [all.1, all.2]
    exact .inr ⟨proper, trail⟩

/-- The parts in order: first the steps back, then the names. -/
theorem Trail.reverse_eq {rooted : Bool} {done : List String} (trail : Trail rooted done) :
    ∃ count names, done.reverse = List.replicate count ".." ++ names ∧
      (∀ name ∈ names, IsName name) := by
  induction trail with
  | back count _ => exact ⟨count, [], by simp⟩
  | @name part done proper _ ih =>
    obtain ⟨count, names, parts, allProper⟩ := ih
    refine ⟨count, names ++ [part], by simp [parts], ?_⟩
    intro name member
    rcases List.mem_append.mp member with inside | last
    · exact allProper name inside
    · rw [List.mem_singleton.mp last]
      exact proper

theorem spelled_of_names (count : Nat) {names : List String}
    (proper : ∀ name ∈ names, IsName name) :
    ∀ part ∈ List.replicate count ".." ++ names, part ≠ "" ∧ '/' ∉ part.toList := by
  intro part member
  rcases List.mem_append.mp member with back | forward
  · rw [List.eq_of_mem_replicate back]
    decide
  · exact ⟨(proper part forward).1, (proper part forward).2.2.2⟩

/-- What one part does to the parts so far. -/
def settle (rooted : Bool) (done : List String) (part : String) : List String :=
  if part = "" ∨ part = "." then done
  else if part = ".." then
    match done with
    | [] => if rooted then [] else [".."]
    | last :: before => if last = ".." then ".." :: last :: before else before
  else part :: done

theorem reduce_eq_foldl (rooted : Bool) (done rest : List String) :
    reduce rooted done rest = (rest.foldl (settle rooted) done).reverse := by
  fun_induction reduce rooted done rest <;> simp_all [settle]

/-- One part leaves parts that cannot be reduced, and they lead where the parts so far and the new
one lead. -/
theorem settle_spec {rooted : Bool} {done : List String} (trail : Trail rooted done) {part : String}
    (plain : '/' ∉ part.toList) :
    Trail rooted (settle rooted done part) ∧
      ∀ here : List String, (rooted = true → here = []) →
        (settle rooted done part).reverse.foldl advance here =
          advance (done.reverse.foldl advance here) part := by
  unfold settle
  by_cases noneMoved : part = "" ∨ part = "."
  · rw [if_pos noneMoved]
    exact ⟨trail, fun here _ => by simp [advance, noneMoved]⟩
  rw [if_neg noneMoved]
  by_cases back : part = ".."
  · subst back
    rw [if_pos rfl]
    cases done with
    | nil =>
      cases rooted with
      | true => exact ⟨trail, fun here start => by simp [start rfl, advance_back]⟩
      | false => exact ⟨.back 1 (by simp), fun here _ => rfl⟩
    | cons last before =>
      -- A step back takes away the name before it; behind steps back it is one more of them.
      rcases trail.cons_cases with ⟨rfl, -, longer⟩ | ⟨proper, shorter⟩
      · exact ⟨longer, fun here _ => by simp⟩
      · simp only [if_neg proper.2.2.1]
        exact ⟨shorter, fun here _ => by simp [advance_back, advance_name proper]⟩
  · rw [if_neg back]
    have proper : IsName part :=
      ⟨fun h => noneMoved (.inl h), fun h => noneMoved (.inr h), back, plain⟩
    exact ⟨.name proper trail, fun here _ => by simp⟩

/-- What reducing leaves cannot be reduced further, and leads where the parts before it lead. For a
path from the root, this is said of the root as the start. -/
theorem foldl_settle_spec {rooted : Bool} {done rest : List String} (trail : Trail rooted done)
    (plain : ∀ part ∈ rest, '/' ∉ part.toList) :
    Trail rooted (rest.foldl (settle rooted) done) ∧
      ∀ here : List String, (rooted = true → here = []) →
        (rest.foldl (settle rooted) done).reverse.foldl advance here =
          rest.foldl advance (done.reverse.foldl advance here) := by
  induction rest generalizing done with
  | nil => exact ⟨trail, fun _ _ => rfl⟩
  | cons part rest ih =>
    obtain ⟨settled, leads⟩ := settle_spec trail (plain part List.mem_cons_self)
    obtain ⟨kept, arrives⟩ :=
      ih settled fun other member => plain other (List.mem_cons_of_mem part member)
    refine ⟨kept, fun here start => ?_⟩
    rw [List.foldl_cons, arrives here start, leads here start, List.foldl_cons]

/-! ## Joined paths -/

theorem parts_append_slash (front back : String) :
    parts (front ++ "/" ++ back) = parts front ++ parts back := by
  simp [parts, String.toList_append, List.splitOn_append_cons_self]

theorem parts_of_plain {name : String} (plain : '/' ∉ name.toList) : parts name = [name] := by
  simp [parts, List.splitOn_eq_singleton plain]

theorem not_slash_mem_splitOn (chars : List Char) : ∀ piece ∈ chars.splitOn '/', '/' ∉ piece := by
  induction chars with
  | nil => simp
  | cons c rest ih =>
    rw [List.splitOn_cons_eq_if_modifyHead]
    split
    · simpa using ih
    next inside =>
      obtain ⟨first, others, pieces⟩ := List.exists_cons_of_ne_nil (List.splitOn_ne_nil '/' rest)
      rw [pieces] at ih ⊢
      simp only [List.modifyHead_cons, List.mem_cons, forall_eq_or_imp] at ih ⊢
      refine ⟨?_, ih.2⟩
      rintro (slash | slash)
      · exact inside (beq_iff_eq.mpr slash.symm)
      · exact ih.1 slash

theorem not_slash_mem_parts (path : String) : ∀ part ∈ parts path, '/' ∉ part.toList := by
  intro part member
  obtain ⟨piece, inside, rfl⟩ := List.mem_map.mp member
  rw [String.toList_ofList]
  exact not_slash_mem_splitOn path.toList piece inside

theorem parts_intercalate {names : List String} (plain : ∀ name ∈ names, '/' ∉ name.toList)
    (someName : names ≠ []) :
    parts ("/".intercalate names) = names := by
  have split : (['/'].intercalate (names.map String.toList)).splitOn '/' =
      names.map String.toList :=
    List.splitOn_intercalate '/' (by simpa using plain) (by simpa using someName)
  rw [parts, String.toList_intercalate]
  exact (congrArg (List.map String.ofList) split).trans (by simp)

theorem parts_ofParts {names : List String} (plain : ∀ name ∈ names, '/' ∉ name.toList)
    (someName : names ≠ []) (rooted : Bool) :
    parts (ofParts rooted names) = if rooted then "" :: names else names := by
  have inside := parts_intercalate plain someName
  cases rooted with
  | true =>
    have empty : parts "" = [""] := parts_of_plain (by simp)
    have split := parts_append_slash "" ("/".intercalate names)
    rw [inside, empty, String.empty_append] at split
    simpa [ofParts] using split
  | false => simpa [ofParts, someName] using inside

theorem isAbsolute_ofParts {first : String} {names : List String} (filled : first ≠ "")
    (plain : '/' ∉ first.toList) (rooted : Bool) :
    isAbsolute (ofParts rooted (first :: names)) = rooted := by
  obtain ⟨c, rest, chars⟩ : ∃ c rest, first.toList = c :: rest :=
    List.exists_cons_of_ne_nil fun noneLeft => filled (String.toList_eq_nil_iff.mp noneLeft)
  have inside : c ≠ '/' := by
    rintro rfl
    exact plain (by simp [chars])
  cases rooted with
  | true => simp [isAbsolute, ofParts, String.toList_append]
  | false => cases names <;> simp [isAbsolute, ofParts, String.toList_append, chars, inside]

/-- A path with a name behind it: the name follows the reduced parts. -/
theorem join_eq_ofParts {path name : String} (somePath : path ≠ "") (proper : IsName name) :
    join path name = ofParts (isAbsolute path)
      (reduce (isAbsolute path) [] (parts path) ++ [name]) := by
  obtain ⟨c, rest, chars⟩ : ∃ c rest, path.toList = c :: rest :=
    List.exists_cons_of_ne_nil fun noneLeft => somePath (String.toList_eq_nil_iff.mp noneLeft)
  have start : isAbsolute (path ++ "/" ++ name) = isAbsolute path := by
    simp [isAbsolute, String.toList_append, chars]
  have settled (done : List String) : settle (isAbsolute path) done name = name :: done := by
    simp [settle, proper.1, proper.2.1, proper.2.2.1]
  unfold join
  rw [if_neg (by simpa using somePath), if_neg (by simpa using proper.1), clean,
    start, parts_append_slash, parts_of_plain proper.2.2.2, reduce_eq_foldl, reduce_eq_foldl,
    List.foldl_append, List.foldl_cons, List.foldl_nil, settled, List.reverse_cons]

theorem join_eq_append {path name : String} (somePath : path ≠ "") (proper : IsName name) :
    join path name = name ∨ ∃ front, join path name = front ++ "/" ++ name := by
  rw [join_eq_ofParts somePath proper]
  generalize reduce (isAbsolute path) [] (parts path) = parts
  by_cases first : parts = []
  · subst first
    cases isAbsolute path with
    | true => exact .inr ⟨"", by simp [ofParts]⟩
    | false => exact .inl (by simp [ofParts])
  · have behind := String.intercalate_append_of_ne_nil (s := "/") first (List.cons_ne_nil name [])
    rw [String.intercalate_singleton] at behind
    refine .inr ?_
    cases isAbsolute path with
    | true => exact ⟨"/" ++ "/".intercalate parts, by simp [ofParts, behind, String.append_assoc]⟩
    | false => exact ⟨"/".intercalate parts, by simp [ofParts, behind]⟩

end Path

/-! ## Trees without links -/

namespace FileNode

/-- Files and directories without links, as file systems hold them: the entries of a directory have
names, and different ones. -/
inductive Plain : FileNode → Prop
  | file (content : List UInt8) (executable : Bool) : Plain (.file content executable)
  | directory {entries : List (String × FileNode)} (named : ∀ e ∈ entries, Path.IsName e.1)
      (distinct : (entries.map Prod.fst).Nodup) (below : ∀ e ∈ entries, Plain e.2) :
      Plain (.directory entries)

theorem child?_directory (entries : List (String × FileNode)) (name : String) :
    (directory entries).child? name = (entries.find? (·.1 == name)).map Prod.snd :=
  rfl

theorem mem_of_child? {entries : List (String × FileNode)} {name : String} {node : FileNode}
    (found : (directory entries).child? name = some node) : (name, node) ∈ entries := by
  obtain ⟨e, look, rfl⟩ := Option.map_eq_some_iff.mp found
  have same : e.1 = name := by simpa using List.find?_some look
  rw [← same]
  exact List.mem_of_find?_eq_some look

theorem child?_of_mem {entries : List (String × FileNode)} (distinct : (entries.map Prod.fst).Nodup)
    {name : String} {node : FileNode} (member : (name, node) ∈ entries) :
    (directory entries).child? name = some node := by
  induction entries with
  | nil => simp at member
  | cons e entries ih =>
    rw [List.map_cons, List.nodup_cons] at distinct
    rcases List.mem_cons.mp member with rfl | later
    · simp [child?_directory]
    · have other : e.1 ≠ name := fun same => distinct.1 (same ▸ List.mem_map_of_mem later)
      rw [child?_directory, List.find?_cons_of_neg (by simpa using other)]
      exact ih distinct.2 later

theorem Plain.child? {node child : FileNode} {name : String} (plain : node.Plain)
    (found : node.child? name = some child) :
    Path.IsName name ∧ child.Plain := by
  cases plain with
  | file => simp [FileNode.child?] at found
  | directory named distinct below =>
    have member := mem_of_child? found
    exact ⟨named _ member, below _ member⟩

theorem get?_cons_eq_some_iff {node below : FileNode} {name : String} {names : List String} :
    node.get? (name :: names) = some below ↔ ∃ child, node.child? name = some child ∧
    child.get? names = some below := by
  rw [get?, Option.bind_eq_some_iff]

theorem get?_append (node : FileNode) (front back : List String) :
    node.get? (front ++ back) = (node.get? front).bind (·.get? back) := by
  induction front generalizing node with
  | nil => rfl
  | cons name front ih =>
    rw [List.cons_append, get?, get?, Option.bind_assoc]
    exact congrArg _ (funext ih)

theorem Plain.get? {node below : FileNode} {names : List String} (plain : node.Plain)
    (found : node.get? names = some below) : (∀ name ∈ names, Path.IsName name) ∧ below.Plain := by
  induction names generalizing node with
  | nil =>
    rw [FileNode.get?, Option.some.injEq] at found
    exact ⟨by simp, found ▸ plain⟩
  | cons name names ih =>
    obtain ⟨child, entry, rest⟩ := get?_cons_eq_some_iff.mp found
    obtain ⟨proper, plain⟩ := plain.child? entry
    obtain ⟨others, below⟩ := ih plain rest
    exact ⟨by simpa [proper] using others, below⟩

/-- What has an entry is a directory. -/
theorem exists_directory_of_child? {node child : FileNode} {name : String}
    (entry : node.child? name = some child) :
    ∃ entries, node = .directory entries := by
  cases node with
  | directory entries => exact ⟨entries, rfl⟩
  | file => simp [child?] at entry
  | link => simp [child?] at entry

theorem get?_concat_eq_some_iff {root below : FileNode} {here : List String} {name : String} :
    root.get? (here ++ [name]) = some below ↔
      ∃ entries, root.get? here = some (.directory entries) ∧
        (directory entries).child? name = some below := by
  rw [get?_append, Option.bind_eq_some_iff]
  constructor
  · rintro ⟨node, atHere, found⟩
    obtain ⟨child, entry, same⟩ := get?_cons_eq_some_iff.mp found
    obtain ⟨entries, rfl⟩ := exists_directory_of_child? entry
    rw [get?, Option.some.injEq] at same
    exact ⟨entries, atHere, same ▸ entry⟩
  · rintro ⟨entries, atHere, entry⟩
    exact ⟨_, atHere, get?_cons_eq_some_iff.mpr ⟨below, entry, rfl⟩⟩

/-- What holds a directory is a directory. -/
theorem exists_directory_dropLast {root : FileNode} {here : List String}
    {entries : List (String × FileNode)} (found : root.get? here = some (.directory entries)) :
    ∃ above, root.get? here.dropLast = some (.directory above) := by
  rcases List.eq_nil_or_concat here with rfl | ⟨front, last, rfl⟩
  · exact ⟨entries, found⟩
  · rw [List.concat_eq_append] at found
    obtain ⟨above, atFront, -⟩ := get?_concat_eq_some_iff.mp found
    exact ⟨above, by simpa using atFront⟩

end FileNode

/-! ## Walks -/

namespace FileTree

section Walk

variable {root : FileNode} (follow : Bool) (links : Nat)

theorem walk_nil (here : List String) :
    walk root follow links here [] = .ok ⟨here, root.get? here⟩ := by
  rw [walk]

/-- A part of a path leads to what is there. -/
theorem walk_step (plain : root.Plain) {here : List String} {part : String} {node : FileNode}
    {entries : List (String × FileNode)} (atHere : root.get? here = some (.directory entries))
    (there : root.get? (Path.advance here part) = some node) (rest : List String) :
    walk root follow links here (part :: rest) =
      walk root follow links (Path.advance here part) rest := by
  rw [walk, atHere]
  dsimp only
  unfold Path.advance at there ⊢
  split at there
  next stays => simp only [if_pos stays]
  next moves =>
  simp only [if_neg moves]
  split at there
  next back => simp only [if_pos back]
  next name =>
    obtain ⟨_, same, entry⟩ := FileNode.get?_concat_eq_some_iff.mp there
    obtain rfl : entries = _ := by simpa [atHere] using same
    simp only [if_neg name, entry]
    cases (plain.get? there).2 <;> rfl

/-- A part that leads to nothing ends the walk, without a failure if it is the last. -/
theorem walk_missing {here : List String} {part : String} {entries : List (String × FileNode)}
    (atHere : root.get? here = some (.directory entries))
    (there : root.get? (Path.advance here part) = none) (rest : List String) :
    walk root follow links here (part :: rest) =
      if rest.isEmpty then .ok ⟨Path.advance here part, none⟩ else .error .notFound := by
  rw [walk, atHere]
  dsimp only
  unfold Path.advance at there ⊢
  split at there
  next => simp [atHere] at there
  next moves =>
  simp only [if_neg moves]
  split at there
  next =>
    obtain ⟨above, found⟩ := FileNode.exists_directory_dropLast atHere
    simp [found] at there
  next name =>
    have entry : (FileNode.directory entries).child? part = none := by
      rw [Option.eq_none_iff_forall_ne_some]
      intro child entry
      rw [FileNode.get?_concat_eq_some_iff.mpr ⟨entries, atHere, entry⟩] at there
      simp at there
    simp only [if_neg name, entry]

theorem walk_elsewhere {here : List String}
    (notOpen : ∀ entries, root.get? here ≠ some (.directory entries)) (part : String)
    (rest : List String) :
    walk root follow links here (part :: rest) =
      .error (if (root.get? here).isSome then .notDirectory else .notFound) := by
  rw [walk]
  split
  next entries atHere => exact absurd atHere (notOpen entries)
  next node _ atHere => simp [atHere]
  next atHere => simp [atHere]

theorem exists_directory_of_walk {here todo : List String} {place : Place} (somePart : todo ≠ [])
    (walked : walk root follow links here todo = .ok place) :
    ∃ entries, root.get? here = some (.directory entries) := by
  obtain ⟨part, rest, rfl⟩ := List.exists_cons_of_ne_nil somePart
  by_cases opened : ∃ entries, root.get? here = some (.directory entries)
  · exact opened
  · rw [walk_elsewhere follow links (fun entries atHere => opened ⟨entries, atHere⟩)] at walked
    simp at walked

/-- A walk that ends at something ends where its parts lead. -/
theorem eq_of_walk (plain : root.Plain) {here todo there : List String} {node : FileNode}
    (walked : walk root follow links here todo = .ok ⟨there, some node⟩) :
    there = todo.foldl Path.advance here ∧ root.get? there = some node := by
  induction todo generalizing here with
  | nil =>
    rw [walk_nil, Except.ok.injEq, Place.mk.injEq] at walked
    exact ⟨walked.1.symm, walked.1 ▸ walked.2⟩
  | cons part rest ih =>
    by_cases opened : ∃ entries, root.get? here = some (.directory entries)
    · obtain ⟨entries, atHere⟩ := opened
      cases thereIs : root.get? (Path.advance here part) with
      | some next =>
        rw [walk_step follow links plain atHere thereIs] at walked
        exact ih walked
      | none =>
        rw [walk_missing follow links atHere thereIs] at walked
        split at walked <;> simp at walked
    · rw [walk_elsewhere follow links (fun entries atHere => opened ⟨entries, atHere⟩)] at walked
      simp at walked

/-- Without links it does not matter whether they are followed. -/
theorem walk_follow (plain : root.Plain) (other : Bool) (here todo : List String) :
    walk root follow links here todo = walk root other links here todo := by
  induction todo generalizing here with
  | nil => rw [walk_nil, walk_nil]
  | cons part rest ih =>
    by_cases opened : ∃ entries, root.get? here = some (.directory entries)
    · obtain ⟨entries, atHere⟩ := opened
      cases thereIs : root.get? (Path.advance here part) with
      | some next => rw [walk_step _ _ plain atHere thereIs, walk_step _ _ plain atHere thereIs, ih]
      | none => rw [walk_missing _ _ atHere thereIs, walk_missing _ _ atHere thereIs]
    · have notOpen (entries : List (String × FileNode)) :
          root.get? here ≠ some (.directory entries) :=
        fun atHere => opened ⟨entries, atHere⟩
      rw [walk_elsewhere _ _ notOpen, walk_elsewhere _ _ notOpen]

theorem walk_names (plain : root.Plain) {here names : List String} {node : FileNode}
    (there : root.get? (here ++ names) = some node) :
    walk root follow links here names = .ok ⟨here ++ names, some node⟩ := by
  induction names generalizing here with
  | nil =>
    rw [List.append_nil] at there ⊢
    rw [walk_nil, there]
  | cons name names ih =>
    have proper : Path.IsName name := (plain.get? there).1 name (by simp)
    rw [← List.singleton_append, ← List.append_assoc] at there ⊢
    -- What is on the way to something is there as well.
    obtain ⟨next, onTheWay, -⟩ :=
      Option.bind_eq_some_iff.mp ((root.get?_append (here ++ [name]) names).symm.trans there)
    obtain ⟨entries, atHere, -⟩ := FileNode.get?_concat_eq_some_iff.mp onTheWay
    rw [← Path.advance_name proper] at onTheWay
    rw [List.singleton_append, walk_step follow links plain atHere onTheWay,
      Path.advance_name proper]
    exact ih there

/-- A walk along parts that cannot be reduced ends at what is where they lead. -/
theorem walk_of_get? (plain : root.Plain) (count : Nat) {here names : List String} {node : FileNode}
    {entries : List (String × FileNode)} (atHere : root.get? here = some (.directory entries))
    (proper : ∀ name ∈ names, Path.IsName name)
    (there : root.get? ((List.replicate count ".." ++ names).foldl Path.advance here) = some node) :
    walk root follow links here (List.replicate count ".." ++ names) =
      .ok ⟨(List.replicate count ".." ++ names).foldl Path.advance here, some node⟩ := by
  induction count generalizing here entries with
  | zero =>
    rw [List.replicate_zero, List.nil_append, Path.foldl_advance_names proper] at there ⊢
    exact walk_names follow links plain there
  | succ count ih =>
    obtain ⟨above, found⟩ := FileNode.exists_directory_dropLast atHere
    rw [← Path.advance_back] at found
    rw [List.replicate_succ, List.cons_append, List.foldl_cons] at there ⊢
    rw [walk_step follow links plain atHere found]
    exact ih found there

end Walk

/-! ## Paths of entries -/

theorem ne_empty_of_locate {tree : FileTree} {follow : Bool} {path : String} {place : Place}
    (located : tree.locate follow path = .ok place) : path ≠ "" := by
  rintro rfl
  simp [locate] at located

/-- Where paths start. -/
def start (tree : FileTree) (rooted : Bool) : List String := if rooted then [] else tree.hereNames

theorem locate_eq_walk (tree : FileTree) (follow : Bool) {path : String} (somePath : path ≠ "") :
    tree.locate follow path = walk tree.root follow 40 (tree.start (Path.isAbsolute path))
      (Path.parts path) := by
  unfold locate
  rw [if_neg (by simpa using somePath)]
  rfl

/-- A path that is written out of parts leads where they lead. -/
theorem locate_ofParts {tree : FileTree} (plain : tree.root.Plain) (follow : Bool) {rooted : Bool}
    {parts : List String} (spelled : ∀ part ∈ parts, part ≠ "" ∧ '/' ∉ part.toList)
    (somePart : parts ≠ []) {entries : List (String × FileNode)}
    (atStart : tree.root.get? (tree.start rooted) = some (.directory entries)) :
    tree.locate follow (Path.ofParts rooted parts) =
      walk tree.root follow 40 (tree.start rooted) parts := by
  have read := Path.parts_ofParts (fun part member => (spelled part member).2) somePart rooted
  obtain ⟨first, others, rfl⟩ := List.exists_cons_of_ne_nil somePart
  have someFirst := spelled first List.mem_cons_self
  have somePath : Path.ofParts rooted (first :: others) ≠ "" := by
    intro empty
    rw [empty, Path.parts_of_plain (by simp)] at read
    cases rooted <;> simp [Ne.symm someFirst.1] at read
  rw [locate_eq_walk tree follow somePath, Path.isAbsolute_ofParts someFirst.1 someFirst.2, read]
  cases rooted with
  | true =>
    -- Before the first slash there is an empty part, which does not lead anywhere else.
    have stays : Path.advance (tree.start true) "" = tree.start true := by simp [Path.advance]
    rw [if_pos rfl, walk_step follow 40 plain atStart (stays.symm ▸ atStart), stays]
  | false => rfl

/-- A path that is written out of parts that cannot be reduced leads to what is where they lead. -/
theorem locate_trail {tree : FileTree} (plain : tree.root.Plain) (follow : Bool) {rooted : Bool}
    {done : List String} (trail : Path.Trail rooted done) (somePart : done ≠ [])
    {entries : List (String × FileNode)}
    (atStart : tree.root.get? (tree.start rooted) = some (.directory entries)) {node : FileNode}
    (there : tree.root.get? (done.reverse.foldl Path.advance (tree.start rooted)) = some node) :
    tree.locate follow (Path.ofParts rooted done.reverse) =
      .ok ⟨done.reverse.foldl Path.advance (tree.start rooted), some node⟩ := by
  obtain ⟨count, names, spelling, proper⟩ := trail.reverse_eq
  have someSpelling : List.replicate count ".." ++ names ≠ [] := by
    rw [← spelling]
    simpa using somePart
  rw [spelling] at there ⊢
  rw [locate_ofParts plain follow (Path.spelled_of_names count proper) someSpelling atStart,
    walk_of_get? follow 40 plain count atStart proper there]

/-- A path with the name of an entry behind it leads to that entry. -/
theorem locate_join {tree : FileTree} (plain : tree.root.Plain) {follow : Bool} {path name : String}
    {here : List String} {entries : List (String × FileNode)} {node : FileNode}
    (located : tree.locate follow path = .ok ⟨here, some (.directory entries)⟩)
    (entry : (FileNode.directory entries).child? name = some node) :
    tree.locate follow (Path.join path name) = .ok ⟨here ++ [name], some node⟩ := by
  have somePath := ne_empty_of_locate located
  rw [locate_eq_walk tree follow somePath] at located
  obtain ⟨arrived, atHere⟩ := eq_of_walk follow 40 plain located
  have found : tree.root.get? (here ++ [name]) = some node :=
    FileNode.get?_concat_eq_some_iff.mpr ⟨entries, atHere, entry⟩
  have proper : Path.IsName name := (plain.get? found).1 name (by simp)
  obtain ⟨_, atStart⟩ := exists_directory_of_walk follow 40 (by simp [Path.parts]) located
  -- The joined path spells out other parts, but from the same start they lead to the same place.
  obtain ⟨trail, leads⟩ :=
    Path.foldl_settle_spec (Path.Trail.nil (Path.isAbsolute path)) (Path.not_slash_mem_parts path)
  have joined := Path.join_eq_ofParts somePath proper
  rw [Path.reduce_eq_foldl, ← List.reverse_cons] at joined
  have arrives :
      (name :: (Path.parts path).foldl (Path.settle (Path.isAbsolute path)) []).reverse.foldl
        Path.advance
      (tree.start (Path.isAbsolute path)) = here ++ [name] := by
    have same := leads (tree.start (Path.isAbsolute path)) (fun rooted => by simp [start, rooted])
    rw [List.reverse_nil, List.foldl_nil, ← arrived] at same
    rw [List.reverse_cons, List.foldl_append, same]
    exact Path.advance_name proper here
  rw [joined, locate_trail plain follow (.name proper trail) (List.cons_ne_nil _ _) atStart
    (arrives ▸ found), arrives]

theorem locate_foldl_join {tree : FileTree} (plain : tree.root.Plain) {follow : Bool}
    {path : String} {here names : List String} {node below : FileNode}
    (located : tree.locate follow path = .ok ⟨here, some node⟩)
    (found : node.get? names = some below) :
    tree.locate follow (names.foldl Path.join path) = .ok ⟨here ++ names, some below⟩ := by
  induction names generalizing path here node with
  | nil =>
    rw [FileNode.get?, Option.some.injEq] at found
    simpa [found] using located
  | cons name names ih =>
    obtain ⟨child, entry, rest⟩ := FileNode.get?_cons_eq_some_iff.mp found
    obtain ⟨entries, rfl⟩ := FileNode.exists_directory_of_child? entry
    simpa using ih (locate_join plain located entry) rest

theorem status_eq_ok_iff {tree : FileTree} {follow : Bool} {path : String} {node : FileNode} :
    tree.status follow path = .ok node ↔
    ∃ here, tree.locate follow path = .ok ⟨here, some node⟩ := by
  unfold status
  cases located : tree.locate follow path with
  | error error => simp [bind, Except.bind]
  | ok place =>
    obtain ⟨here, atHere⟩ := place
    cases atHere <;> simp [bind, Except.bind]

theorem plain_of_status {tree : FileTree} (plain : tree.root.Plain) {follow : Bool} {path : String}
    {node : FileNode} (there : tree.status follow path = .ok node) : node.Plain := by
  obtain ⟨here, located⟩ := status_eq_ok_iff.mp there
  rw [locate_eq_walk tree follow (ne_empty_of_locate located)] at located
  exact (plain.get? (eq_of_walk follow 40 plain located).2).2

/-- The names below a directory, put behind its path one after the other, lead to what is there. -/
theorem status_foldl_join {tree : FileTree} (plain : tree.root.Plain) {follow : Bool}
    {path : String} {names : List String} {node below : FileNode}
    (there : tree.status follow path = .ok node) (found : node.get? names = some below) :
    tree.status follow (names.foldl Path.join path) = .ok below := by
  obtain ⟨here, located⟩ := status_eq_ok_iff.mp there
  exact status_eq_ok_iff.mpr ⟨here ++ names, locate_foldl_join plain located found⟩

theorem status_follow {tree : FileTree} (plain : tree.root.Plain) (follow other : Bool)
    (path : String) :
    tree.status follow path = tree.status other path := by
  have same : tree.locate follow path = tree.locate other path := by
    by_cases somePath : path = ""
    · simp [locate, somePath]
    · rw [locate_eq_walk tree follow somePath, locate_eq_walk tree other somePath,
        walk_follow follow 40 plain other]
  unfold status
  rw [same]

end FileTree

end JarMetrics
