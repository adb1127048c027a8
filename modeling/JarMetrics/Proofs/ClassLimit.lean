import JarMetrics.Proofs.DirectoryOrder
import JarMetrics.Proofs.Doubles
import JarMetrics.Proofs.Preparing
import JarMetrics.Tools.Call

/-!
# The limit of a list of classes

A call that lists classes can ask for the first so many classes of each archive, and for all of them
with a limit of 0. `listClasses_limit` says what the answer lists. A limit that is not 0 is honoured
whatever the settings are. A limit of 0 leaves the choice to the settings (`Request.overlay`), so
all classes are listed exactly if the settings set no limit, or one that the archive does not reach;
`configured_limit_hides_class` is a call in which they do. A number next to `2 ^ 63` is out of range
as a double and is refused.
-/

namespace JarMetrics

theorem Settings.top_of_error? {s : Settings} (sound : s.error? = none) : 0 ≤ s.top :=
  (limits_of_error? sound).2.2.1

namespace Request

/-! ## Preparing a call -/

theorem prepare_filled {host : Host} {r base : Request} {files : List String}
    (sound : r.error? = none) (loaded : r.settingsFor host = .ok base)
    (named : (overlay none base r).nameError? = none)
    (found : host.tree.resolveJars r.paths ((overlay none base r).recursive.getD true) =
      .ok files) :
    r.prepare host .filled = .ok { overlay none base r with paths := files } := by
  have layered : r.layer host .filled = .ok (overlay none base r) := by
    unfold layer
    rw [loaded]
    rfl
  exact prepare_eq_ok_iff.mpr ⟨sound, _, files, layered, named, found, rfl⟩

theorem sort_overlay {r : Request} (base : Request) (sorted : SortKey.isValid r.sort = true) :
    (overlay none base r).sort = r.sort := by
  have filled : r.sort.isEmpty = false := by
    cases empty : r.sort.isEmpty with
    | false => rfl
    | true =>
      rw [String.isEmpty_iff.mp empty] at sorted
      exact absurd sorted (by decide)
  show FileSettings.orElse r.sort base.sort = r.sort
  rw [FileSettings.orElse, filled]
  rfl

/-- Where nothing is wrong with the settings, a request that names a criterion names nothing
wrong. -/
theorem nameError?_overlay {s : Settings} {r : Request} (sound : s.error? = none)
    (unformatted : r.format = "") (sorted : SortKey.isValid r.sort = true) :
    (overlay none (.ofSettings s) r).nameError? = none := by
  have format : (overlay none (.ofSettings s) r).format = s.format := by
    show FileSettings.orElse r.format s.format = s.format
    rw [unformatted]
    rfl
  have valid : Format.isValid s.format = true := (Settings.limits_of_error? sound).1
  unfold nameError?
  rw [format, sort_overlay _ sorted, valid, sorted, Bool.not_true, Bool.and_false, Bool.and_false]
  rfl

end Request

/-! ## Classes of an archive -/

/-- The classes that a limit stands for: the first so many in the order of a criterion, or all if
the limit is 0. -/
def firstClasses (classes : List ClassReport) (sort : String) (limit : Nat) : List ClassReport :=
  if limit = 0 then selectClasses classes sort 0 else (selectClasses classes sort 0).take limit

theorem selectClasses_eq (classes : List ClassReport) (sort : String) (top : Int) :
    selectClasses classes sort top = firstClasses classes sort top.toNat := by
  unfold firstClasses
  split
  · next none =>
    have nothing : ¬ 0 < top := by omega
    simp only [selectClasses, if_neg nothing]
    rfl
  · next some =>
    have positive : 0 < top := by omega
    simp only [selectClasses, if_pos positive]
    rfl

theorem length_selectClasses (classes : List ClassReport) (sort : String) :
    (selectClasses classes sort 0).length = classes.length := List.length_mergeSort _

theorem length_firstClasses (classes : List ClassReport) (sort : String) (limit : Nat) :
    (firstClasses classes sort limit).length =
      if limit = 0 then classes.length else min limit classes.length := by
  unfold firstClasses
  split
  · exact length_selectClasses classes sort
  · rw [List.length_take, length_selectClasses]

theorem classes_of_archiveAt? {tree : FileTree} {request : Request} {path : String}
    {a : ArchiveReport} (reported : archiveAt? tree request path = some a)
    (detailed : request.details = true) :
    a.classes = firstClasses a.allClasses request.sort request.top.toNat := by
  obtain ⟨archive, chosen, -, rfl⟩ := exists_opened_of_archiveAt? reported
  rw [ArchiveReport.ofContents_eq, if_pos detailed, selectClasses_eq]

/-- An archive that can be read has a report, and its classes are those of the entries that the
patterns take. -/
theorem exists_archiveAt? {tree : FileTree} {request : Request} {path : String}
    {content : List UInt8} {archive : ZipArchive} (stands : tree.read path = .ok content)
    (parsed : ZipArchive.read ⟨content.toArray⟩ = .ok archive)
    (valid : ∀ p ∈ request.selection.includes ++ request.selection.excludes,
      Glob.isValid p = true) :
    ∃ a, archiveAt? tree request path = some a ∧ (a.allClasses.map (·.name)).Perm
      ((archive.entries.filter fun e => !e.isDirectory &&
          request.selection.selects e.name).filterMap fun e =>
        (Reading.recordOf (decodeEntry archive e)).map ClassRecord.name) := by
  have opened : openedArchive? tree request path =
      some (archive, request.selection.chosen archive.entries) := by
    unfold openedArchive?
    simp only [stands, parsed, Selection.apply_of_valid valid]
    rfl
  exact ⟨_, archiveAt?_of_opened opened,
    (covers_ofContents path request archive _).decoded.trans
      ((List.mergeSort_perm _ _).filterMap _)⟩

theorem firstClasses_of_length {classes : List ClassReport} {sort : String} {limit limit' : Nat}
    (positive : limit ≠ 0) (positive' : limit' ≠ 0) (reached : classes.length ≤ limit)
    (reached' : classes.length ≤ limit') :
    firstClasses classes sort limit = firstClasses classes sort limit' := by
  unfold firstClasses
  rw [← length_selectClasses classes sort] at reached reached'
  rw [if_neg positive, if_neg positive', List.take_of_length_le reached,
    List.take_of_length_le reached']

/-- The nearest double is as good a limit as the number itself, unless there are more classes than
doubles can tell apart. -/
theorem firstClasses_nearest {classes : List ClassReport} {t : Nat} (sort : String)
    (told : t ≤ 2 ^ 53 ∨ classes.length ≤ 2 ^ 53) :
    firstClasses classes sort (Double.nearest t) = firstClasses classes sort t := by
  rcases Nat.le_total t (2 ^ 53) with small | large
  · rw [Double.nearest_eq_of_le small]
  · have rounded := Double.le_nearest large
    rcases told with small | few
    · rw [Double.nearest_eq_of_le small]
    · exact firstClasses_of_length (by omega) (by omega) (by omega) (by omega)

/-- A limit lists all classes exactly if it is 0 or not reached. -/
theorem firstClasses_eq_all_iff {classes : List ClassReport} {sort : String} {limit : Nat} :
    firstClasses classes sort limit = firstClasses classes sort 0 ↔ limit = 0 ∨
    classes.length ≤ limit := by
  unfold firstClasses
  rw [if_pos rfl]
  split
  · next none => exact iff_of_true rfl (.inl none)
  · next some =>
    rw [or_iff_right some, ← length_selectClasses classes sort]
    constructor
    · intro same
      have lengths := congrArg List.length same
      rw [List.length_take] at lengths
      omega
    · exact List.take_of_length_le

namespace Tools

/-! ## Calls -/

theorem isValid_of_sortArgument {arguments : Json} {sort : String}
    (asked : sortArgument arguments = .ok sort) :
    SortKey.isValid sort = true := by
  unfold sortArgument at asked
  split at asked
  · cases asked
    decide
  · cases asked
    decide
  · split at asked
    · next valid =>
      cases asked
      exact valid
    · cases asked

/-- The limit that a number becomes on its way. -/
theorem topArgument_eq {arguments : Json} {t : Nat}
    (limited : (arguments.get "top").float? = some (Float.ofInt t)) (small : t < 2 ^ 63) :
    topArgument arguments =
      some (if t < 2 ^ 63 - 512 then (Double.nearest t : Int) else -9223372036854775808) := by
  have given : (arguments.get "top").float? = some (Float.ofNat t) := limited
  unfold topArgument
  rw [given]
  show (if Float.ofNat t < 0.0 then none else some (Value.wholePart (Float.ofNat t))) = _
  rw [if_neg (Double.not_lt_zero (Double.represents_ofNat small)), Double.wholePart_ofNat small]

theorem error?_listRequest {sort : String} (valid : SortKey.isValid sort = true)
    (settingsPath path : String) (top : Int) :
    (listRequest settingsPath path sort top).error? =
      if top < 0 then some .negativeTop else none := by
  have named : (listRequest settingsPath path sort top).nameError? = none := by
    show (if !sort.isEmpty && !SortKey.isValid sort then some (RequestError.sort sort) else none) =
      none
    rw [valid, Bool.not_true, Bool.and_false]
    rfl
  show (if top < 0 then some .negativeTop
    else (listRequest settingsPath path sort top).nameError?) = _
  rw [named]

/-- The limit of a call, unless it is 0, comes before that of the settings. -/
theorem limit_overlay (base : Request) (settingsPath path sort : String) (t : Nat) :
    (Request.overlay none base (listRequest settingsPath path sort (Double.nearest t))).top.toNat =
      if t = 0 then base.top.toNat else Double.nearest t := by
  show (if 0 < (Double.nearest t : Int) then (Double.nearest t : Int) else base.top).toNat = _
  rcases Nat.eq_zero_or_pos t with rfl | positive
  · rw [Double.nearest_eq_of_le (Nat.zero_le _), if_neg (by decide), if_pos rfl]
  · have rounded := Double.nearest_pos positive
    rw [if_pos (by omega), if_neg (by omega), Int.toNat_natCast]

/-- A request that can be prepared is answered with the report of its archives. -/
theorem answerRequest_eq {host : Host} {request final : Request} {tell : Report → Json}
    (prepared : request.prepare host .filled = .ok final) :
    (answerRequest host request tell).answer =
      { text := (tell (undisturbedReport host final)).compact true } := by
  unfold answerRequest
  simp only [Request.analyzed_of_prepared prepared]

theorem answerRequest_refused {host : Host} {request : Request} {tell : Report → Json} {f : Failure}
    (refused : request.prepare host .filled = .error f) :
    (answerRequest host request tell).answer =
      { text := "analysis failed: " ++ f.message, isError := true } := by
  unfold answerRequest
  simp only [Request.analyzed_of_refused refused]
  rfl

section

variable {host : Host} {settingsPath : String} {arguments members : Json} {path sort : String}
  {t : Nat} {base : Request} {files : List String}

theorem callListClasses_eq {top : Int} (given : readPath host.tree arguments = .ok (members, path))
    (sorted : sortArgument members = .ok sort) (asked : topArgument members = some top) :
    callListClasses host settingsPath arguments =
      answerRequest host (listRequest settingsPath path sort top) (classListJson sort) := by
  unfold callListClasses
  simp only [given, sorted, asked]

/-- A call with a limit that is within range is answered from the archives that were found, with the
criterion of the call, the patterns of the settings, and the limit of the call unless that is 0. -/
theorem exists_answer (given : readPath host.tree arguments = .ok (members, path))
    (sorted : sortArgument members = .ok sort)
    (limited : (members.get "top").float? = some (Float.ofInt t)) (fits : t < 2 ^ 63 - 512)
    (loaded : (pathRequest settingsPath path).settingsFor host = .ok base)
    (found : host.tree.resolveJars [path] (base.recursive.getD true) = .ok files) :
    ∃ final : Request, final.paths = files ∧ final.selection = base.selection ∧
      (callListClasses host settingsPath arguments).answer =
        { text := (classListJson sort (undisturbedReport host final)).compact true } ∧
      ∀ a ∈ (undisturbedReport host final).archives,
        a.classes = firstClasses a.allClasses
          sort (if t = 0 then base.top.toNat else Double.nearest t) := by
  have valid := isValid_of_sortArgument sorted
  have asked := topArgument_eq limited (by omega)
  rw [if_pos fits] at asked
  obtain ⟨s, rfl, sound⟩ := Request.exists_settings loaded
  have legal : (listRequest settingsPath path sort (Double.nearest t)).error? = none := by
    rw [error?_listRequest valid, if_neg (by omega)]
  have prepared :=
    Request.prepare_filled legal loaded (Request.nameError?_overlay sound rfl valid) found
  have order : (Request.overlay none (.ofSettings s)
    (listRequest settingsPath path sort (Double.nearest t))).sort = sort :=
      Request.sort_overlay _ valid
  have limit := limit_overlay (.ofSettings s) settingsPath path sort t
  have patterns : (Request.overlay none (.ofSettings s)
    (listRequest settingsPath path sort (Double.nearest t))).selection =
      (Request.ofSettings s).selection := rfl
  rw [callListClasses_eq given sorted asked, answerRequest_eq prepared]
  refine ⟨{ Request.overlay none (.ofSettings s)
    (listRequest settingsPath path sort (Double.nearest t)) with
    paths := files }, rfl, patterns, rfl, fun a member => ?_⟩
  obtain ⟨file, -, reported⟩ := List.mem_filterMap.mp member
  exact (classes_of_archiveAt? reported rfl).trans
    (congrArg₂ (firstClasses a.allClasses) order limit)

end

/-- What a call that lists classes answers, for a path that exists, a criterion that is known,
settings that can be loaded and archives that are there. A limit other than 0 is honoured, a limit
of 0 exactly if the settings do not limit the list, and a limit that is rounded to `2 ^ 63` is
refused. Doubles cannot tell all limits over `2 ^ 53` apart, which makes no difference unless there
are as many classes. -/
theorem listClasses_limit (host : Host) (settingsPath : String) {arguments members : Json}
    {path sort : String} {t : Nat} {base : Request} {files : List String}
    (given : readPath host.tree arguments = .ok (members, path))
    (sorted : sortArgument members = .ok sort)
    (limited : (members.get "top").float? = some (Float.ofInt t)) (small : t < 2 ^ 63)
    (loaded : (pathRequest settingsPath path).settingsFor host = .ok base)
    (found : host.tree.resolveJars [path] (base.recursive.getD true) = .ok files) :
    (t < 2 ^ 63 - 512 → ∃ final report, final.paths = files ∧ final.selection = base.selection ∧
      Balanced host.tree final report ∧
      (callListClasses host settingsPath arguments).answer =
        { text := (classListJson sort report).compact true } ∧
      ∀ a ∈ report.archives,
        a.classes = firstClasses a.allClasses
          sort (if t = 0 then base.top.toNat else Double.nearest t) ∧
        (t ≤ 2 ^ 53 ∨ a.allClasses.length ≤ 2 ^ 53 →
          (a.classes = firstClasses a.allClasses sort t ↔
            t ≠ 0 ∨ base.top = 0 ∨ (a.allClasses.length : Int) ≤ base.top))) ∧
    (2 ^ 63 - 512 ≤ t → (callListClasses host settingsPath arguments).answer =
      { text := "analysis failed: [INVALID_INPUT] invalid request: top cannot be negative",
        isError := true }) := by
  constructor
  · intro fits
    obtain ⟨final, asked, patterns, answered, listed⟩ :=
      exists_answer given sorted limited fits loaded found
    refine ⟨final, _, asked, patterns, balanced_undisturbedReport host final,
      answered, fun a member => ?_⟩
    refine ⟨listed a member, fun told => ?_⟩
    rw [listed a member]
    rcases Nat.eq_zero_or_pos t with rfl | positive
    · obtain ⟨s, rfl, sound⟩ := Request.exists_settings loaded
      have least : 0 ≤ (Request.ofSettings s).top := Settings.top_of_error? sound
      rw [if_pos rfl, firstClasses_eq_all_iff]
      omega
    · rw [if_neg (Nat.ne_of_gt positive), firstClasses_nearest sort told]
      exact iff_of_true rfl (.inl (Nat.ne_of_gt positive))
  · intro large
    have valid := isValid_of_sortArgument sorted
    have asked := topArgument_eq limited small
    rw [if_neg (by omega)] at asked
    have refused :
        (listRequest settingsPath path sort (-9223372036854775808)).prepare host .filled =
          .error (.codedBy .invalidInput "invalid request"
            (.plain RequestError.negativeTop.message)) := by
      unfold Request.prepare
      rw [error?_listRequest valid, if_pos (by decide)]
      rfl
    rw [callListClasses_eq given sorted asked, answerRequest_refused refused]
    decide

/-- An archive with the classes `A` and `B`. -/
def twoClasses : List UInt8 :=
  [0x50, 0x4b, 0x03, 0x04, 0x14, 0x00, 0x00, 0x00, 0x00, 0x00, 0x00, 0x00, 0x21, 0x00, 0x00,
    0x00, 0x00, 0x00, 0x26, 0x00, 0x00, 0x00, 0x26, 0x00, 0x00, 0x00, 0x07, 0x00, 0x00, 0x00, 0x41,
    0x2e, 0x63, 0x6c, 0x61, 0x73, 0x73, 0xca, 0xfe, 0xba, 0xbe, 0x00, 0x00, 0x00, 0x34, 0x00, 0x05,
    0x01, 0x00, 0x01, 0x41, 0x07, 0x00, 0x01, 0x01, 0x00, 0x01, 0x42, 0x07, 0x00, 0x03, 0x00, 0x21,
    0x00, 0x02, 0x00, 0x04, 0x00, 0x00, 0x00, 0x00, 0x00, 0x00, 0x00, 0x00, 0x50, 0x4b, 0x03, 0x04,
    0x14, 0x00, 0x00, 0x00, 0x00, 0x00, 0x00, 0x00, 0x21, 0x00, 0x00, 0x00, 0x00, 0x00, 0x26, 0x00,
    0x00, 0x00, 0x26, 0x00, 0x00, 0x00, 0x07, 0x00, 0x00, 0x00, 0x42, 0x2e, 0x63, 0x6c, 0x61,
    0x73, 0x73, 0xca, 0xfe, 0xba, 0xbe, 0x00, 0x00, 0x00, 0x34, 0x00, 0x05, 0x01, 0x00, 0x01, 0x42,
    0x07, 0x00, 0x01, 0x01, 0x00, 0x01, 0x43, 0x07, 0x00, 0x03, 0x00, 0x21, 0x00, 0x02, 0x00, 0x04,
    0x00, 0x00, 0x00, 0x00, 0x00, 0x00, 0x00, 0x00, 0x50, 0x4b, 0x01, 0x02, 0x14, 0x00, 0x14, 0x00,
    0x00, 0x00, 0x00, 0x00, 0x00, 0x00, 0x21, 0x00, 0x00, 0x00, 0x00, 0x00, 0x26, 0x00, 0x00, 0x00,
    0x26, 0x00, 0x00, 0x00, 0x07, 0x00, 0x00, 0x00, 0x00, 0x00, 0x00, 0x00, 0x00, 0x00, 0x00, 0x00,
    0x00, 0x00, 0x00, 0x00, 0x00, 0x00, 0x41, 0x2e, 0x63, 0x6c, 0x61, 0x73, 0x73, 0x50, 0x4b,
    0x01, 0x02, 0x14, 0x00, 0x14, 0x00, 0x00, 0x00, 0x00, 0x00, 0x00, 0x00, 0x21, 0x00, 0x00, 0x00,
    0x00, 0x00, 0x26, 0x00, 0x00, 0x00, 0x26, 0x00, 0x00, 0x00, 0x07, 0x00, 0x00, 0x00, 0x00, 0x00,
    0x00, 0x00, 0x00, 0x00, 0x00, 0x00, 0x00, 0x00, 0x4b, 0x00, 0x00, 0x00, 0x42, 0x2e, 0x63, 0x6c,
    0x61, 0x73, 0x73, 0x50, 0x4b, 0x05, 0x06, 0x00, 0x00, 0x00, 0x00, 0x02, 0x00, 0x02, 0x00, 0x6a,
    0x00, 0x00, 0x00, 0x96, 0x00, 0x00, 0x00, 0x00, 0x00]

/-- Settings that limit lists to one class. -/
def oneClassSettings : String := "[output]\ntop = 1\n"

/-- That archive beside those settings. -/
def limitedHost : Host :=
  { tree := ⟨.directory [(settingsFileName, .file (Utf8.encode oneClassSettings) false),
      ("x.jar", .file twoClasses false)], "/"⟩ }

/-- A call for the classes of `x.jar`. -/
def listCall (t : Nat) : Json := .object [("path", .string "x.jar"), ("top", .int t)]

theorem read_limitedHost :
    limitedHost.tree.status true "x.jar" = .ok (.file twoClasses false) ∧
      limitedHost.tree.read "x.jar" = .ok twoClasses ∧
      limitedHost.tree.read settingsFileName = .ok (Utf8.encode oneClassSettings) := by
  have here : limitedHost.tree.hereNames = [] := by decide +kernel
  have archive : Path.parts "x.jar" = ["x.jar"] := by decide +kernel
  have settings : Path.parts settingsFileName = [".jarscn.toml"] := by decide +kernel
  simp only [FileTree.read, FileTree.status, FileTree.locate, archive,
    settings, here, FileTree.walk]
  exact ⟨rfl, rfl, rfl⟩

theorem readPath_listCall (t : Nat) :
    readPath limitedHost.tree (listCall t) = .ok (listCall t, "x.jar") := by
  have asked : ((listCall t).get "path").string? = some "x.jar" := rfl
  unfold listCall at asked
  unfold listCall readPath
  simp only [asked]
  split
  · next none => cases none
  · next empty => exact absurd (Option.some.inj empty) (by decide)
  · next path _ same =>
    cases same
    simp only [read_limitedHost.1]

theorem resolveJars_limitedHost : limitedHost.tree.resolveJars ["x.jar"] true = .ok ["x.jar"] :=
  FileTree.resolveJars_of_file read_limitedHost.1 (by decide +kernel) true

set_option maxRecDepth 100000 in
theorem settings_limitedHost :
    (pathRequest settingsFileName "x.jar").settingsFor limitedHost =
      .ok (.ofSettings { top := 1 }) := by
  have evaluated : ((Settings.tomlTables? (Utf8.encode oneClassSettings)).map fun tables =>
      (plain tables, (Settings.ofLookup none (Value.seek tables) {}).accepted)) =
        some (true, some { top := 1 }) := by
    decide +kernel
  obtain ⟨tables, parsed, facts⟩ := Option.map_eq_some_iff.mp evaluated
  simp only [Prod.mk.injEq] at facts
  obtain ⟨sound, settings⟩ := facts
  have accepted :=
    Settings.loadNamed_of_plain read_limitedHost.2.2 Settings.ending_settingsFileName parsed sound
  rw [show limitedHost.password? = none from rfl, settings] at accepted
  cases loaded : Settings.loadNamed limitedHost settingsFileName with
  | error cause =>
    rw [loaded] at accepted
    cases accepted
  | ok s =>
    rw [loaded] at accepted
    cases accepted
    show ((((Settings.loadNamed limitedHost settingsFileName).map Request.ofSettings).mapError
      _).mapError _) = _
    rw [loaded]
    rfl

set_option maxRecDepth 100000 in
/-- A report for the patterns of those settings has both classes. -/
theorem exists_archive_limitedHost {final : Request}
    (patterns : final.selection = ⟨[Selection.classFiles], []⟩) :
    ∃ a, ["x.jar"].filterMap (archiveAt? limitedHost.tree final) = [a] ∧
      (a.allClasses.map (·.name)).Perm ["A", "B"] := by
  have evaluated : ((ZipArchive.read ⟨twoClasses.toArray⟩).toOption.map fun archive =>
      (archive.entries.filter fun e =>
        !e.isDirectory && (⟨[Selection.classFiles], []⟩ : Selection).selects
          e.name).filterMap fun e =>
          (Reading.recordOf (decodeEntry archive e)).map ClassRecord.name) = some ["A", "B"] := by
    decide +kernel
  cases parsed : ZipArchive.read ⟨twoClasses.toArray⟩ with
  | error fault =>
    rw [parsed] at evaluated
    cases evaluated
  | ok archive =>
    rw [parsed] at evaluated
    have valid : ∀ p ∈ final.selection.includes ++ final.selection.excludes,
        Glob.isValid p = true := by
      rw [patterns]
      decide +kernel
    obtain ⟨a, reported, names⟩ := exists_archiveAt? read_limitedHost.2.1 parsed valid
    rw [patterns] at names
    exact ⟨a, by simp [reported], names.trans (.of_eq (Option.some.inj evaluated))⟩

/-- Although the settings ask for one class, a call for two lists both. -/
theorem listClasses_limit_two :
    ∃ report a, (callListClasses limitedHost settingsFileName (listCall 2)).answer =
      { text := (classListJson "complexity" report).compact true } ∧ report.archives = [a] ∧
    (a.allClasses.map (·.name)).Perm ["A", "B"] ∧
    a.classes = firstClasses a.allClasses "complexity" 2 ∧
    a.classes.length = 2 := by
  obtain ⟨final, report, asked, patterns, balanced, answered, listed⟩ :=
    (listClasses_limit limitedHost settingsFileName (t := 2)
        (readPath_listCall 2) rfl rfl (by decide)
      settings_limitedHost resolveJars_limitedHost).1 (by decide)
  obtain ⟨a, single, names⟩ := exists_archive_limitedHost patterns
  have archives : report.archives = [a] := by rw [balanced.archives, asked, single]
  have classes :=
    ((listed a (by rw [archives]; exact List.mem_singleton_self a)).2 (.inl (by decide))).mpr
    (.inl (by decide))
  refine ⟨report, a, answered, archives, names, classes, ?_⟩
  rw [classes, length_firstClasses, ← List.length_map (·.name), names.length_eq]
  rfl

/-- With a limit of 0 that call should list both classes, and it lists one. -/
theorem configured_limit_hides_class : ∃ report a,
    (callListClasses limitedHost settingsFileName (listCall 0)).answer =
      { text := (classListJson "complexity" report).compact true } ∧ report.archives = [a] ∧
    (a.allClasses.map (·.name)).Perm ["A", "B"] ∧ a.classes.length = 1 := by
  obtain ⟨final, asked, patterns, answered, listed⟩ :=
    exists_answer (t := 0) (readPath_listCall 0) rfl rfl (by decide) settings_limitedHost
      resolveJars_limitedHost
  obtain ⟨a, single, names⟩ := exists_archive_limitedHost patterns
  have archives : (undisturbedReport limitedHost final).archives = [a] := by
    show final.paths.filterMap _ = _
    rw [asked, single]
  refine ⟨_, a, answered, archives, names, ?_⟩
  rw [listed a (by rw [archives]; exact List.mem_singleton_self a), length_firstClasses,
    ← List.length_map (·.name), names.length_eq]
  rfl

end Tools

end JarMetrics
