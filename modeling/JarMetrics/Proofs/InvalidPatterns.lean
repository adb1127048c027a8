import JarMetrics.Proofs.ClassLimit

/-!
# Patterns that are not well formed

A pattern comes from the settings, from an option or from the arguments of a call. The settings are
checked when they are loaded, whether their patterns are in force or not. The patterns of a request
are checked by nobody before the archives are read, and then each archive for itself fails to be
read. `malformed_pattern_outcome` says what this means: settings with a malformed pattern end the
request, but a malformed pattern of the request itself ends nothing. The request succeeds with a
report in which every archive is told as unreadable, and whether a request is refused never depends
on its patterns. `option_pattern_reported` is such a request.
-/

namespace JarMetrics

/-! ## Archives -/

/-- A pattern is not well formed. -/
def Selection.Malformed (s : Selection) : Prop :=
  ∃ p ∈ s.includes ++ s.excludes, Glob.isValid p = false

theorem Selection.apply_of_malformed {s : Selection} (malformed : s.Malformed)
    (entries : List ZipEntry) :
    ∃ p, s.apply entries = .error (.plain ("invalid entry pattern " ++ Text.quoted p)) := by
  obtain ⟨p, member, invalid⟩ := malformed
  cases first : s.invalidPattern? with
  | none =>
    have valid := List.find?_eq_none.mp first p member
    simp [invalid] at valid
  | some q =>
    refine ⟨q, ?_⟩
    unfold apply
    rw [first]

section

variable {request : Request} (malformed : request.selection.Malformed)

include malformed

theorem openedArchive?_of_malformed (tree : FileTree) (path : String) :
    openedArchive? tree request path = none := by
  unfold openedArchive?
  split
  · rfl
  split
  · rfl
  · next archive _ =>
    obtain ⟨p, refused⟩ := Selection.apply_of_malformed malformed archive.entries
    rw [refused]
    rfl

theorem archiveAt?_of_malformed (tree : FileTree) (path : String) :
    archiveAt? tree request path = none := by
  cases reported : archiveAt? tree request path with
  | none => rfl
  | some a =>
    obtain ⟨archive, chosen, opened, -⟩ := exists_opened_of_archiveAt? reported
    rw [openedArchive?_of_malformed malformed] at opened
    cases opened

/-- Every archive is told as unreadable. -/
theorem undisturbedReport_of_malformed (host : Host) :
    (undisturbedReport host request).archives = [] ∧
      (undisturbedReport host request).errors.length = request.paths.length := by
  have none : request.paths.filterMap (archiveAt? host.tree request) = [] :=
    List.filterMap_eq_nil_iff.mpr fun path _ => archiveAt?_of_malformed malformed host.tree path
  have all := length_archives_add_faults host.tree request request.paths
  rw [none, List.length_nil, Nat.zero_add] at all
  exact ⟨none, all⟩

end

/-! ## Settings -/

theorem Settings.badPattern?_eq_none_iff {patterns : List String} :
    badPattern? patterns = none ↔ ∀ p ∈ patterns, Glob.isValid p = true := by
  unfold badPattern?
  simp [List.find?_eq_none]

theorem Settings.not_malformed {s : Settings} (sound : s.error? = none) :
    ¬ (Request.ofSettings s).selection.Malformed := by
  have patterns : badPattern? s.includes = none ∧ badPattern? s.excludes = none := by
    unfold error? at sound
    iterate 5
      split at sound
      · cases sound
    split at sound
    · cases sound
    · cases sound
    · next includes excludes => exact ⟨includes, excludes⟩
  rintro ⟨p, member, invalid⟩
  have valid : Glob.isValid p = true := by
    rcases List.mem_append.mp member with member | member
    · exact badPattern?_eq_none_iff.mp patterns.1 p member
    · exact badPattern?_eq_none_iff.mp patterns.2 p member
  rw [valid] at invalid
  cases invalid

theorem Settings.check_of_loadNamed {host : Host} {path : String} {tables : List (String × Value)}
    {s loaded : Settings} (given : path.isEmpty = false)
    (stands : readTables host path = .ok tables)
    (read : ({} : Settings).readLoosely host.password? tables = some s)
    (succeeded : loadNamed host path = .ok loaded) :
    s.check = .ok loaded := by
  unfold loadNamed at succeeded
  dsimp only at succeeded
  rw [given, if_neg Bool.false_ne_true] at succeeded
  obtain ⟨tables', found, checked⟩ := Outcome.exists_of_bind succeeded
  have same := (Outcome.eq_ok_of_mapError found).symm.trans stands
  cases same
  rw [read] at checked
  exact Outcome.eq_ok_of_mapError checked

theorem Settings.check_of_loadStrictly {host : Host} {path : String} {content : List UInt8}
    {f : FileSettings} {loaded : Settings} (stands : host.tree.read path = .ok content)
    (read : ((textOf? content).bind Toml.expressions?).bind FileSettings.ofExpressions = some f)
    (succeeded : loadStrictly host path = .ok loaded) :
    ((f.overlay {}).withPassword host.password?).check = .ok loaded := by
  unfold loadStrictly at succeeded
  obtain ⟨content', found, checked⟩ := Outcome.exists_of_bind succeeded
  have same := found.symm.trans stands
  cases same
  dsimp only at checked
  rw [read] at checked
  exact Outcome.eq_ok_of_mapError checked

namespace Request

variable {host : Host} {layering : Layering} {r : Request}

/-- The settings that a request asks for, before they are checked: those of the file that it names,
or else those of the nearest file. -/
inductive Stated (host : Host) (r : Request) : Settings → Prop
  | named {tables : List (String × Value)} {s : Settings} (given : r.settingsPath.isEmpty = false)
      (stands : Settings.readTables host r.settingsPath = .ok tables)
      (read : ({} : Settings).readLoosely host.password? tables = some s) : Stated host r s
  | nearest {path : String} {content : List UInt8} {f : FileSettings}
      (unnamed : r.settingsPath.isEmpty = true)
      (found : Settings.findFile host.tree
        (if (r.paths.headD "").isEmpty then "." else r.paths.headD "") = .ok path)
      (stands : host.tree.read path = .ok content)
      (read : ((Settings.textOf? content).bind Toml.expressions?).bind
        FileSettings.ofExpressions = some f) :
      Stated host r ((f.overlay {}).withPassword host.password?)

/-- Settings that were loaded are the stated ones, and those have passed the check. -/
theorem check_of_settingsFor {s : Settings} {base : Request} (stated : r.Stated host s)
    (loaded : r.settingsFor host = .ok base) : ∃ accepted, s.check = .ok accepted := by
  unfold settingsFor at loaded
  cases stated with
  | named given stands read =>
    rw [given, if_neg Bool.false_ne_true] at loaded
    have made := Outcome.eq_ok_of_mapError loaded
    obtain ⟨accepted, found, -⟩ := Outcome.exists_of_map (Outcome.eq_ok_of_mapError made)
    exact ⟨accepted, Settings.check_of_loadNamed given stands read found⟩
  | nearest unnamed found stands read =>
    rw [unnamed, if_pos rfl] at loaded
    have made : (Settings.loadFor host (r.paths.headD "")).map ofSettings = .ok base := loaded
    obtain ⟨accepted, nearest, -⟩ := Outcome.exists_of_map made
    unfold Settings.loadFor at nearest
    have strict := Outcome.eq_ok_of_mapError nearest
    unfold Settings.loadNearest at strict
    rw [found] at strict
    exact ⟨accepted, Settings.check_of_loadStrictly stands read strict⟩

/-- A request over stated settings in which a pattern is malformed is not carried out. -/
theorem prepare_of_stated {s : Settings} (layers : layering ≠ .off) (stated : r.Stated host s)
    (malformed : (ofSettings s).selection.Malformed) : ∃ f, r.prepare host layering = .error f := by
  cases prepared : r.prepare host layering with
  | error f => exact ⟨f, rfl⟩
  | ok final =>
    obtain ⟨-, merged, files, layered, -⟩ := prepare_eq_ok_iff.mp prepared
    rcases exists_base layered with ⟨off, -⟩ | ⟨given, base, loaded, -⟩
    · exact absurd off layers
    · obtain ⟨accepted, checked⟩ := check_of_settingsFor stated loaded
      exact absurd malformed (Settings.not_malformed (Settings.check_eq_ok_iff.mp checked).1)

/-! ## Requests -/

theorem patterns_overlay (given : Option Given) (base r : Request) :
    ((overlay given base r).includes = base.includes ∨
      (overlay given base r).includes = r.includes) ∧
      ((overlay given base r).excludes = base.excludes ∨
        (overlay given base r).excludes = r.excludes) := by
  cases given with
  | none =>
    constructor
    · exact ite_eq_or_eq (r.includes.isEmpty = true) base.includes r.includes
    · exact ite_eq_or_eq (r.excludes.isEmpty = true) base.excludes r.excludes
  | some given =>
    constructor
    · exact (ite_eq_or_eq ((given.has "include" && !r.includes.isEmpty) = true)
        r.includes base.includes).symm
    · exact (ite_eq_or_eq ((given.has "exclude" && !r.excludes.isEmpty) = true)
        r.excludes base.excludes).symm

theorem malformed_overlay {given : Option Given} {base : Request}
    (malformed : (overlay given base r).selection.Malformed) :
    base.selection.Malformed ∨ r.selection.Malformed := by
  obtain ⟨p, member, invalid⟩ := malformed
  rcases List.mem_append.mp member with included | excluded
  · rcases (patterns_overlay given base r).1 with same | same
    · exact .inl ⟨p, List.mem_append_left _ (show p ∈ base.includes from same ▸ included), invalid⟩
    · exact .inr ⟨p, List.mem_append_left _ (show p ∈ r.includes from same ▸ included), invalid⟩
  · rcases (patterns_overlay given base r).2 with same | same
    · exact .inl ⟨p, List.mem_append_right _ (show p ∈ base.excludes from same ▸ excluded), invalid⟩
    · exact .inr ⟨p, List.mem_append_right _ (show p ∈ r.excludes from same ▸ excluded), invalid⟩

/-- A malformed pattern that is in force is one of the request itself. -/
theorem malformed_of_layer {merged : Request} (layered : r.layer host layering = .ok merged)
    (malformed : merged.selection.Malformed) : r.selection.Malformed := by
  rcases exists_base layered with ⟨-, rfl⟩ | ⟨given, base, loaded, rfl⟩
  · exact malformed
  · -- what the settings add was checked when they were loaded
    obtain ⟨s, rfl, sound⟩ := exists_settings loaded
    exact (malformed_overlay malformed).resolve_left (Settings.not_malformed sound)

theorem overlay_patterns (given : Option Given) (base r : Request)
    (includes excludes : List String) :
    ∃ includes' excludes', overlay given base { r with includes, excludes } =
      { overlay given base r with includes := includes', excludes := excludes' } := by
  cases given with
  | none => exact ⟨_, _, rfl⟩
  | some given => exact ⟨_, _, rfl⟩

theorem layer_patterns {merged : Request} (includes excludes : List String)
    (layered : r.layer host layering = .ok merged) : ∃ includes' excludes',
      ({ r with includes, excludes } : Request).layer host layering =
        .ok { merged with includes := includes', excludes := excludes' } := by
  rcases off_or_layer_eq host layering with rfl | ⟨given, laid⟩
  · cases layered
    exact ⟨_, _, rfl⟩
  · rw [laid] at layered
    obtain ⟨base, loaded, rfl⟩ := Outcome.exists_of_map layered
    obtain ⟨includes', excludes', same⟩ := overlay_patterns given base r includes excludes
    refine ⟨includes', excludes', ?_⟩
    rw [laid]
    show (r.settingsFor host).map _ = _
    rw [loaded]
    exact congrArg Except.ok same

/-- Other patterns do not get a request refused. -/
theorem prepare_patterns {final : Request} (includes excludes : List String)
    (prepared : r.prepare host layering = .ok final) :
    ∃ final', ({ r with includes, excludes } : Request).prepare host layering = .ok final' := by
  obtain ⟨legal, merged, files, layered, named, found, -⟩ := prepare_eq_ok_iff.mp prepared
  obtain ⟨includes', excludes', layered'⟩ := layer_patterns includes excludes layered
  exact ⟨_, prepare_eq_ok_iff.mpr ⟨legal, _, files, layered', named, found, rfl⟩⟩

/-- What becomes of a malformed pattern. In settings that a request is laid over it is an error, and
nothing is written. In force otherwise, it is one of the request: the request then succeeds with a
report of archives that are all told as unreadable, and that report is delivered. Whether a request
is carried out does not depend on its patterns. -/
theorem malformed_pattern_outcome (host : Host) (layering : Layering)
    (browser : String → Except String Unit) (r : Request) :
    (∀ s interrupt, layering ≠ .off → r.Stated host s → (ofSettings s).selection.Malformed →
      ∃ f, (r.analyzed host layering interrupt).outcome = .error f ∧
        (r.run host layering browser interrupt).delivery =
          { tree := host.tree, failure := some f }) ∧
    (∀ final, r.prepare host layering = .ok final → final.selection.Malformed →
      r.selection.Malformed ∧
      ∃ report, (r.analyzed host layering none).outcome = .ok ⟨report, final⟩ ∧
        (r.run host layering browser none).delivery =
          (⟨report, final⟩ : Prepared).deliver host browser ∧
        report.archives = [] ∧ report.errors.length = final.paths.length ∧ final.paths ≠ []) ∧
    ∀ includes excludes, (∃ final, r.prepare host layering = .ok final) ↔
      ∃ final, ({ r with includes, excludes } : Request).prepare host layering = .ok final := by
  refine ⟨fun s interrupt layers stated malformed => ?_, fun final prepared malformed => ?_,
    fun includes excludes => ⟨?_, ?_⟩⟩
  · obtain ⟨f, refused⟩ := prepare_of_stated layers stated malformed
    have failed := analyzed_of_refused refused interrupt
    exact ⟨f, failed, delivery_of_error failed⟩
  · obtain ⟨-, merged, files, layered, -, -, rfl⟩ := prepare_eq_ok_iff.mp prepared
    have analyzed := analyzed_of_prepared prepared
    obtain ⟨unread, told⟩ := undisturbedReport_of_malformed malformed host
    exact ⟨malformed_of_layer layered malformed, _, analyzed, delivery_of_ok analyzed, unread, told,
      paths_ne_nil prepared⟩
  · rintro ⟨final, prepared⟩
    exact prepare_patterns includes excludes prepared
  · rintro ⟨final, prepared⟩
    exact prepare_patterns (r := { r with includes, excludes }) r.includes r.excludes prepared

/-- Settings in which a class of characters is not closed. -/
def brokenSettings : String := "[analysis]\nexclude_patterns = ['[abc']\n"

set_option maxRecDepth 100000 in
theorem stated_brokenSettings : ∃ s,
    (Tools.pathRequest settingsFileName "x.jar").Stated (Settings.hostWith brokenSettings) s ∧
      (ofSettings s).selection.Malformed := by
  have evaluated : ((Settings.tomlTables? (Utf8.encode brokenSettings)).map fun tables =>
      (plain tables, (Settings.ofLookup (some "secret") (Value.seek tables) {}).excludes)) =
        some (true, ["[abc"]) := by
    decide +kernel
  obtain ⟨tables, parsed, facts⟩ := Option.map_eq_some_iff.mp evaluated
  simp only [Prod.mk.injEq] at facts
  obtain ⟨sound, excludes⟩ := facts
  have stands := Settings.readTables_of_toml (Settings.read_hostWith brokenSettings)
    Settings.ending_settingsFileName parsed
  refine ⟨_, .named (by decide) stands (Settings.readLoosely_of_plain sound _ _), "[abc",
    ?_, by decide +kernel⟩
  apply List.mem_append_right
  show "[abc" ∈ (Settings.ofLookup (some "secret") (Value.seek tables) {}).excludes
  rw [excludes]
  exact List.mem_singleton_self _

/-- A request for `x.jar` with a pattern in which a class of characters is not closed. -/
def brokenRequest : Request :=
  { Tools.pathRequest settingsFileName "x.jar" with includes := ["[abc"] }

/-- That request is carried out with its pattern, whether the pattern is an option or an
argument. -/
theorem prepare_brokenRequest {layering : Layering}
    (asked : layering = .filled ∨ layering = .given ⟨["include"]⟩) :
    ∃ final, brokenRequest.prepare Tools.limitedHost layering = .ok final ∧
      final.selection.Malformed ∧
      final.paths = ["x.jar"] := by
  have laid : ∃ merged, brokenRequest.layer Tools.limitedHost layering = .ok merged ∧
      merged.nameError? = none ∧
      merged.paths = ["x.jar"] ∧ merged.recursive = some true ∧ merged.includes = ["[abc"] := by
    have loaded : brokenRequest.settingsFor Tools.limitedHost = .ok (.ofSettings { top := 1 }) :=
      Tools.settings_limitedHost
    rcases asked with rfl | rfl
    · refine ⟨overlay none (.ofSettings { top := 1 }) brokenRequest, ?_,
        by decide +kernel, rfl, rfl, rfl⟩
      show (brokenRequest.settingsFor Tools.limitedHost).map _ = _
      rw [loaded]
      rfl
    · refine ⟨overlay (some ⟨["include"]⟩) (.ofSettings { top := 1 }) brokenRequest, ?_,
        by decide +kernel, rfl, rfl,
        rfl⟩
      show (brokenRequest.settingsFor Tools.limitedHost).map _ = _
      rw [loaded]
      rfl
  obtain ⟨merged, layered, named, paths, recursive, includes⟩ := laid
  have found : Tools.limitedHost.tree.resolveJars merged.paths (merged.recursive.getD true) =
      .ok ["x.jar"] := by
    rw [paths, recursive]
    exact Tools.resolveJars_limitedHost
  refine ⟨_, prepare_eq_ok_iff.mpr ⟨by decide +kernel, merged, _, layered, named, found, rfl⟩, ?_,
    rfl⟩
  exact ⟨"[abc", List.mem_append_left _ (show "[abc" ∈ merged.includes by simp [includes]),
    by decide +kernel⟩

/-- Settings with that pattern end a request, and an argument with it does not. -/
theorem malformed_pattern_outcome_sample :
    (∃ f,
      ((Tools.pathRequest settingsFileName "x.jar").run (Settings.hostWith brokenSettings) .filled
          (fun _ => .ok ()) none).delivery =
        { tree := (Settings.hostWith brokenSettings).tree, failure := some f }) ∧
    ∃ final report, (brokenRequest.analyzed Tools.limitedHost .filled none).outcome =
      .ok ⟨report, final⟩ ∧
      final.selection.Malformed ∧ report.archives = [] ∧ report.errors.length = 1 := by
  obtain ⟨s, stated, malformed⟩ := stated_brokenSettings
  obtain ⟨final, prepared, malformed', paths⟩ := prepare_brokenRequest (.inl rfl)
  constructor
  · obtain ⟨f, -, delivered⟩ :=
      (malformed_pattern_outcome (Settings.hostWith brokenSettings) .filled
      (fun _ => .ok ()) (Tools.pathRequest settingsFileName "x.jar")).1 s none (by
        intro same; cases same) stated
        malformed
    exact ⟨f, delivered⟩
  · obtain ⟨-, report, analyzed, -, unread, told, -⟩ :=
      (malformed_pattern_outcome Tools.limitedHost .filled (fun _ => .ok ()) brokenRequest).2.1
        final prepared
        malformed'
    rw [paths] at told
    exact ⟨final, report, analyzed, malformed', unread, told⟩

/-- An option with that pattern should end the request, and the request succeeds. -/
theorem option_pattern_reported : ∃ final report,
    (brokenRequest.analyzed Tools.limitedHost (.given ⟨["include"]⟩) none).outcome =
      .ok ⟨report, final⟩ ∧
      final.selection.Malformed ∧ report.archives = [] ∧ report.errors.length = 1 := by
  obtain ⟨final, prepared, malformed, paths⟩ := prepare_brokenRequest (.inr rfl)
  obtain ⟨unread, told⟩ := undisturbedReport_of_malformed malformed Tools.limitedHost
  rw [paths] at told
  exact ⟨final, _, analyzed_of_prepared prepared, malformed, unread, told⟩

end Request

end JarMetrics
