import JarMetrics.Proofs.LooseSettings
import JarMetrics.Proofs.StrictSettings
import JarMetrics.Settings.Load

/-!
# Two ways to load settings

A settings file in TOML can be found by itself and read strictly, or it can be named and read
loosely. Where its tables are plain, both readers see the same values at the known keys
(`ofExpressions_of_plain`, `readLoosely_of_plain`). But for some keys the strict reader takes a
blank value for none and leaves the default in place, where the loose reader takes it as it is.
`loaders_agree_iff`: this is the only difference. Both ways fail or both give the same settings,
whatever the password from outside, exactly if no such key is blank or there are no settings either
way. `blank_format_divides` is a file that the strict way accepts and the loose way refuses.
-/

namespace JarMetrics.Settings

open Value

/-! ## Blank values -/

/-- The keys at which a blank value is taken for none. -/
def guarded : List (String × String) :=
  [("analysis", "include_patterns"), ("output", "format"), ("output", "sort_by"), ("graph", "uri"),
    ("graph", "username"), ("graph", "database"), ("graph", "batch_size")]

/-- Whether a value is blank: an empty text or list, or a number that is not positive. -/
def blank : Value → Bool
  | .text t => t.isEmpty
  | .list items => items.isEmpty
  | .int n => n ≤ 0
  | _ => false

/-- Whether no such key of the tables is blank. -/
def unblanked (tables : Entries Value) : Bool :=
  guarded.all fun g => !(seek tables g.1 g.2).any blank

theorem unblanked_iff {tables : Entries Value} : unblanked tables = true ↔
    (seek tables "analysis" "include_patterns").any blank = false ∧
    (seek tables "output" "format").any blank = false ∧
      (seek tables "output" "sort_by").any blank = false ∧
      (seek tables "graph" "uri").any blank = false ∧
      (seek tables "graph" "username").any blank = false ∧
      (seek tables "graph" "database").any blank = false ∧
      (seek tables "graph" "batch_size").any blank = false := by
  simp only [unblanked, guarded, List.all_cons, List.all_nil, Bool.and_true,
    Bool.and_eq_true, Bool.not_eq_true']

section

variable {held : Option Value}

theorem orElse_eq_iff (fits : ∀ v, held = some v → Kind.text.fits v = true) {other : String}
    (real : other ≠ "") :
    FileSettings.orElse ((held.bind text?).getD "") other = (held.bind text?).getD other ↔
      held.any blank = false := by
  cases held with
  | none => simp [FileSettings.orElse]
  | some v =>
    obtain ⟨t, rfl⟩ := Kind.fits_text.mp (fits v rfl)
    by_cases empty : t = ""
    · simp [FileSettings.orElse, text?, blank, empty, real]
    · simp [FileSettings.orElse, text?, blank, empty]

/-- Where nothing is the default, blank is the same as nothing. -/
theorem orElse_nothing (text : Option String) :
    FileSettings.orElse (text.getD "") "" = text.getD "" := by
  unfold FileSettings.orElse
  split
  · rename_i empty
    rw [String.isEmpty_iff.mp empty]
  · rfl

theorem includes_eq_iff (fits : ∀ v, held = some v → Kind.texts.fits v = true) {other : List String}
    (real : other ≠ []) :
    (if ((held.bind texts?).getD []).isEmpty then other else (held.bind texts?).getD []) =
      (held.bind texts?).getD other ↔ held.any blank = false := by
  cases held with
  | none => simp
  | some v =>
    obtain ⟨texts, rfl⟩ := Kind.fits_texts.mp (fits v rfl)
    by_cases empty : texts = []
    · simp [blank, texts?, empty, real]
    · simp [blank, empty]

theorem batchSize_eq_iff (fits : ∀ v, held = some v → Kind.int.fits v = true) {other : Int}
    (positive : 0 < other) :
    (if 0 < (held.bind int?).getD 0 then (held.bind int?).getD 0 else other) =
      (held.bind int?).getD other ↔
      held.any blank = false := by
  cases held with
  | none => simp
  | some v =>
    obtain ⟨n, rfl, -⟩ := Kind.fits_int.mp (fits v rfl)
    by_cases above : 0 < n
    · simp [int?, blank, above]
    · have different : other ≠ n := by omega
      simp [int?, blank, above, different]

end

theorem withPassword_eq (password : Option String) (s : Settings) :
    s.withPassword password = { s with password := (filled password).getD s.password } := by
  cases password with
  | none => rfl
  | some p => by_cases empty : p = "" <;> simp [withPassword, filled, empty]

/-- The settings of plain tables, read strictly and read loosely, are the same exactly if no guarded
key is blank. -/
theorem overlay_eq_iff {tables : Entries Value} (sound : plain tables = true)
    (password : Option String) :
    ((FileSettings.ofLookup (seek tables)).overlay {}).withPassword password =
      ofLookup password (seek tables) {} ↔ unblanked tables = true := by
  have fits : ∀ {t k : String} {kind : Kind}, kindOf t k = some kind →
      ∀ v, seek tables t k = some v → kind.fits v = true := fun known _ => fits_of_seek sound known
  have includes := includes_eq_iff (fits (show kindOf "analysis" "include_patterns" = _ from rfl))
    (show ({} : Settings).includes ≠ [] by decide)
  have format := orElse_eq_iff (fits (show kindOf "output" "format" = _ from rfl))
    (show ({} : Settings).format ≠ "" by decide)
  have sort := orElse_eq_iff (fits (show kindOf "output" "sort_by" = _ from rfl))
    (show ({} : Settings).sort ≠ "" by decide)
  have uri := orElse_eq_iff (fits (show kindOf "graph" "uri" = _ from rfl))
    (show ({} : Settings).uri ≠ "" by decide)
  have username := orElse_eq_iff (fits (show kindOf "graph" "username" = _ from rfl))
    (show ({} : Settings).username ≠ "" by decide)
  have database := orElse_eq_iff (fits (show kindOf "graph" "database" = _ from rfl))
    (show ({} : Settings).database ≠ "" by decide)
  have batchSize := batchSize_eq_iff (fits (show kindOf "graph" "batch_size" = _ from rfl))
    (show 0 < ({} : Settings).batchSize by decide)
  rw [withPassword_eq, unblanked_iff]
  constructor
  · intro same
    exact ⟨includes.mp (congrArg Settings.includes same), format.mp (congrArg Settings.format same),
      sort.mp (congrArg Settings.sort same), uri.mp (congrArg Settings.uri same),
      username.mp (congrArg Settings.username same), database.mp (congrArg Settings.database same),
      batchSize.mp (congrArg Settings.batchSize same)⟩
  · rintro ⟨clear, clear', clear'', clearUri, clearUsername, clearDatabase, clearBatch⟩
    -- all other fields are taken over by both
    rw [ofLookup, Settings.mk.injEq]
    exact ⟨includes.mpr clear, rfl, rfl, rfl, format.mpr clear', rfl, sort.mpr clear'',
      rfl, orElse_nothing _, uri.mpr clearUri, username.mpr clearUsername,
      congrArg (filled password).getD (orElse_nothing _), database.mpr clearDatabase,
      batchSize.mpr clearBatch⟩

/-! ## Loading -/

/-- Settings, if nothing is wrong with them. -/
def accepted (s : Settings) : Option Settings := if s.error? = none then some s else none

theorem toOption_check (s : Settings) (note : Failure → Failure) :
    (s.check.mapError note).toOption = s.accepted := by
  unfold check accepted
  cases s.error? <;> rfl

theorem accepted_eq_iff {s s' : Settings} :
    s.accepted = s'.accepted ↔ s = s' ∨ s.accepted = none ∧ s'.accepted = none := by
  constructor
  · intro same
    unfold accepted at same ⊢
    split at same <;> split at same
    · exact .inl (Option.some.inj same)
    · cases same
    · cases same
    · rename_i wrong wrong'
      exact .inr ⟨if_neg wrong, if_neg wrong'⟩
  · rintro (rfl | ⟨refused, refused'⟩)
    · rfl
    · rw [refused, refused']

/-- A TOML file whose values are well formed is a document. -/
theorem exists_of_tomlTables {content : List UInt8} {tables : Entries Value}
    (parsed : tomlTables? content = some tables) :
    ∃ text parts, textOf? content = some text ∧ Toml.expressions? text = some parts ∧
      Toml.document parts = some tables := by
  obtain ⟨text, readable, parsed⟩ := Option.bind_eq_some_iff.mp parsed
  obtain ⟨found, parsed, formed⟩ := Option.bind_eq_some_iff.mp parsed
  obtain ⟨parts, cut, described⟩ := Option.bind_eq_some_iff.mp parsed
  split at formed
  · cases formed
    exact ⟨text, parts, readable, cut, described⟩
  · cases formed

section

variable {host : Host} {path : String} {content : List UInt8} {tables : Entries Value}

/-- The strict way with plain tables. -/
theorem loadStrictly_of_plain (stands : host.tree.read path = .ok content)
    (parsed : tomlTables? content = some tables) (sound : plain tables = true) :
    (loadStrictly host path).toOption =
      (((FileSettings.ofLookup (seek tables)).overlay {}).withPassword
        host.password?).accepted := by
  obtain ⟨text, parts, readable, cut, described⟩ := exists_of_tomlTables parsed
  have read : ((textOf? content).bind Toml.expressions?).bind FileSettings.ofExpressions =
      some (FileSettings.ofLookup (seek tables)) := by
    rw [readable, Option.bind_some, cut, Option.bind_some,
      FileSettings.ofExpressions_of_plain described sound]
  simp only [loadStrictly, stands, bind, Except.bind, read, toOption_check]

theorem readTables_of_toml (stands : host.tree.read path = .ok content)
    (named : Path.ending path = ".toml") (parsed : tomlTables? content = some tables) :
    readTables host path = .ok tables := by
  have kind : String.ofList (".toml".toList.drop 1) = "toml" := by decide
  have known : endings.contains "toml" = true := by decide
  have table : tables? host "toml" content = some tables := parsed
  simp only [readTables, named, kind, known, stands, bind, Except.bind, table,
    Bool.not_true, Bool.false_eq_true, if_false]

/-- The loose way with plain tables. -/
theorem loadNamed_of_plain (stands : host.tree.read path = .ok content)
    (named : Path.ending path = ".toml") (parsed : tomlTables? content = some tables)
    (sound : plain tables = true) :
    (loadNamed host path).toOption = (ofLookup host.password? (seek tables) {}).accepted := by
  have filled : path.isEmpty = false := by
    cases empty : path.isEmpty with
    | false => rfl
    | true =>
      rw [String.isEmpty_iff.mp empty] at named
      exact absurd named (by decide)
  have kept :
      (readTables host path).mapError (Failure.noted ("failed to read config file " ++ path)) =
        .ok tables := by
    rw [readTables_of_toml stands named parsed]
    rfl
  simp only [loadNamed, filled, kept, bind, Except.bind, Bool.false_eq_true, if_false,
    readLoosely_of_plain sound, toOption_check]

end

/-- Whether a file is found or named, the same settings come of it, or none either way, exactly if
no guarded key is blank in it or there are no settings either way. -/
theorem loaders_agree_iff (host : Host) {found given : String} {content : List UInt8}
    {tables : Entries Value} (stands : host.tree.read found = .ok content)
    (stands' : host.tree.read given = .ok content) (named : Path.ending given = ".toml")
    (parsed : tomlTables? content = some tables) (sound : plain tables = true) :
    (loadStrictly host found).toOption = (loadNamed host given).toOption ↔
      unblanked tables = true ∨
        (loadStrictly host found).toOption = none ∧ (loadNamed host given).toOption = none := by
  rw [loadStrictly_of_plain stands parsed sound,
    loadNamed_of_plain stands' named parsed sound, accepted_eq_iff, overlay_eq_iff sound]

/-- A host with one settings file. -/
def hostWith (text : String) : Host :=
  { tree := ⟨.directory [(settingsFileName, .file (Utf8.encode text) false)], "/"⟩
    environment := [(passwordVariable, "secret")] }

theorem read_hostWith (text : String) :
    (hostWith text).tree.read settingsFileName = .ok (Utf8.encode text) := by
  have here : (Path.parts "/").filter (· != "") = [] := by decide +kernel
  have parts : Path.parts settingsFileName = [".jarscn.toml"] := by decide +kernel
  simp only [FileTree.read, FileTree.status, FileTree.locate, parts, FileTree.hereNames,
    hostWith, here, FileTree.walk]
  rfl

theorem ending_settingsFileName : Path.ending settingsFileName = ".toml" := by decide +kernel

/-- Known keys in any case and with dots, an unknown section, and an empty password. -/
def sampleSettings : String := "graph.password = ''\n[OUTPUT]\nFormat = 'json'\n[x]\ny.z = 1\n"

set_option maxRecDepth 100000 in
theorem loaders_agree_iff_sample :
    (loadStrictly (hostWith sampleSettings) settingsFileName).toOption =
        some { format := "json", password := "secret" } ∧
      (loadNamed (hostWith sampleSettings) settingsFileName).toOption =
        some { format := "json", password := "secret" } := by
  have evaluated : ((tomlTables? (Utf8.encode sampleSettings)).map fun tables =>
      (plain tables, unblanked tables, (ofLookup (some "secret") (seek tables) {}).accepted)) =
        some (true, true, some { format := "json", password := "secret" }) := by
    decide +kernel
  obtain ⟨tables, parsed, facts⟩ := Option.map_eq_some_iff.mp evaluated
  simp only [Prod.mk.injEq] at facts
  obtain ⟨sound, clear, settings⟩ := facts
  have stands := read_hostWith sampleSettings
  have same :=
    (loaders_agree_iff (hostWith sampleSettings) stands stands
      ending_settingsFileName parsed sound).mpr
    (.inl clear)
  have loose := loadNamed_of_plain stands ending_settingsFileName parsed sound
  rw [show (hostWith sampleSettings).password? = some "secret" from rfl, settings] at loose
  exact ⟨same.trans loose, loose⟩

/-- A file in which the format is empty. -/
def blankFormat : String := "[output]\nformat = ''\n"

set_option maxRecDepth 100000 in
/-- The strict way leaves the default format in place, and the loose way refuses the empty one. -/
theorem blank_format_divides :
    (loadStrictly (hostWith blankFormat) settingsFileName).toOption =
      some { password := "secret" } ∧
      (loadNamed (hostWith blankFormat) settingsFileName).toOption = none := by
  have evaluated : ((tomlTables? (Utf8.encode blankFormat)).map fun tables =>
      (plain tables,
        (((FileSettings.ofLookup (seek tables)).overlay {}).withPassword (some "secret")).accepted,
        (ofLookup (some "secret") (seek tables) {}).accepted)) =
        some (true, some { password := "secret" }, none) := by
    decide +kernel
  obtain ⟨tables, parsed, facts⟩ := Option.map_eq_some_iff.mp evaluated
  simp only [Prod.mk.injEq] at facts
  obtain ⟨sound, strict, loose⟩ := facts
  have stands := read_hostWith blankFormat
  constructor
  · rw [loadStrictly_of_plain stands parsed sound]
    exact strict
  · rw [loadNamed_of_plain stands ending_settingsFileName parsed sound]
    exact loose

end JarMetrics.Settings
