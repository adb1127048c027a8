import JarMetrics.CommandLine.Run
import JarMetrics.Proofs.ClassLimit
import JarMetrics.Proofs.JarNames

/-!
# Requests within limits

`WithinLimits` is what an analysis may rely on. Limits are checked in three places: in the request
as it was made, in the settings under it, and, for names only, in the request that is carried out.
Each value of that one comes from one of the first two (`Overlaid`), so it is within limits
whichever options were given.

`calls_within_limits` says so of what reaches the analysis, and that nothing does if a request is
refused.
-/

namespace JarMetrics

/-- What an analysis may rely on. -/
structure WithinLimits (tree : FileTree) (r : Request) : Prop where
  top : 0 ≤ r.top
  workers : 0 ≤ r.workers
  format : r.format ∈ ["text", "json", "yaml", "csv", "html"]
  sort : r.sort = "" ∨ r.sort ∈ ["name", "depth", "complexity", "overrides", "fields"]
  somePath : r.paths ≠ []
  archives : ∀ path ∈ r.paths,
    EndsInJar path ∧ ∃ content executable, tree.status true path = .ok (.file content executable)
  output : r.writer = true ∨ r.outputPath ≠ ""

/-! ## What the checks let through -/

theorem Format.mem_of_isValid {name : String} (valid : Format.isValid name = true) :
    name ∈ ["text", "json", "yaml", "csv", "html"] := by
  obtain ⟨format, found⟩ := Option.isSome_iff_exists.mp valid
  obtain rfl : format.name = name := by simpa using List.find?_some found
  cases format <;> decide

theorem SortKey.mem_of_isValid {name : String} (valid : SortKey.isValid name = true) :
    name ∈ ["name", "depth", "complexity", "overrides", "fields"] := by
  obtain ⟨key, found⟩ := Option.isSome_iff_exists.mp valid
  obtain rfl : key.text = name := by simpa using List.find?_some found
  cases key <;> decide

namespace Request

theorem names_of_nameError? {r : Request} (sound : r.nameError? = none) :
    (r.format = "" ∨ Format.isValid r.format = true) ∧
    (r.sort = "" ∨ SortKey.isValid r.sort = true) := by
  unfold nameError? at sound
  split at sound
  next => cases sound
  next format =>
  split at sound
  next => cases sound
  next sort =>
    simp only [Bool.and_eq_true, Bool.not_eq_true', not_and, Bool.not_eq_false] at format sort
    constructor
    · by_cases empty : r.format = ""
      · exact .inl empty
      · exact .inr (format (by simpa using empty))
    · by_cases empty : r.sort = ""
      · exact .inl empty
      · exact .inr (sort (by simpa using empty))

theorem limits_of_error? {r : Request} (sound : r.error? = none) : 0 ≤ r.top ∧ 0 ≤ r.workers := by
  unfold error? at sound
  split at sound
  next => cases sound
  split at sound
  next => cases sound
  split at sound
  next => cases sound
  next top =>
  split at sound
  next => cases sound
  next workers => omega

/-! ## Laying a request over settings -/

/-- Where the values of a request come from that was laid over another one. A format that is left
open counts only if it is known which options were given. -/
structure Overlaid (given : Option Given) (base r merged : Request) : Prop where
  top : merged.top = base.top ∨ merged.top = r.top
  workers : merged.workers = base.workers ∨ merged.workers = r.workers
  format : merged.format = base.format ∨ merged.format = r.format ∧ (given = none → r.format ≠ "")
  writer : merged.writer = r.writer

theorem pick_cases {α : Type} (given : Given) (name : String) (old new : α) :
    given.pick name old new = old ∨ given.pick name old new = new := by
  unfold Given.pick
  split
  · exact .inr rfl
  · exact .inl rfl

theorem overlaid (given : Option Given) (base r : Request) :
    Overlaid given base r (overlay given base r) := by
  cases given with
  | some given =>
    refine ⟨pick_cases given "top" .., pick_cases given "workers" .., ?_, rfl⟩
    show (if _ then r.format else base.format) = _ ∨ (if _ then r.format else base.format) = _ ∧ _
    split
    · exact .inr ⟨rfl, by simp⟩
    · exact .inl rfl
  | none =>
    refine ⟨?_, ?_, ?_, rfl⟩
    · show (if _ then r.top else base.top) = _ ∨ (if _ then r.top else base.top) = _
      split
      · exact .inr rfl
      · exact .inl rfl
    · show (if _ then r.workers else base.workers) = _ ∨ (if _ then r.workers else base.workers) = _
      split
      · exact .inr rfl
      · exact .inl rfl
    · show FileSettings.orElse r.format base.format = _ ∨
        FileSettings.orElse r.format base.format = _ ∧ _
      unfold FileSettings.orElse
      split
      next => exact .inl rfl
      next filled => exact .inr ⟨rfl, fun _ => by simpa using filled⟩

/-- The numbers of a request that was laid over the settings are within limits, and its format is
not left open: because the request names one, or because it counts only if it does. -/
theorem limits_of_layer {host : Host} {layering : Layering} {r merged : Request}
    (checked : r.error? = none) (layered : r.layer host layering = .ok merged)
    (settled : r.format ≠ "" ∨ layering = .filled) :
    0 ≤ merged.top ∧ 0 ≤ merged.workers ∧ merged.format ≠ "" ∧ merged.writer = r.writer := by
  have limits := limits_of_error? checked
  have laidOver (given : Option Given) (settled : r.format ≠ "" ∨ given = none)
      (laid : (r.settingsFor host).map (fun base => overlay given base r) = .ok merged) :
      0 ≤ merged.top ∧ 0 ≤ merged.workers ∧ merged.format ≠ "" ∧ merged.writer = r.writer := by
    obtain ⟨base, loaded, rfl⟩ := Outcome.exists_of_map laid
    obtain ⟨s, rfl, sound⟩ := exists_settings loaded
    obtain ⟨format, -, top, workers⟩ := Settings.limits_of_error? sound
    have origin := overlaid given (.ofSettings s) r
    refine ⟨?_, ?_, ?_, origin.writer⟩
    · rcases origin.top with same | same <;> rw [same]
      · exact top
      · exact limits.1
    · rcases origin.workers with same | same <;> rw [same]
      · exact workers
      · exact limits.2
    · -- no format is spelled as the empty text, so the settings name one
      rcases origin.format with same | ⟨same, filled⟩ <;> rw [same]
      · rintro empty
        rw [show (ofSettings s).format = s.format from rfl] at empty
        rw [empty] at format
        exact absurd format (by decide)
      · exact settled.elim id filled
  cases layering with
  | off =>
    cases layered
    exact ⟨limits.1, limits.2, settled.resolve_right (by simp), rfl⟩
  | filled => exact laidOver none (.inr rfl) layered
  | given options => exact laidOver (some options) (.inl (settled.resolve_right (by simp))) layered

end Request

/-! ## Archives -/

namespace FileTree

theorem file_of_checkJar {tree : FileTree} {path : String} (checked : tree.checkJar path = .ok ()) :
    EndsInJar path ∧
    ∃ content executable, tree.status true path = .ok (.file content executable) := by
  unfold checkJar at checked
  split at checked
  next => cases checked
  next => cases checked
  next there =>
  split at checked
  next ending =>
    refine ⟨(hasJarEnding_iff path).mp ending, ?_⟩
    unfold fileExists at there
    split at there
    next node status =>
      cases node with
      | file content executable => exact ⟨content, executable, status⟩
      | directory => simp [FileNode.isFile] at there
      | link => simp [FileNode.isFile] at there
    next => simp at there
    next => simp at there
  next => cases checked

theorem checkJar_of_forM {tree : FileTree} {files : List String}
    (checked : files.forM tree.checkJar = .ok ()) :
    ∀ path ∈ files, tree.checkJar path = .ok () := by
  induction files with
  | nil => simp
  | cons file files ih =>
    have checked : (tree.checkJar file >>= fun _ => files.forM tree.checkJar) = .ok () := checked
    obtain ⟨_, first, rest⟩ := Outcome.exists_of_bind checked
    exact List.forall_mem_cons.mpr ⟨first, ih rest⟩

theorem archives_of_resolveJars {tree : FileTree} {paths files : List String} {recursive : Bool}
    (found : tree.resolveJars paths recursive = .ok files) : ∀ path ∈ files,
      EndsInJar path ∧
      ∃ content executable, tree.status true path = .ok (.file content executable) := by
  unfold resolveJars at found
  obtain ⟨collected, -, checked⟩ := Outcome.exists_of_bind found
  split at checked
  next => cases checked
  next =>
    obtain ⟨_, each, same⟩ := Outcome.exists_of_bind checked
    cases same
    intro path member
    exact file_of_checkJar (checkJar_of_forM each path member)

end FileTree

/-- What is carried out is within limits, for a request with an output that names a format or is
laid over the settings where it leaves a choice open. -/
theorem within_limits_of_prepare {host : Host} {layering : Layering} {r final : Request}
    (prepared : r.prepare host layering = .ok final) (written : r.writer = true)
    (settled : r.format ≠ "" ∨ layering = .filled) : WithinLimits host.tree final := by
  have somePath := Request.paths_ne_nil prepared
  obtain ⟨checked, merged, files, layered, named, found, rfl⟩ :=
    Request.prepare_eq_ok_iff.mp prepared
  obtain ⟨top, workers, format, writer⟩ := Request.limits_of_layer checked layered settled
  obtain ⟨formatValid, sortValid⟩ := Request.names_of_nameError? named
  exact {
    top := top
    workers := workers
    format := Format.mem_of_isValid (formatValid.resolve_left format)
    sort := sortValid.imp_right SortKey.mem_of_isValid
    somePath := somePath
    archives := FileTree.archives_of_resolveJars found
    output := .inl (writer.trans written) }

/-! ## What reaches the analysis -/

/-- Requests as the command and the tools make them, with what they are laid over. Any options may
have been given to the command, and any arguments to the tools. -/
inductive Asked (host : Host) : Request → Layering → Prop
  | command {a : CommandLine.Arguments} {r : Request}
      (made : CommandLine.analyzeRequest host a = .ok r)
      (options : Given) : Asked host r (.given options)
  | figures (settingsPath path : String) (arguments : Json) :
      Asked host (Tools.figuresRequest settingsPath path arguments) .filled
  | classes (settingsPath path sort : String) (top : Int) :
      Asked host (Tools.listRequest settingsPath path sort top) .filled

theorem Asked.settled {host : Host} {r : Request} {layering : Layering}
    (asked : Asked host r layering) :
    r.writer = true ∧ (r.format ≠ "" ∨ layering = .filled) := by
  cases asked with
  | command made options =>
    obtain ⟨format, -, made⟩ := Outcome.exists_of_bind made
    cases made
    have named : format.name ≠ "" := by cases format <;> decide
    exact ⟨rfl, .inl named⟩
  | figures => exact ⟨rfl, .inr rfl⟩
  | classes => exact ⟨rfl, .inr rfl⟩

namespace Request

/-- Prepare a request and have its archives analyzed by a service. -/
def analyzedBy {m : Type → Type} [Monad m] (host : Host) (layering : Layering)
    (service : Request → m Analysis) (r : Request) : m PreparedAnalysis :=
  match r.prepare host layering with
  | .error f => pure ⟨.error f, []⟩
  | .ok final => do
      let analysis ← service final
      return ⟨(analysis.outcome.map (⟨·, final⟩)).mapError
        (.codedBy .analysis "jar analysis failed"), analysis.log⟩

theorem analyzed_eq_analyzedBy (host : Host) (layering : Layering) (interrupt : Option Interrupt)
    (r : Request) :
    r.analyzed host layering interrupt =
      (r.analyzedBy host layering fun final =>
        pure (analyze host final interrupt) : Id PreparedAnalysis).run := by
  unfold analyzed analyzedBy
  cases r.prepare host layering <;> rfl

/-- Carry out a request and note each request with which the analysis is called. -/
def recorded (host : Host) (layering : Layering) (interrupt : Option Interrupt) (r : Request) :
    PreparedAnalysis × List Request :=
  (r.analyzedBy host layering fun final => do
    modify (· ++ [final])
    return analyze host final interrupt : StateM (List Request) PreparedAnalysis).run []

end Request

/-- What the analysis is called with is within limits. It is called once if a request can be
prepared, with what came of that, and never if not. -/
theorem calls_within_limits {host : Host} {r : Request} {layering : Layering}
    (asked : Asked host r layering) (interrupt : Option Interrupt) :
    (∀ final, r.prepare host layering = .ok final →
      WithinLimits host.tree final ∧
        r.recorded host layering interrupt = (r.analyzed host layering interrupt, [final])) ∧
    ∀ f, r.prepare host layering = .error f →
      r.recorded host layering interrupt = (r.analyzed host layering interrupt, []) ∧
        (r.analyzed host layering interrupt).outcome = .error f := by
  obtain ⟨written, settled⟩ := asked.settled
  constructor
  · intro final prepared
    refine ⟨within_limits_of_prepare prepared written settled, ?_⟩
    rw [Request.analyzed_eq_analyzedBy]
    unfold Request.recorded Request.analyzedBy
    rw [prepared]
    rfl
  · intro f refused
    refine ⟨?_, Request.analyzed_of_refused refused interrupt⟩
    rw [Request.analyzed_eq_analyzedBy]
    unfold Request.recorded Request.analyzedBy
    rw [refused]
    rfl

/-- A call for all classes beside settings that limit lists to one. -/
theorem calls_within_limits_limited : ∃ final,
    Asked Tools.limitedHost (Tools.listRequest settingsFileName "x.jar" "complexity" 0) .filled ∧
      (Tools.listRequest settingsFileName "x.jar" "complexity" 0).prepare
        Tools.limitedHost .filled = .ok final ∧
      final.top = 1 ∧ WithinLimits Tools.limitedHost.tree final := by
  have sound : (Tools.listRequest settingsFileName "x.jar" "complexity" 0).error? = none := by
    rw [Tools.error?_listRequest (by decide), if_neg (by decide)]
  have prepared := Request.prepare_filled sound Tools.settings_limitedHost
    (Request.nameError?_overlay (by decide +kernel) rfl (by decide)) Tools.resolveJars_limitedHost
  have asked :
      Asked Tools.limitedHost (Tools.listRequest settingsFileName "x.jar" "complexity" 0) .filled :=
    .classes ..
  exact ⟨_, asked, prepared, rfl, ((calls_within_limits asked none).1 _ prepared).1⟩

end JarMetrics
