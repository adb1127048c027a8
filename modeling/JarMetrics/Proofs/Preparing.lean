import JarMetrics.Analysis.Run
import JarMetrics.Proofs.Balance
import JarMetrics.Proofs.Loaders

/-!
# From a request to its report

Settings that were loaded are in order, whichever way they were loaded (`exists_settings`).
`prepare_eq_ok_iff` says what has to hold for a request to be carried out. A request that is carried
out and not interrupted has the report of its archives, and one that is refused has none.
-/

namespace JarMetrics

/-! ## Outcomes -/

namespace Outcome

variable {α β : Type}

theorem exists_of_bind {first : Outcome α} {next : α → Outcome β} {b : β}
    (succeeded : (first >>= next) = .ok b) :
    ∃ a, first = .ok a ∧ next a = .ok b := by
  cases first with
  | error cause => cases succeeded
  | ok a => exact ⟨a, rfl, succeeded⟩

theorem exists_of_map {first : Outcome α} {f : α → β} {b : β} (succeeded : first.map f = .ok b) :
    ∃ a, first = .ok a ∧ f a = b := by
  cases first with
  | error cause => cases succeeded
  | ok a =>
    cases succeeded
    exact ⟨a, rfl, rfl⟩

theorem eq_ok_of_mapError {first : Outcome α} {note : Failure → Failure} {a : α}
    (succeeded : first.mapError note = .ok a) : first = .ok a := by
  cases first with
  | error cause => cases succeeded
  | ok a' =>
    cases succeeded
    rfl

end Outcome

/-! ## Settings -/

namespace Settings

variable {host : Host} {s : Settings}

theorem check_eq_ok_iff {given : Settings} :
    given.check = .ok s ↔ given.error? = none ∧ s = given := by
  unfold check
  cases given.error? with
  | some error => exact iff_of_false (fun h => nomatch h) (fun h => nomatch h.1)
  | none =>
    constructor
    · intro accepted
      cases accepted
      exact ⟨rfl, rfl⟩
    · rintro ⟨-, rfl⟩
      rfl

/-- Settings that pass the check are in order. -/
theorem error?_of_check {given : Settings} (accepted : given.check = .ok s) : s.error? = none := by
  obtain ⟨sound, rfl⟩ := check_eq_ok_iff.mp accepted
  exact sound

/-- Settings that are in order are within limits. -/
theorem limits_of_error? (sound : s.error? = none) :
    Format.isValid s.format = true ∧ SortKey.isValid s.sort = true ∧ 0 ≤ s.top ∧ 0 ≤ s.workers := by
  unfold error? at sound
  split at sound
  next => cases sound
  next format =>
  split at sound
  next => cases sound
  next sort =>
  split at sound
  next => cases sound
  next top =>
  split at sound
  next => cases sound
  next workers => exact ⟨by simpa using format, by simpa using sort, by omega, by omega⟩

theorem error?_of_loadNamed {path : String} (loaded : loadNamed host path = .ok s) :
    s.error? = none := by
  unfold loadNamed at loaded
  dsimp only at loaded
  split at loaded
  -- tables are read in the same way, whether a file was named or not
  all_goals
    obtain ⟨tables, -, read⟩ := Outcome.exists_of_bind loaded
    split at read
    · cases read
    · exact error?_of_check (Outcome.eq_ok_of_mapError read)

theorem error?_of_loadStrictly {path : String} (loaded : loadStrictly host path = .ok s) :
    s.error? = none := by
  unfold loadStrictly at loaded
  obtain ⟨content, -, loaded⟩ := Outcome.exists_of_bind loaded
  dsimp only at loaded
  split at loaded
  · cases loaded
  · exact error?_of_check (Outcome.eq_ok_of_mapError loaded)

theorem error?_withPassword (password : Option String) :
    (({} : Settings).withPassword password).error? = none := by
  rw [withPassword_eq]
  show ({} : Settings).error? = none
  decide +kernel

theorem error?_of_loadFor {target : String} (loaded : loadFor host target = .ok s) :
    s.error? = none := by
  unfold loadFor at loaded
  have nearest := Outcome.eq_ok_of_mapError loaded
  unfold loadNearest at nearest
  split at nearest
  · exact error?_of_loadStrictly nearest
  · cases nearest
    exact error?_withPassword host.password?

end Settings

namespace Request

/-- The request that settings make comes from settings that are in order. -/
theorem exists_settings {host : Host} {r base : Request} (loaded : r.settingsFor host = .ok base) :
    ∃ s : Settings, base = .ofSettings s ∧ s.error? = none := by
  unfold settingsFor at loaded
  split at loaded
  · have made : (Settings.loadFor host (r.paths.headD "")).map ofSettings = .ok base := loaded
    obtain ⟨s, found, rfl⟩ := Outcome.exists_of_map made
    exact ⟨s, rfl, Settings.error?_of_loadFor found⟩
  · have named := Outcome.eq_ok_of_mapError loaded
    unfold load at named
    obtain ⟨s, found, rfl⟩ := Outcome.exists_of_map (Outcome.eq_ok_of_mapError named)
    exact ⟨s, rfl, Settings.error?_of_loadNamed found⟩

/-! ## Laying a request over the settings -/

theorem off_or_layer_eq (host : Host) (layering : Layering) :
    layering = .off ∨ ∃ given, ∀ r : Request,
      r.layer host layering = (r.settingsFor host).map fun base => overlay given base r := by
  cases layering with
  | off => exact .inl rfl
  | filled => exact .inr ⟨none, fun _ => rfl⟩
  | given options => exact .inr ⟨some options, fun _ => rfl⟩

variable {host : Host} {layering : Layering} {r : Request}

theorem exists_base {merged : Request} (layered : r.layer host layering = .ok merged) :
    layering = .off ∧ merged = r ∨
      ∃ given base, r.settingsFor host = .ok base ∧ merged = overlay given base r := by
  rcases off_or_layer_eq host layering with rfl | ⟨given, laid⟩
  · cases layered
    exact .inl ⟨rfl, rfl⟩
  · rw [laid] at layered
    obtain ⟨base, loaded, rfl⟩ := Outcome.exists_of_map layered
    exact .inr ⟨given, base, loaded, rfl⟩

/-! ## Preparing a call -/

theorem refuse_eq_ok_iff {text : String} {error : Option RequestError} :
    refuse text error = .ok () ↔ error = none := by
  cases error with
  | none => exact iff_of_true rfl rfl
  | some error => exact iff_of_false (fun h => nomatch h) (fun h => nomatch h)

/-- What has to hold for a request to be carried out, and as what it is carried out. -/
theorem prepare_eq_ok_iff {final : Request} :
    r.prepare host layering = .ok final ↔
      r.error? = none ∧ ∃ merged files, r.layer host layering = .ok merged ∧
      merged.nameError? = none ∧
        host.tree.resolveJars merged.paths (merged.recursive.getD true) = .ok files ∧
        final = { merged with paths := files } := by
  constructor
  · intro prepared
    obtain ⟨_, legal, prepared⟩ := Outcome.exists_of_bind prepared
    obtain ⟨merged, layered, prepared⟩ := Outcome.exists_of_bind prepared
    obtain ⟨_, named, prepared⟩ := Outcome.exists_of_bind prepared
    obtain ⟨files, found, made⟩ := Outcome.exists_of_bind prepared
    cases made
    exact ⟨refuse_eq_ok_iff.mp legal, merged, files, Outcome.eq_ok_of_mapError layered,
      refuse_eq_ok_iff.mp named, found, rfl⟩
  · rintro ⟨legal, merged, files, layered, named, found, rfl⟩
    unfold prepare
    rw [refuse_eq_ok_iff.mpr legal, layered]
    show (refuse "invalid configuration values" merged.nameError? >>= _) = _
    rw [refuse_eq_ok_iff.mpr named]
    show (host.tree.resolveJars merged.paths (merged.recursive.getD true) >>= _) = _
    rw [found]
    rfl

theorem paths_ne_nil {final : Request} (prepared : r.prepare host layering = .ok final) :
    final.paths ≠ [] := by
  obtain ⟨-, merged, files, -, -, found, rfl⟩ := prepare_eq_ok_iff.mp prepared
  unfold FileTree.resolveJars at found
  obtain ⟨collected, -, checked⟩ := Outcome.exists_of_bind found
  split at checked
  · cases checked
  · next filled =>
    obtain ⟨_, -, kept⟩ := Outcome.exists_of_bind checked
    cases kept
    exact fun none => filled (List.isEmpty_iff.mpr none)

/-- A request that can be prepared has the report of its archives. -/
theorem analyzed_of_prepared {final : Request} (prepared : r.prepare host layering = .ok final) :
    (r.analyzed host layering none).outcome = .ok ⟨undisturbedReport host final, final⟩ := by
  unfold analyzed
  rw [prepared]
  show ((analyze host final none).outcome.map _).mapError _ = _
  rw [analyze_undisturbed]
  rfl

theorem analyzed_of_refused {f : Failure} (refused : r.prepare host layering = .error f)
    (interrupt : Option Interrupt) :
    (r.analyzed host layering interrupt).outcome = .error f := by
  unfold analyzed
  rw [refused]

theorem delivery_of_error {browser : String → Except String Unit} {interrupt : Option Interrupt}
    {f : Failure} (failed : (r.analyzed host layering interrupt).outcome = .error f) :
    (r.run host layering browser interrupt).delivery =
      { tree := host.tree, failure := some f } := by
  unfold run
  simp only [failed]

theorem delivery_of_ok {browser : String → Except String Unit} {interrupt : Option Interrupt}
    {p : Prepared} (succeeded : (r.analyzed host layering interrupt).outcome = .ok p) :
    (r.run host layering browser interrupt).delivery = p.deliver host browser := by
  unfold run
  simp only [succeeded]

end Request

/-- A file that has the ending of archives stands for itself. -/
theorem FileTree.resolveJars_of_file {tree : FileTree} {path : String} {content : List UInt8}
    {locked : Bool} (stands : tree.status true path = .ok (.file content locked))
    (named : hasJarEnding path = true) (recursive : Bool) :
    tree.resolveJars [path] recursive = .ok [path] := by
  have collected : tree.collectJars [path] recursive = .ok [path] := by
    have single : tree.jarsFor recursive path = .ok [path] := by
      unfold jarsFor
      simp only [stands]
      rfl
    unfold collectJars
    rw [List.mapM_cons, List.mapM_nil, single]
    rfl
  have checked : tree.checkJar path = .ok () := by
    unfold checkJar fileExists
    simp only [stands]
    show (if hasJarEnding path = true then _ else _) = _
    rw [if_pos named]
  unfold resolveJars
  rw [collected]
  show ((tree.checkJar path >>= fun _ => [].forM tree.checkJar) >>= fun _ => _) = _
  rw [checked]
  rfl

end JarMetrics
