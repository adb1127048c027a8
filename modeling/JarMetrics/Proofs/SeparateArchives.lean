import JarMetrics.Proofs.Exporting
import JarMetrics.Proofs.Interrupts

/-!
# When the archives of an export keep apart

The key of a class is made of the name of its archive, which is the last part of a path, and of its
own name. So two archives can have keys in common: where the name of one, with the mark behind it,
is a front of that of the other. `exports_kept_apart`: in all other cases no class of one archive
takes the place of a class of another, and nothing that was sent is removed again.
`classKey_collides` is the converse, and `same_named_archives_collide` shows two archives of one
name in different directories, of which the second removes the classes of the first and takes their
places.

The names of the archives of a report are those of its paths (`fileNames_sublist`); what has been
sent before a removal comes from archives before it (`jar_ne_of_clear`).
-/

namespace JarMetrics

namespace Graph

/-! ## Keys -/

/-- What the keys of the classes of an archive start with. -/
def keyFront (jar : String) : List Char := jar.toList ++ ['!']

/-- Neither archive has a name that lets its keys be mixed up with those of the other. -/
def Unmixed (jar jar' : String) : Prop :=
  ¬ keyFront jar <+: keyFront jar' ∧ ¬ keyFront jar' <+: keyFront jar

theorem toList_classKey (jar name : String) :
    (classKey jar name).toList = keyFront jar ++ name.toList := by
  simp [classKey, keyFront]

/-- Archives that are not mixed up have no key in common. -/
theorem Unmixed.classKey_ne {jar jar' : String} (unmixed : Unmixed jar jar') (name name' : String) :
    classKey jar name ≠ classKey jar' name' := by
  intro same
  have lists : keyFront jar ++ name.toList = keyFront jar' ++ name'.toList := by
    rw [← toList_classKey, ← toList_classKey, same]
  -- both fronts are fronts of one key, so one is a front of the other
  have first : keyFront jar <+: keyFront jar' ++ name'.toList := lists ▸ List.prefix_append _ _
  rcases List.prefix_or_prefix_of_prefix first (List.prefix_append _ _) with front | front
  · exact unmixed.1 front
  · exact unmixed.2 front

/-- Where one front is a front of the other, there are classes whose keys are the same. -/
theorem classKey_collides {jar jar' : String} (front : keyFront jar <+: keyFront jar') :
    ∃ name, ∀ name', classKey jar (name ++ name') = classKey jar' name' := by
  obtain ⟨rest, cut⟩ := front
  refine ⟨String.ofList rest, fun name' => ?_⟩
  apply String.toList_injective
  rw [toList_classKey, toList_classKey, ← cut]
  simp

theorem Unmixed.ne {jar jar' : String} (unmixed : Unmixed jar jar') : jar ≠ jar' := by
  rintro rfl
  exact unmixed.1 (List.prefix_refl _)

/-! ## Removals -/

/-- The statements for one archive: possibly a removal, and then others, which carry the classes of
the archive. -/
structure About (a : ArchiveReport) (part : List Statement) : Prop where
  opens : ∃ opening body, part = opening ++ body ∧
    (opening = [] ∨ opening = [Statement.clear a.fileName]) ∧
    ∀ jar, Statement.clear jar ∉ body
  sent : sentClasses part = classRows a

/-- The statements behind the classes are about edges: they carry no classes and remove nothing. -/
theorem edge_steps (size : Int64) (a : ArchiveReport) :
    sentClasses (((rowSteps size a).tail.takeWhile Option.isSome).flatMap (·.getD [])) = [] ∧
      ∀ jar, Statement.clear jar ∉
        ((rowSteps size a).tail.takeWhile Option.isSome).flatMap (·.getD []) := by
  have each : ∀ s ∈ ((rowSteps size a).tail.takeWhile Option.isSome).flatMap (·.getD []),
      (∃ batch, s = .extensions batch) ∨ ∃ batch, s = .implementations batch := by
    intro s member
    obtain ⟨step, kept, carried⟩ := List.mem_flatMap.mp member
    have listed := (List.takeWhile_sublist _).subset kept
    simp only [rowSteps, List.tail_cons, List.mem_cons, List.not_mem_nil, or_false] at listed
    cases step with
    | none => cases carried
    | some statements =>
      rcases listed with made | made
      · obtain ⟨batches, -, rfl⟩ := Option.map_eq_some_iff.mp made.symm
        obtain ⟨batch, -, rfl⟩ := List.mem_map.mp carried
        exact .inl ⟨batch, rfl⟩
      · obtain ⟨batches, -, rfl⟩ := Option.map_eq_some_iff.mp made.symm
        obtain ⟨batch, -, rfl⟩ := List.mem_map.mp carried
        exact .inr ⟨batch, rfl⟩
  constructor
  · refine List.flatMap_eq_nil_iff.mpr fun s member => ?_
    rcases each s member with ⟨_, rfl⟩ | ⟨_, rfl⟩ <;> rfl
  · intro jar member
    rcases each _ member with ⟨_, same⟩ | ⟨_, same⟩ <;> cases same

/-- The part for an archive goes on as statements for it, and it is whole unless it breaks. -/
theorem exists_about (size : Int64) (clear : Bool) (a : ArchiveReport) :
    ∃ part, About a part ∧ (archiveStage size clear a).statements <+: part ∧
      ((archiveStage size clear a).breaks = false →
        (archiveStage size clear a).statements = part) := by
  have removal : (if clear then [Statement.clear a.fileName] else []) = [] ∨
      (if clear then [Statement.clear a.fileName] else []) = [Statement.clear a.fileName] := by
    cases clear <;> simp
  have opening : sentClasses (if clear then [Statement.clear a.fileName] else []) = [] := by
    cases clear <;> rfl
  cases cut : chunkRows (classRows a) size with
  | none =>
    -- nothing but the opening is issued, and the classes may follow in one batch
    have statements : (archiveStage size clear a).statements =
        (if clear then [Statement.clear a.fileName] else []) ++ [.jar a] := by
      show _ ++ [Statement.jar a] ++ List.flatMap _ _ = _
      rw [rowSteps, cut]
      exact List.append_nil _
    refine ⟨(archiveStage size clear a).statements ++ [.classes (classRows a)], ⟨⟨_, _,
      by rw [statements, List.append_assoc], removal, by simp⟩, ?_⟩, List.prefix_append _ _, ?_⟩
    · rw [statements, sentClasses, List.flatMap_append, List.flatMap_append]
      exact (congrArg (· ++ _ ++ _) opening).trans (List.append_nil _)
    · intro whole
      unfold archiveStage rowSteps at whole
      rw [cut] at whole
      cases whole
  | some classes =>
    obtain ⟨silent, others⟩ := edge_steps size a
    have statements : (archiveStage size clear a).statements =
        (if clear then [Statement.clear a.fileName] else []) ++ ([.jar a] ++
          (classes.map .classes ++
            ((rowSteps size a).tail.takeWhile Option.isSome).flatMap (·.getD []))) := by
      show _ ++ [Statement.jar a] ++ List.flatMap _ _ = _
      rw [List.append_assoc, rowSteps, cut]
      rfl
    refine ⟨_, ⟨⟨_, _, statements, removal, ?_⟩, ?_⟩, List.prefix_refl _, fun _ => rfl⟩
    · intro jar member
      simp only [List.mem_append, List.mem_singleton, List.mem_map] at member
      rcases member with same | ⟨_, _, same⟩ | carried
      · cases same
      · cases same
      · exact others jar carried
    · rw [statements, ← flatten_of_chunkRows cut]
      simp only [sentClasses, List.flatMap_append] at opening silent ⊢
      rw [opening, silent]
      simp [Statement.classBatch, List.flatMap_map]

/-- The classes that a part carries are told to be of its archive. -/
theorem About.jar_eq {a : ArchiveReport} {part : List Statement} (about : About a part) :
    ∀ row ∈ sentClasses part, row.jar = a.fileName := by
  intro row sent
  rw [about.sent] at sent
  obtain ⟨c, -, rfl⟩ := List.mem_map.mp sent
  rfl

/-- A removal within a part is that of its archive, and it comes before all else. -/
theorem About.clear_first {a : ArchiveReport} {part before after : List Statement} {jar : String}
    (about : About a part) (cut : part = before ++ .clear jar :: after) :
    before = [] ∧ jar = a.fileName := by
  obtain ⟨opening, body, rfl, removal, others⟩ := about.opens
  rcases removal with rfl | rfl
  · exact absurd (by rw [← List.nil_append body, cut]; simp) (others jar)
  · cases before with
    | nil =>
      obtain ⟨removed, -⟩ := List.cons.inj cut
      exact ⟨rfl, (Statement.clear.inj removed).symm⟩
    | cons s before =>
      have rest : body = before ++ .clear jar :: after := (List.cons.inj cut).2
      exact absurd (by rw [rest]; simp) (others jar)

/-- What was sent before a removal belongs to other archives. -/
theorem jar_ne_of_clear {archives : List ArchiveReport} {parts : List (List Statement)}
    (about : List.Forall₂ About archives parts)
    (distinct : archives.Pairwise fun a b => a.fileName ≠ b.fileName)
    {before after : List Statement} {jar : String}
    (cut : parts.flatten = before ++ .clear jar :: after) :
    (∃ a ∈ archives, a.fileName = jar) ∧ ∀ row ∈ sentClasses before, row.jar ≠ jar := by
  induction about generalizing before with
  | nil => simp at cut
  | @cons a part archives parts first rest ih =>
    obtain ⟨apart, distinct⟩ := List.pairwise_cons.mp distinct
    rw [List.flatten_cons] at cut
    -- the removal is in a later part, or it is the one that opens this part
    have later : ∀ mid, before = part ++ mid → parts.flatten = mid ++ .clear jar :: after →
        (∃ b ∈ a :: archives, b.fileName = jar) ∧ ∀ row ∈ sentClasses before, row.jar ≠ jar := by
      rintro mid rfl cut
      obtain ⟨⟨b, member, named⟩, others⟩ := ih distinct cut
      refine ⟨⟨b, List.mem_cons_of_mem a member, named⟩, fun row sent => ?_⟩
      rw [sentClasses, List.flatMap_append, List.mem_append] at sent
      rcases sent with here | behind
      · rw [first.jar_eq row here, ← named]
        exact apart b member
      · exact others row behind
    rcases List.append_eq_append_iff.mp cut with ⟨mid, split, rest⟩ | ⟨mid, split, rest⟩
    · exact later mid split rest
    · cases mid with
      | nil => exact later [] (by simpa using split.symm) (by simpa using rest.symm)
      | cons s mid =>
        obtain ⟨rfl, -⟩ := List.cons.inj rest
        obtain ⟨rfl, named⟩ := first.clear_first split
        exact ⟨⟨a, List.mem_cons_self, named.symm⟩, fun row sent => absurd sent List.not_mem_nil⟩

/-- Whatever the store answers and whatever the size, what is issued is a front of a script that
takes the archives one by one. -/
theorem exists_parts (store : Store) (size : Int64) (clear : Bool) (report : Report) :
    ∃ parts, List.Forall₂ About report.archives parts ∧
      (exportReport store size clear (some report)).statements <+: script parts := by
  choose part about continued using exists_about (effectiveBatchSize size) clear
  refine ⟨report.archives.map part, ?_, ?_⟩
  · rw [List.forall₂_map_right_iff, List.forall₂_same]
    exact fun a _ => about a
  · refine issueStages_front store _ 0 _ (indexStage.statements :: report.archives.map part) ?_
    refine .cons ⟨List.prefix_refl _, fun _ => rfl⟩ ?_
    rw [List.forall₂_map_left_iff, List.forall₂_map_right_iff, List.forall₂_same]
    exact fun a _ => continued a

/-- A script removes only within its archives. -/
theorem flatten_of_script {parts : List (List Statement)} {before after : List Statement}
    {jar : String} (cut : script parts = before ++ .clear jar :: after) :
    ∃ mid, before = .jarIndex :: .classIndex :: mid ∧
      parts.flatten = mid ++ .clear jar :: after := by
  cases before with
  | nil => exact nomatch (List.cons.inj cut).1
  | cons s before =>
    obtain ⟨first, cut⟩ := List.cons.inj cut
    cases before with
    | nil => exact nomatch (List.cons.inj cut).1
    | cons s' mid =>
      obtain ⟨second, cut⟩ := List.cons.inj cut
      exact ⟨mid, by rw [first, second], cut⟩

theorem sentClasses_script {archives : List ArchiveReport} {parts : List (List Statement)}
    (about : List.Forall₂ About archives parts) :
    sentClasses (script parts) = archives.flatMap classRows := by
  show sentClasses parts.flatten = _
  induction about with
  | nil => rfl
  | cons first _ ih =>
    rw [List.flatten_cons, sentClasses, List.flatMap_append, List.flatMap_cons]
    exact congrArg₂ (· ++ ·) first.sent ih

/-! ## Namesakes -/

theorem exists_clear {size : Nat} {archives : List ArchiveReport} {parts : List (List Statement)}
    (puts : List.Forall₂ (Puts size true) archives parts) {b : ArchiveReport}
    (member : b ∈ archives) :
    ∃ before after, parts.flatten = before ++ .clear b.fileName :: after := by
  induction puts with
  | nil => cases member
  | @cons a part archives parts first _ ih =>
    rcases List.mem_cons.mp member with rfl | later
    · obtain ⟨_, _, _⟩ := first
      exact ⟨[], _, rfl⟩
    · obtain ⟨before, after, cut⟩ := ih later
      exact ⟨part ++ before, after, by rw [List.flatten_cons, cut, List.append_assoc]⟩

/-- The removal for an archive comes behind all classes of an archive before it. -/
theorem exists_clear_behind {size : Nat} {archives : List ArchiveReport}
    {parts : List (List Statement)} (puts : List.Forall₂ (Puts size true) archives parts)
    {a b : ArchiveReport} (both : [a, b].Sublist archives) :
    ∃ before after, parts.flatten = before ++ .clear b.fileName :: after ∧
      ∀ row ∈ classRows a, row ∈ sentClasses before := by
  induction puts with
  | nil => cases both
  | @cons c part archives parts first rest ih =>
    cases both with
    | cons _ both =>
      obtain ⟨before, after, cut, sent⟩ := ih both
      refine ⟨part ++ before, after,
        by rw [List.flatten_cons, cut, List.append_assoc], fun row own => ?_⟩
      exact List.mem_flatMap.mpr <| (List.mem_flatMap.mp (sent row own)).imp fun s carried =>
        ⟨List.mem_append_right part carried.1, carried.2⟩
    | cons_cons _ later =>
      obtain ⟨before, after, cut⟩ := exists_clear rest (List.singleton_sublist.mp later)
      refine ⟨part ++ before, after,
        by rw [List.flatten_cons, cut, List.append_assoc], fun row own => ?_⟩
      have sent : row ∈ sentClasses part := by rwa [first.sent.1]
      exact List.mem_flatMap.mpr <| (List.mem_flatMap.mp sent).imp fun s carried =>
        ⟨List.mem_append_left before carried.1, carried.2⟩

/-- Of two archives with one name, the second removes the classes of the first. -/
theorem namesake_removes (report : Report) {a b : ArchiveReport}
    (both : [a, b].Sublist report.archives) (named : a.fileName = b.fileName) (size : Int64)
    (small : size.toInt < quarter) (countable : ∀ c ∈ report.archives, Countable c) :
    ∃ before after, (exportReport (fun _ _ => none) size true (some report)).statements =
        before ++ .clear b.fileName :: after ∧
      ∀ row ∈ classRows a, row ∈ sentClasses before ∧ row.jar = b.fileName := by
  obtain ⟨whole, puts⟩ := archiveParts_put size small true countable
  obtain ⟨before, after, cut, sent⟩ := exists_clear_behind puts both
  have takes : Store.Takes (fun _ _ => none) 0 (script (archiveParts size true report.archives)) :=
    fun _ _ _ => rfl
  refine ⟨.jarIndex :: .classIndex :: before, after, ?_, fun row own => ⟨sent row own, ?_⟩⟩
  · have issued := (issueStages_eq (fun _ _ => none) (.of report) 0 whole).1
    rw [show (stages size true report).flatMap Stage.statements = _ from
      flatMap_stages size true report.archives, issue_of_takes takes, script, cut] at issued
    exact issued
  · obtain ⟨c, -, rfl⟩ := List.mem_map.mp own
    exact named

end Graph

/-! ## Names of archives -/

theorem ArchiveReport.fileName_ofContents (path : String) (request : Request)
    (contents : ArchiveContents) :
    (ofContents path request contents).fileName = Path.base path := by
  unfold ofContents
  dsimp only
  split <;> rfl

/-- The report of an archive has the name of its path. -/
theorem fileName_of_analyzed {tree : FileTree} {request : Request} {limit : Nat}
    {schedule : Nat → List Action} {path : String} {report : ArchiveReport}
    (analyzed : (analyzeArchiveBy tree request limit schedule path).outcome = .ok report) :
    report.fileName = Path.base path := by
  cases opened : openedArchive? tree request path with
  | none =>
    obtain ⟨f, -, failed⟩ := analyzeArchiveBy_unopened opened
    rw [failed] at analyzed
    cases analyzed
  | some pair =>
    obtain ⟨archive, chosen⟩ := pair
    rw [analyzeArchiveBy_opened opened] at analyzed
    cases read : (Reading.run limit archive chosen (schedule chosen.length)).outcome with
    | error cause =>
      rw [read] at analyzed
      cases analyzed
    | ok contents =>
      rw [read] at analyzed
      cases analyzed
      exact ArchiveReport.fileName_ofContents path request contents

/-- Behind the result of a path are those of the other paths. -/
theorem exists_of_behind {log : List Log.Line} {result : PathResult} {others : PathsAnalysis}
    {results : List PathResult} (analyzed : (others.behind log result).outcome = .ok results) :
    ∃ later, others.outcome = .ok later ∧ results = result :: later := by
  unfold PathsAnalysis.behind at analyzed
  cases read : others.outcome with
  | error cause =>
    rw [read] at analyzed
    cases analyzed
  | ok later =>
    rw [read] at analyzed
    cases analyzed
    exact ⟨later, rfl, rfl⟩

/-- The archives of a report have the names of their paths, in order. -/
theorem fileNames_sublist {tree : FileTree} {request : Request} {limit : Nat}
    {courses : Nat → Course} {context : Option Interrupt} {position : Nat} {paths : List String}
    {results : List PathResult}
    (analyzed : (analyzePathsBy tree request limit courses context position paths).outcome =
      .ok results) :
    ((PathResult.reports results).map (·.fileName)).Sublist (paths.map Path.base) := by
  induction paths generalizing context position results with
  | nil =>
    cases analyzed
    exact List.Sublist.refl _
  | cons path rest ih =>
    unfold analyzePathsBy at analyzed
    cases before : context.or (courses position).before with
    | some reason =>
      rw [before] at analyzed
      cases analyzed
    | none =>
      simp only [before] at analyzed
      cases first :
        (analyzeArchiveBy tree request limit (courses position).schedule path).outcome with
      | ok report =>
        simp only [first] at analyzed
        obtain ⟨others, read, rfl⟩ := exists_of_behind analyzed
        rw [show PathResult.reports (.ok report :: others) =
          report :: PathResult.reports others from rfl,
          List.map_cons, List.map_cons, fileName_of_analyzed first]
        exact (ih read).cons_cons _
      | error cause =>
        simp only [first] at analyzed
        split at analyzed
        · cases analyzed
        · obtain ⟨others, read, rfl⟩ := exists_of_behind analyzed
          exact (ih read).cons _

/-! ## Exports of what was analyzed -/

/-- An export of analyzed archives sends the classes of one archive after the other. Where the names
of no two paths can be mixed up, no class of one archive has the key of a class of another, and
nothing is removed that was sent before; whatever interleaves the reading, whatever the store
answers, and whether old classes are removed or not. -/
theorem exports_kept_apart (host : Host) (request : Request) (limit : Nat) (courses : Nat → Course)
    (context : Option Interrupt) {report : Report}
    (analyzed : (analyzeBy host request limit courses context).outcome = .ok report)
    (unmixed : request.paths.Pairwise fun p q => Graph.Unmixed (Path.base p) (Path.base q))
    (store : Graph.Store) (size : Int64) (clear : Bool) :
    let issued := (Graph.exportReport store size clear (some report)).statements
    Graph.sentClasses issued <+: report.archives.flatMap Graph.classRows ∧
      (report.archives.Pairwise fun a b =>
        ∀ row ∈ Graph.classRows a, ∀ row' ∈ Graph.classRows b, row.key ≠ row'.key) ∧
      ∀ before jar after, issued = before ++ .clear jar :: after →
        ∀ row ∈ Graph.sentClasses before, row.jar ≠ jar := by
  intro issued
  have apart : report.archives.Pairwise fun a b => Graph.Unmixed a.fileName b.fileName := by
    unfold analyzeBy at analyzed
    cases read :
      (analyzePathsBy host.tree request limit courses context 0 request.paths).outcome with
    | error cause =>
      simp only [read] at analyzed
      cases analyzed
    | ok results =>
      simp only [read] at analyzed
      cases analyzed
      have bases : (request.paths.map Path.base).Pairwise Graph.Unmixed :=
        List.pairwise_map.mpr unmixed
      exact List.pairwise_map.mp (bases.sublist (fileNames_sublist read))
  refine ⟨?_, apart.imp ?_, ?_⟩
  · obtain ⟨parts, about, rest, whole⟩ := Graph.exists_parts store size clear report
    rw [← Graph.sentClasses_script about, ← whole]
    exact ⟨Graph.sentClasses rest, List.flatMap_append.symm⟩
  · intro a b unmixed row own row' own'
    obtain ⟨c, -, rfl⟩ := List.mem_map.mp own
    obtain ⟨c', -, rfl⟩ := List.mem_map.mp own'
    exact unmixed.classKey_ne c.name c'.name
  · intro before jar after cut
    obtain ⟨parts, about, rest, whole⟩ := Graph.exists_parts store size clear report
    have removed : Graph.script parts = before ++ .clear jar :: (after ++ rest) := by
      rw [← whole, show (Graph.exportReport store size clear (some report)).statements = _ from cut]
      simp
    obtain ⟨mid, rfl, inner⟩ := Graph.flatten_of_script removed
    exact (Graph.jar_ne_of_clear about (apart.imp Graph.Unmixed.ne) inner).2

/-- An archive with the single class `A`. -/
def oneClass : List UInt8 :=
  [0x50, 0x4b, 0x03, 0x04, 0x14, 0x00, 0x00, 0x00, 0x00, 0x00, 0x00, 0x00, 0x21, 0x00, 0x00,
    0x00, 0x00, 0x00, 0x26, 0x00, 0x00, 0x00, 0x26, 0x00, 0x00, 0x00, 0x07, 0x00, 0x00, 0x00, 0x41,
    0x2e, 0x63, 0x6c, 0x61, 0x73, 0x73, 0xca, 0xfe, 0xba, 0xbe, 0x00, 0x00, 0x00, 0x34, 0x00, 0x05,
    0x01, 0x00, 0x01, 0x41, 0x07, 0x00, 0x01, 0x01, 0x00, 0x01, 0x42, 0x07, 0x00, 0x03, 0x00, 0x21,
    0x00, 0x02, 0x00, 0x04, 0x00, 0x00, 0x00, 0x00, 0x00, 0x00, 0x00, 0x00, 0x50, 0x4b, 0x01, 0x02,
    0x14, 0x00, 0x14, 0x00, 0x00, 0x00, 0x00, 0x00, 0x00, 0x00, 0x21, 0x00, 0x00, 0x00, 0x00, 0x00,
    0x26, 0x00, 0x00, 0x00, 0x26, 0x00, 0x00, 0x00, 0x07, 0x00, 0x00, 0x00, 0x00, 0x00, 0x00,
    0x00, 0x00, 0x00, 0x00, 0x00, 0x00, 0x00, 0x00, 0x00, 0x00, 0x00, 0x41, 0x2e, 0x63, 0x6c, 0x61,
    0x73, 0x73, 0x50, 0x4b, 0x05, 0x06, 0x00, 0x00, 0x00, 0x00, 0x01, 0x00, 0x01, 0x00, 0x35, 0x00,
    0x00, 0x00, 0x4b, 0x00, 0x00, 0x00, 0x00, 0x00]

/-- Two archives of one name in different directories, and one of another name. -/
def shelf : Host :=
  { tree := ⟨.directory [("a", .directory [("x.jar", .file oneClass false)]),
      ("b", .directory [("x.jar", .file oneClass false)]),
      ("c", .directory [("y.jar", .file oneClass false)])], "/"⟩ }

set_option maxRecDepth 100000 in
theorem records_oneClass :
    ((readArchiveBy 1 (Reading.inOrder none) "" ⟨oneClass.toArray⟩ {}).outcome.toOption.map
    fun contents => contents.records.map fun r => (r.name, r.interfaces)) = some [("A", [])] := by
  decide +kernel

/-- What is read from an archive does not depend on the note. -/
theorem readArchiveBy_note {limit : Nat} {schedule : Nat → List Action} {note : String}
    {data : ByteArray} {selection : Selection} {contents : ArchiveContents}
    (read : (readArchiveBy limit schedule note data selection).outcome = .ok contents)
    (note' : String) :
    (readArchiveBy limit schedule note' data selection).outcome = .ok contents := by
  unfold readArchiveBy at read ⊢
  cases parsed : ZipArchive.read data with
  | error fault =>
    rw [parsed] at read
    cases read
  | ok archive =>
    rw [parsed] at read
    exact read

/-- Where that archive stands, its analysis tells of one class. -/
theorem analyzed_oneClass {tree : FileTree} {path : String} (stands : tree.read path = .ok oneClass)
    (paths : List String) :
    ∃ (a : ArchiveReport) (c : ClassReport),
      (analyzeArchive tree { paths } none path).outcome = .ok a ∧
      a.fileName = Path.base path ∧ a.allClasses = [c] ∧ c.name = "A" ∧ c.interfaces = [] := by
  have records := records_oneClass
  cases read : (readArchiveBy 1 (Reading.inOrder none) "" ⟨oneClass.toArray⟩ {}).outcome with
  | error cause =>
    rw [read] at records
    cases records
  | ok contents =>
    rw [read] at records
    obtain ⟨r, one, known⟩ := List.map_eq_singleton_iff.mp (Option.some.inj records)
    refine ⟨ArchiveReport.ofContents path { paths } contents, .ofFigures (.of (.ofList [r]) r), ?_,
      ArchiveReport.fileName_ofContents path { paths } contents, ?_, Prod.mk.inj known⟩
    · have again := readArchiveBy_note read ("open archive " ++ path)
      unfold analyzeArchive analyzeArchiveBy
      simp only [stands, show ({ paths } : Request).selection = {} from rfl, again]
    · show (List.mergeSort (contents.records.map _) _).map ClassReport.ofFigures = _
      rw [one, List.map_singleton, List.mergeSort_singleton, List.map_singleton]

theorem shelf_read :
    shelf.tree.read "a/x.jar" = .ok oneClass ∧ shelf.tree.read "b/x.jar" = .ok oneClass ∧
    shelf.tree.read "c/y.jar" = .ok oneClass := by
  have here : shelf.tree.hereNames = [] := by decide +kernel
  have first : Path.parts "a/x.jar" = ["a", "x.jar"] := by decide +kernel
  have second : Path.parts "b/x.jar" = ["b", "x.jar"] := by decide +kernel
  have third : Path.parts "c/y.jar" = ["c", "y.jar"] := by decide +kernel
  simp only [FileTree.read, FileTree.status, FileTree.locate, first, second,
    third, here, FileTree.walk]
  exact ⟨rfl, rfl, rfl⟩

/-- An analysis of two paths tells of both. -/
theorem analyze_pair {host : Host} {request : Request} {p q : String} {a b : ArchiveReport}
    (asked : request.paths = [p, q])
    (first : (analyzeArchive host.tree request none p).outcome = .ok a)
    (second : (analyzeArchive host.tree request none q).outcome = .ok b) :
    (analyze host request none).outcome = .ok (Report.ofResults host [.ok a, .ok b]) := by
  have quiet : ∀ count, Action.firstInterrupt? (Reading.inOrder none count) = none := fun count =>
    List.findSome?_eq_none_iff.mpr fun action taken => by
      cases action with
      | interrupt i => exact absurd taken (Reading.inOrder_own count i)
      | _ => rfl
  unfold analyzeArchive at first second
  unfold analyze analyzeBy
  simp only [asked, analyzePathsBy, Option.or, first, second, quiet, PathsAnalysis.behind]
  rfl

/-- Archives of different names keep apart, whatever directories they are in. -/
theorem exports_kept_apart_shelf : ∃ report c d,
    (analyze shelf { paths := ["a/x.jar", "c/y.jar"] } none).outcome = .ok report ∧
      report.archives.flatMap Graph.classRows = [⟨"x.jar", c⟩, ⟨"y.jar", d⟩] ∧
      ∀ before jar after, (Graph.exportReport (fun _ _ => none) 0 true (some report)).statements =
        before ++ .clear jar :: after → ∀ row ∈ Graph.sentClasses before, row.jar ≠ jar := by
  obtain ⟨a, c, first, name, own, -⟩ := analyzed_oneClass shelf_read.1 ["a/x.jar", "c/y.jar"]
  obtain ⟨b, d, second, name', own', -⟩ := analyzed_oneClass shelf_read.2.2 ["a/x.jar", "c/y.jar"]
  have analyzed := analyze_pair rfl first second
  have bases : Path.base "a/x.jar" = "x.jar" ∧ Path.base "c/y.jar" = "y.jar" := by decide +kernel
  have unmixed : Graph.Unmixed "x.jar" "y.jar" := by unfold Graph.Unmixed; decide +kernel
  refine ⟨_, c, d, analyzed, ?_,
    (exports_kept_apart shelf { paths := ["a/x.jar", "c/y.jar"] } 1 (fun _ => {}) none
    analyzed ?_ (fun _ _ => none) 0 true).2.2⟩
  · show [a, b].flatMap Graph.classRows = _
    simp [Graph.classRows, own, own', name, name', bases]
  · simpa [bases] using unmixed

/-- Two archives of one name in different directories: the class of the second has the key of the
class of the first, and what was sent for the first is removed before the second is put in. -/
theorem same_named_archives_collide : ∃ report c d,
    (analyze shelf { paths := ["a/x.jar", "b/x.jar"] } none).outcome = .ok report ∧
      report.archives.map Graph.classRows = [[⟨"x.jar", c⟩], [⟨"x.jar", d⟩]] ∧
      (⟨"x.jar", c⟩ : Graph.ClassRow).key = (⟨"x.jar", d⟩ : Graph.ClassRow).key ∧
      ∃ before after, (Graph.exportReport (fun _ _ => none) 0 true (some report)).statements =
        before ++ .clear "x.jar" :: after ∧ ⟨"x.jar", c⟩ ∈ Graph.sentClasses before := by
  obtain ⟨a, c, first, name, own, named, alone⟩ :=
    analyzed_oneClass shelf_read.1 ["a/x.jar", "b/x.jar"]
  obtain ⟨b, d, second, name', own', named', alone'⟩ :=
    analyzed_oneClass shelf_read.2.1 ["a/x.jar", "b/x.jar"]
  have analyzed := analyze_pair rfl first second
  have bases : Path.base "a/x.jar" = "x.jar" ∧ Path.base "b/x.jar" = "x.jar" := by decide +kernel
  rw [bases.1] at name
  rw [bases.2] at name'
  have countable : ∀ archive ∈ [a, b], Graph.Countable archive := by
    have single : ∀ {archive : ArchiveReport} {c : ClassReport},
        archive.allClasses = [c] → c.interfaces = [] →
        Graph.Countable archive := fun own alone =>
      ⟨by simp [own, Graph.quarter], by simp [own, alone, Graph.quarter]⟩
    simpa using ⟨single own alone, single own' alone'⟩
  obtain ⟨before, after, cut, sent⟩ :=
    Graph.namesake_removes (Report.ofResults shelf [.ok a, .ok b])
    (List.Sublist.refl [a, b]) (name.trans name'.symm) 0 (by decide) countable
  refine ⟨_, c, d, analyzed, ?_, ?_, before, after, by rw [cut, name'], ?_⟩
  · show [a, b].map Graph.classRows = _
    simp [Graph.classRows, own, own', name, name']
  · rw [Graph.ClassRow.key, Graph.ClassRow.key, named, named']
  · exact (sent ⟨"x.jar", c⟩ (by simp [Graph.classRows, own, name])).1

end JarMetrics
