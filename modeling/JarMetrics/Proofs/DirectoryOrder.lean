import JarMetrics.Proofs.Interrupts
import Mathlib.Data.List.Nodup

/-!
# The order of the directory does not matter

Two archives that list the same entries, each with the same content, may list them in different
orders. As long as no two entries have one name, the two give the same report
(`directory_order_irrelevant`), however many tasks are under way at a time and however they
interleave.

All that an analysis takes from an entry is a `Listed`: its name, whether it is a directory, and its
content. What is chosen from a listing is a permutation of what its entries give
(`Selection.map_chosen_perm`), and it stands in the order of names (`Selection.chosen_ordered`);
where names are distinct there is only one such list.
-/

namespace JarMetrics

/-- What an archive says of an entry, apart from where it lies. -/
structure Listed where
  rawName : List UInt8
  isDirectory : Bool
  content : Except ZipFault (List UInt8)

/-- What an archive says of one of its entries. -/
def ZipArchive.listed (archive : ZipArchive) (e : ZipEntry) : Listed :=
  ⟨e.rawName, e.isDirectory, archive.content e⟩

/-- What an archive says of its entries, in the order of its directory. -/
def ZipArchive.listing (archive : ZipArchive) : List Listed := archive.entries.map archive.listed

/-- Decode an entry from what is said of it. -/
def Listed.decode (l : Listed) : Except SkippedEntry ClassRecord :=
  match l.content with
  | .error fault => .error ⟨Utf8.decode l.rawName, .zip fault⟩
  | .ok bytes =>
      match ClassRecord.decode bytes with
      | .error error => .error ⟨Utf8.decode l.rawName, .record error⟩
      | .ok found => .ok found

/-- Whether an entry is chosen, from what is said of it. -/
def Selection.takes (s : Selection) (l : Listed) : Bool :=
  !l.isDirectory && s.selects (Utf8.decode l.rawName)

theorem decodeEntry_eq (archive : ZipArchive) (e : ZipEntry) :
    decodeEntry archive e = (archive.listed e).decode := by
  unfold decodeEntry Listed.decode ZipArchive.listed
  cases archive.content e <;> rfl

/-! ## What is chosen -/

namespace Selection

variable {selection : Selection}

/-- Patterns that are all well formed choose entries. -/
theorem apply_of_valid
    (valid : ∀ p ∈ selection.includes ++ selection.excludes, Glob.isValid p = true)
    (entries : List ZipEntry) : selection.apply entries = .ok (selection.chosen entries) := by
  have noneBad : selection.invalidPattern? = none := by
    unfold invalidPattern?
    rw [List.find?_eq_none]
    intro p member
    simp [valid p member]
  unfold apply
  rw [noneBad]

/-- An entry is chosen if it is no directory and its name is asked for. -/
theorem mem_chosen_iff {entries : List ZipEntry} {e : ZipEntry} :
    e ∈ selection.chosen entries ↔ e ∈ entries ∧ e.isDirectory = false ∧
      (∃ p ∈ if selection.includes = [] then [classFiles] else selection.includes,
        Glob.isMatch p e.name = true) ∧
      ∀ p ∈ selection.excludes, Glob.isMatch p e.name = false := by
  unfold chosen selects effectiveInclude
  simp [List.mem_mergeSort]

/-- What is chosen from an archive is what its listing gives, in another order. -/
theorem map_chosen_perm (selection : Selection) (archive : ZipArchive) :
    ((selection.chosen archive.entries).map archive.listed).Perm
      (archive.listing.filter selection.takes) := by
  unfold chosen ZipArchive.listing
  rw [List.filter_map]
  exact (List.mergeSort_perm _ _).map archive.listed

/-- Where names are distinct, the chosen entries are in strict order. -/
theorem chosen_strictly_ordered {entries : List ZipEntry}
    (distinct : (entries.map (·.rawName)).Nodup) :
    (selection.chosen entries).Pairwise fun e f => e.rawName < f.rawName := by
  have kept : (selection.chosen entries).Pairwise fun e f => e.rawName ≠ f.rawName :=
    (List.mergeSort_perm _ _).symm.pairwise ((List.pairwise_map.mp distinct).filter _)
      fun ne => ne.symm
  refine (List.pairwise_and_iff.mpr ⟨selection.chosen_ordered entries, kept⟩).imp ?_
  rintro e f ⟨le, ne⟩
  exact List.not_le.mp fun ge => ne (List.le_antisymm le ge)

end Selection

/-- Archives that list the same in different orders have the same chosen, entry by entry. -/
theorem map_chosen_eq {archive archive' : ZipArchive} (selection : Selection)
    (distinct : (archive.entries.map (·.rawName)).Nodup)
    (rearranged : archive.listing.Perm archive'.listing) :
    (selection.chosen archive.entries).map archive.listed =
      (selection.chosen archive'.entries).map archive'.listed := by
  have perm : ((selection.chosen archive.entries).map archive.listed).Perm
      ((selection.chosen archive'.entries).map archive'.listed) :=
    (selection.map_chosen_perm archive).trans
      ((rearranged.filter selection.takes).trans (selection.map_chosen_perm archive').symm)
  have ordered : ∀ a : ZipArchive, ((selection.chosen a.entries).map a.listed).Pairwise
      fun l m => l.rawName ≤ m.rawName := fun a =>
    List.pairwise_map.mpr (selection.chosen_ordered a.entries)
  refine List.Perm.eq_of_pairwise ?_ (ordered archive) (ordered archive') perm
  -- two of the same name are one, since both stand in the first list
  intro l m first second le ge
  obtain ⟨e, chosen, rfl⟩ := List.mem_map.mp first
  obtain ⟨f, chosen', rfl⟩ := List.mem_map.mp (perm.mem_iff.mpr second)
  have same : e.rawName = f.rawName := List.le_antisymm le ge
  rw [List.inj_on_of_nodup_map distinct (Selection.mem_chosen_iff.mp chosen).1
    (Selection.mem_chosen_iff.mp chosen').1 same]

/-! ## What is read -/

/-- What is read from entries depends only on what is said of them. -/
theorem contents_congr {archive archive' : ZipArchive} {chosen chosen' : List ZipEntry}
    (same : chosen.map archive.listed = chosen'.map archive'.listed) :
    Reading.contents (decodeEntry archive) chosen =
      Reading.contents (decodeEntry archive') chosen' := by
  have through : ∀ {α : Type} (f : Except SkippedEntry ClassRecord → Option α) (a : ZipArchive)
      (entries : List ZipEntry),
      (entries.filterMap fun e => f (decodeEntry a e)) = (entries.map a.listed).filterMap
        fun l => f l.decode := by
    intro α f a entries
    simp only [List.filterMap_map, decodeEntry_eq]
    rfl
  have length : chosen.length = chosen'.length := by simpa using congrArg List.length same
  unfold Reading.contents
  rw [through, through, through, through, same, length]

open Reading in
/-- The report of an archive depends neither on the order of its directory nor on how its entries
are read. Of two archives that list the same entries in some order, no two of one name, the same are
chosen: those that are no directories and whose names match an including pattern and no excluding
one, in the order of their names. However their tasks interleave, and however many are under way at
a time, two readings that are over give the same records, the same skipped entries and the same
number of entries, and with them the same figures and the same report. -/
theorem directory_order_irrelevant (archive archive' : ZipArchive) (selection : Selection)
    (valid : ∀ p ∈ selection.includes ++ selection.excludes, Glob.isValid p = true)
    (distinct : (archive.entries.map (·.rawName)).Nodup)
    (rearranged : archive.listing.Perm archive'.listing) :
    ∃ chosen chosen', selection.apply archive.entries = .ok chosen ∧
      selection.apply archive'.entries = .ok chosen' ∧
      (∀ e, e ∈ chosen ↔ e ∈ archive.entries ∧ e.isDirectory = false ∧
        (∃ p ∈ if selection.includes = [] then ["**/*.class"] else selection.includes,
          Glob.isMatch p e.name = true) ∧
        ∀ p ∈ selection.excludes, Glob.isMatch p e.name = false) ∧
      (chosen.Pairwise fun e f => e.rawName < f.rawName) ∧
      chosen.map archive.listed = chosen'.map archive'.listed ∧
      ∀ (limit limit' : Nat) (schedule schedule' : Nat → List Action),
        (∀ i, Action.interrupt i ∉ schedule chosen.length) →
          (∀ i, Action.interrupt i ∉ schedule' chosen'.length) →
        (run limit archive chosen (schedule chosen.length)).finished = true →
        (run limit' archive' chosen' (schedule' chosen'.length)).finished = true →
        ∃ contents, (readEntriesBy limit schedule archive selection).outcome = .ok contents ∧
          (readEntriesBy limit' schedule' archive' selection).outcome = .ok contents ∧
          contents.entries = chosen.length ∧
          ∀ tree tree' request path, openedArchive? tree request path = some (archive, chosen) →
            openedArchive? tree' request path = some (archive', chosen') →
            (analyzeArchiveBy tree request limit schedule path).outcome =
              .ok (ArchiveReport.ofContents path request contents) ∧
            (analyzeArchiveBy tree' request limit' schedule' path).outcome =
              .ok (ArchiveReport.ofContents path request contents) := by
  have selected := Selection.apply_of_valid valid archive.entries
  have selected' := Selection.apply_of_valid valid archive'.entries
  have same := map_chosen_eq selection distinct rearranged
  refine ⟨_, _, selected, selected', fun e => Selection.mem_chosen_iff,
    Selection.chosen_strictly_ordered distinct, same, ?_⟩
  intro limit limit' schedule schedule' own own' finished finished'
  obtain ⟨outcome, -⟩ := run_of_finished own finished
  obtain ⟨outcome', -⟩ := run_of_finished own' finished'
  rw [← contents_congr same] at outcome'
  refine ⟨_, (readEntriesBy_outcome selected limit schedule).trans outcome,
    (readEntriesBy_outcome selected' limit' schedule').trans outcome', rfl, ?_⟩
  intro tree tree' request path opened opened'
  rw [analyzeArchiveBy_opened opened, analyzeArchiveBy_opened opened', outcome, outcome']
  exact ⟨rfl, rfl⟩

theorem directory_order_irrelevant_swapped :
    let archive : ZipArchive := ⟨⟨#[]⟩, [misplacedEntry 0x62, misplacedEntry 0x61]⟩
    let archive' : ZipArchive := ⟨⟨#[]⟩, [misplacedEntry 0x61, misplacedEntry 0x62]⟩
    archive.listing.Perm archive'.listing ∧
      ∃ contents, (readEntriesBy 2 (fun _ => crossedTasks) archive {}).outcome = .ok contents ∧
        (readEntriesBy 1 (Reading.inOrder none) archive' {}).outcome = .ok contents ∧
        contents.entries = 2 := by
  intro archive archive'
  have rearranged : archive.listing.Perm archive'.listing := List.Perm.swap _ _ []
  refine ⟨rearranged, ?_⟩
  obtain ⟨chosen, chosen', selected, selected', among, ordered, same, read⟩ :=
    directory_order_irrelevant archive archive' {} (by simp) (by decide) rearranged
  -- the second listing is in order already, and the first has the same chosen
  have both : ({} : Selection).apply archive'.entries =
      .ok [misplacedEntry 0x61, misplacedEntry 0x62] := by
    have kept :
        (archive'.entries.filter fun e => !e.isDirectory && ({} : Selection).selects e.name) =
        archive'.entries := by decide +kernel
    show Except.ok (List.mergeSort _ _) = _
    rw [kept, List.mergeSort_of_pairwise (by decide)]
  obtain rfl : chosen' = [misplacedEntry 0x61, misplacedEntry 0x62] := by
    simpa [both] using selected'.symm
  obtain rfl : chosen = [misplacedEntry 0x61, misplacedEntry 0x62] := by
    obtain ⟨x, y, rfl⟩ := List.length_eq_two.mp (by simpa using congrArg List.length same)
    have first : x ∈ archive.entries := ((among x).mp (by simp)).1
    have second : y ∈ archive.entries := ((among y).mp (by simp)).1
    simp only [archive, List.mem_cons, List.not_mem_nil, or_false] at first second
    rcases first with rfl | rfl <;> rcases second with rfl | rfl
    · exact absurd ordered (by decide)
    · exact absurd ordered (by decide)
    · rfl
    · exact absurd ordered (by decide)
  obtain ⟨contents, outcome, outcome', entries, -⟩ :=
    read 2 1 (fun _ => crossedTasks) (Reading.inOrder none)
    (fun i => by simp [crossedTasks]) (Reading.inOrder_own 2) (by decide) (by decide)
  exact ⟨contents, outcome, outcome', entries⟩

end JarMetrics
