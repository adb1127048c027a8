import JarMetrics.Report.Html
import Mathlib.Data.List.Forall2

/-!
# Texts cannot alter the markup of a page

The tags of a page are what runs from a `<` to the next `>`. `Tagged` cuts a text at its tags, and
leaves no other `<` or `>`; there is at most one such cut (`tagged_iff`).

`page_tags_eq`: two reports of one shape have pages with the same tags, whatever the names, messages
and numbers in them are. Two lists of pieces are compared all along: `SameTags` holds of any two
texts, of markup that is closed and equal, and of lists put together from lists of which it holds.
The one text that is not escaped is the time, which has no `<` or `>` in it.
-/

namespace JarMetrics.Html

/-! ## Tags -/

/-- Neither `<` nor `>`. -/
def isPlain (c : Char) : Bool := c != '<' && c != '>'

/-- The tags of a text, in order. Between the tags and inside of them there is no `<` and no `>`. -/
inductive Tagged : List Char → List (List Char) → Prop
  | plain {text : List Char} : text.all isPlain = true → Tagged text []
  | tag {front inner rest : List Char} {tags : List (List Char)} :
      front.all isPlain = true → inner.all isPlain = true → Tagged rest tags →
      Tagged (front ++ '<' :: inner ++ '>' :: rest) (('<' :: inner ++ ['>']) :: tags)

/-- Read tags, the first of which may be open already; its characters are kept in reverse. -/
def tagsFrom : Option (List Char) → List Char → Option (List (List Char))
  | none, [] => some []
  | some _, [] => none
  | none, c :: rest =>
      if c = '<' then tagsFrom (some [c]) rest
      else if c = '>' then none
      else tagsFrom none rest
  | some read, c :: rest =>
      if c = '>' then (tagsFrom none rest).map ((c :: read).reverse :: ·)
      else if c = '<' then none
      else tagsFrom (some (c :: read)) rest

theorem isPlain_of_ne {c : Char} (opening : c ≠ '<') (closing : c ≠ '>') : isPlain c = true := by
  simp [isPlain, opening, closing]

theorem ne_of_isPlain {c : Char} (plain : isPlain c = true) : c ≠ '<' ∧ c ≠ '>' := by
  simpa [isPlain] using plain

theorem tagsFrom_plain {front : List Char} (plain : front.all isPlain = true) (rest : List Char) :
    tagsFrom none (front ++ rest) = tagsFrom none rest := by
  induction front with
  | nil => rfl
  | cons c front ih =>
    obtain ⟨here, later⟩ := Bool.and_eq_true_iff.mp plain
    obtain ⟨opening, closing⟩ := ne_of_isPlain here
    rw [List.cons_append, tagsFrom, if_neg opening, if_neg closing, ih later]

theorem tagsFrom_open {inner : List Char} (plain : inner.all isPlain = true)
    (read rest : List Char) :
    tagsFrom (some read) (inner ++ '>' :: rest) =
      (tagsFrom none rest).map ((read.reverse ++ inner ++ ['>']) :: ·) := by
  induction inner generalizing read with
  | nil => simp [tagsFrom]
  | cons c inner ih =>
    obtain ⟨here, later⟩ := Bool.and_eq_true_iff.mp plain
    obtain ⟨opening, closing⟩ := ne_of_isPlain here
    rw [List.cons_append, tagsFrom, if_neg closing, if_neg opening, ih later]
    simp

theorem Tagged.tagsFrom_eq {text : List Char} {tags : List (List Char)}
    (tagged : Tagged text tags) :
    tagsFrom none text = some tags := by
  induction tagged with
  | plain plain =>
    have whole := tagsFrom_plain plain []
    rwa [List.append_nil] at whole
  | tag front inner _ ih =>
    rw [List.append_assoc, tagsFrom_plain front, List.cons_append, tagsFrom, if_pos rfl,
      tagsFrom_open inner, ih]
    rfl

/-- Plain text in front adds no tags. -/
theorem Tagged.behind {front text : List Char} {tags : List (List Char)}
    (plain : front.all isPlain = true) (tagged : Tagged text tags) :
    Tagged (front ++ text) tags := by
  have both : ∀ {more : List Char}, more.all isPlain = true →
      (front ++ more).all isPlain = true := by
    intro more plain'
    rw [List.all_append, plain, plain', Bool.and_true]
  cases tagged with
  | plain all => exact .plain (both all)
  | tag front' inner rest =>
    rw [List.append_assoc, ← List.append_assoc front, ← List.append_assoc]
    exact .tag (both front') inner rest

theorem Tagged.append {text text' : List Char} {tags tags' : List (List Char)}
    (tagged : Tagged text tags) (tagged' : Tagged text' tags') :
    Tagged (text ++ text') (tags ++ tags') := by
  induction tagged with
  | plain plain => exact tagged'.behind plain
  | tag front inner _ ih =>
    rw [List.append_assoc, List.cons_append]
    exact .tag front inner ih

/-- What is read as tags are tags; where one was open, it is read to its end. -/
theorem tagged_of_tagsFrom {text : List Char} :
    (∀ tags, tagsFrom none text = some tags → Tagged text tags) ∧
    ∀ read tags, tagsFrom (some read) text = some tags →
      ∃ inner rest later, text = inner ++ '>' :: rest ∧
      inner.all isPlain = true ∧ Tagged rest later ∧
      tags = (read.reverse ++ inner ++ ['>']) :: later := by
  induction text with
  | nil =>
    constructor
    · intro tags found
      cases found
      exact .plain rfl
    · intro read tags found
      cases found
  | cons c text ih =>
    obtain ⟨closed, opened⟩ := ih
    refine ⟨fun tags found => ?_, fun read tags found => ?_⟩
    -- outside of a tag a `<` opens one; inside of it only a `>` ends it
    · rw [tagsFrom] at found
      split at found
      · next opening =>
        subst opening
        obtain ⟨inner, rest, later, rfl, plain, tagged, rfl⟩ := opened _ _ found
        exact .tag (List.all_nil : [].all isPlain = true) plain tagged
      · next opening =>
        split at found
        · cases found
        · next closing =>
          have plain : [c].all isPlain = true := by simp [isPlain_of_ne opening closing]
          exact (closed tags found).behind plain
    · rw [tagsFrom] at found
      split at found
      · next closing =>
        subst closing
        obtain ⟨later, found', rfl⟩ := Option.map_eq_some_iff.mp found
        exact ⟨[], text, later, rfl, rfl, closed later found', by simp⟩
      · next closing =>
        split at found
        · cases found
        · next opening =>
          obtain ⟨inner, rest, later, rfl, plain, tagged, rfl⟩ := opened _ _ found
          refine ⟨c :: inner, rest, later, rfl, ?_, tagged, by simp⟩
          rw [List.all_cons, isPlain_of_ne opening closing, plain, Bool.and_true]

/-- A text has at most one sequence of tags, which is found by reading it. -/
theorem tagged_iff {text : List Char} {tags : List (List Char)} :
    Tagged text tags ↔ tagsFrom none text = some tags :=
  ⟨Tagged.tagsFrom_eq, tagged_of_tagsFrom.1 tags⟩

/-! ## Pieces -/

/-- Markup in which every tag is closed. -/
def Closed (code : String) : Prop := ∃ tags, Tagged code.toList tags

/-- Whether a literal is closed can be computed. It is taken by its characters, which
`String.toList` would first have to decode. -/
theorem closed_ofList (code : List Char) (read : (tagsFrom none code).isSome = true) :
    Closed (String.ofList code) := by
  obtain ⟨tags, found⟩ := Option.isSome_iff_exists.mp read
  refine ⟨tags, ?_⟩
  rw [String.toList_ofList]
  exact tagged_iff.mpr found

theorem Closed.append {code code' : String} (closed : Closed code) (closed' : Closed code') :
    Closed (code ++ code') := by
  obtain ⟨tags, tagged⟩ := closed
  obtain ⟨tags', tagged'⟩ := closed'
  refine ⟨tags ++ tags', ?_⟩
  rw [String.toList_append]
  exact tagged.append tagged'

theorem closed_lines {lines : List String} (closed : ∀ line ∈ lines, Closed line) :
    Closed ("\n".intercalate lines) := by
  have linebreak : Closed "\n" := closed_ofList _ rfl
  unfold Closed
  rw [String.toList_intercalate]
  induction lines with
  | nil => exact ⟨[], .plain rfl⟩
  | cons line lines ih =>
    obtain ⟨here, later⟩ := List.forall_mem_cons.mp closed
    cases lines with
    | nil => simpa [Closed] using here
    | cons next lines =>
      obtain ⟨tags, tagged⟩ := ih later
      obtain ⟨front, tagged'⟩ := here.append linebreak
      rw [String.toList_append] at tagged'
      rw [List.map_cons, List.map_cons, List.intercalate_cons_cons]
      exact ⟨front ++ tags, tagged'.append tagged⟩

/-- A text that is escaped has no tags. -/
theorem escape_plain (text : String) : (escape text).toList.all isPlain = true := by
  have character : ∀ c, (escapeChar c).toList.all isPlain = true := by
    intro c
    unfold escapeChar
    split
    · decide
    split
    · decide
    split
    · decide
    · next opening =>
      split
      · decide
      · next closing =>
        split
        · decide
        · simp [isPlain, opening, closing]
  unfold escape
  rw [String.toList_join, List.all_flatMap, List.all_map]
  exact List.all_eq_true.mpr fun c _ => character c

/-- Two lists of pieces are written with the same tags. -/
def SameTags (pieces pieces' : List Piece) : Prop :=
  ∃ tags, Tagged (render pieces).toList tags ∧ Tagged (render pieces').toList tags

theorem render_append (pieces more : List Piece) :
    render (pieces ++ more) = render pieces ++ render more := by
  refine String.toList_inj.mp ?_
  simp [render, String.toList_join]

namespace SameTags

theorem nil : SameTags [] [] := ⟨[], .plain rfl, .plain rfl⟩

theorem append {pieces pieces' more more' : List Piece} (front : SameTags pieces pieces')
    (back : SameTags more more') : SameTags (pieces ++ more) (pieces' ++ more') := by
  obtain ⟨tags, tagged, tagged'⟩ := front
  obtain ⟨later, tagged₁, tagged₁'⟩ := back
  refine ⟨tags ++ later, ?_, ?_⟩
  · rw [render_append, String.toList_append]
    exact tagged.append tagged₁
  · rw [render_append, String.toList_append]
    exact tagged'.append tagged₁'

theorem cons {piece piece' : Piece} {pieces pieces' : List Piece} {tags : List (List Char)}
    (here : Tagged piece.render.toList tags) (here' : Tagged piece'.render.toList tags)
    (rest : SameTags pieces pieces') : SameTags (piece :: pieces) (piece' :: pieces') := by
  have alone : ∀ piece : Piece, (render [piece]).toList = piece.render.toList := by
    intro piece
    simp [render]
  have first : SameTags [piece] [piece'] := ⟨tags, by rwa [alone], by rwa [alone]⟩
  exact first.append rest

theorem text {pieces pieces' : List Piece} (content content' : String)
    (rest : SameTags pieces pieces') :
    SameTags (.text content :: pieces) (.text content' :: pieces') :=
  .cons (.plain (escape_plain content)) (.plain (escape_plain content')) rest

theorem plain {pieces pieces' : List Piece} {code code' : String}
    (plain : code.toList.all isPlain = true) (plain' : code'.toList.all isPlain = true)
    (rest : SameTags pieces pieces') :
    SameTags (.markup code :: pieces) (.markup code' :: pieces') :=
  .cons (.plain plain) (.plain plain') rest

theorem markup {pieces pieces' : List Piece} {code : String} (closed : Closed code)
    (rest : SameTags pieces pieces') :
    SameTags (.markup code :: pieces) (.markup code :: pieces') := by
  obtain ⟨tags, tagged⟩ := closed
  exact .cons tagged tagged rest

theorem flatMap {α : Type} {f : α → List Piece} {xs xs' : List α}
    (each : List.Forall₂ (fun x x' => SameTags (f x) (f x')) xs xs') :
    SameTags (xs.flatMap f) (xs'.flatMap f) := by
  induction each with
  | nil => exact nil
  | cons here _ ih =>
    rw [List.flatMap_cons, List.flatMap_cons]
    exact here.append ih

/-- Where all items are written with the same tags, only their number matters. -/
theorem flatMap_of_length {α : Type} {f : α → List Piece} {xs xs' : List α}
    (each : ∀ x x', SameTags (f x) (f x')) (same : xs.length = xs'.length) :
    SameTags (xs.flatMap f) (xs'.flatMap f) :=
  flatMap (List.forall₂_iff_get.mpr ⟨same, fun _ _ _ => each _ _⟩)

end SameTags

/-! ## Elements -/

theorem closed_documentStart : Closed documentStart := by
  refine closed_lines ?_
  repeat refine List.forall_mem_cons.mpr ⟨closed_ofList _ rfl, ?_⟩
  exact fun _ member => absurd member List.not_mem_nil

theorem closed_documentStyle : Closed documentStyle := by
  refine closed_lines ?_
  repeat refine List.forall_mem_cons.mpr ⟨closed_ofList _ rfl, ?_⟩
  exact fun _ member => absurd member List.not_mem_nil

theorem header_tags (title title' subtitle subtitle' version version' : String)
    {generated generated' : String} (plain : generated.toList.all isPlain = true)
    (plain' : generated'.toList.all isPlain = true) :
    SameTags (header title subtitle generated version)
      (header title' subtitle' generated' version') :=
  .markup closed_documentStart <| .text _ _ <| .markup closed_documentStyle <| .text _ _ <|
    .markup (closed_ofList _ rfl) <| .text _ _ <| .markup (closed_ofList _ rfl) <|
      .plain plain plain' <|
    .markup (closed_ofList _ rfl) <| .text _ _ <| .markup (closed_ofList _ rfl) .nil

theorem page_tags {content content' : List Piece} (same : SameTags content content') :
    SameTags (page content) (page content') :=
  ((SameTags.markup (closed_ofList _ rfl) .nil).append same).append
    (.markup (closed_ofList _ rfl) .nil)

theorem footer_tags : SameTags footer footer :=
  .markup (.append (.append (closed_ofList _ rfl) (closed_ofList _ rfl)) (closed_ofList _ rfl)) .nil

theorem card_tags (value value' label label' : String) :
    SameTags (card value label) (card value' label') :=
  .markup (closed_ofList _ rfl) <| .text _ _ <| .markup (closed_ofList _ rfl) <| .text _ _ <|
    .markup (closed_ofList _ rfl) .nil

theorem sectionHeader_tags (title title' : String) :
    SameTags (sectionHeader title) (sectionHeader title') :=
  .markup (closed_ofList _ rfl) <| .text _ _ <| .markup (closed_ofList _ rfl) .nil

/-- A tag by itself is closed. -/
theorem closed_tag {code : String} {inner : List Char}
    (spelled : code.toList = '<' :: inner ++ ['>']) (plain : inner.all isPlain = true) :
    Closed code := by
  refine ⟨['<' :: inner ++ ['>']], ?_⟩
  rw [spelled]
  exact .tag (List.all_nil : [].all isPlain = true) plain (.plain List.all_nil)

theorem badge_tags (text text' severity : String) :
    SameTags (badge text severity) (badge text' severity) := by
  -- the severity picks the class of the element, so it stands inside of a tag
  have plain : (badgeClass severity).toList.all isPlain = true := by
    unfold badgeClass
    dsimp only
    split
    · decide
    split
    · decide
    split
    · decide
    · decide
  have spelled : ("<span class=\"status-badge " ++ badgeClass severity ++ "\">").toList =
      '<' :: ("span class=\"status-badge ".toList ++ (badgeClass severity).toList ++ ['"']) ++
        ['>'] := by
    simp
  have opening := closed_tag spelled (by rw [List.all_append, List.all_append, plain]; decide)
  exact .markup opening <| .text _ _ <| .markup (closed_ofList _ rfl) .nil

theorem tableCell_tags {tag : String} (plain : tag.toList.all isPlain = true)
    (text text' : String) :
    SameTags (tableCell tag text) (tableCell tag text') := by
  have opening : ("<" ++ tag ++ ">").toList = '<' :: tag.toList ++ ['>'] := by simp
  have closing : ("</" ++ tag ++ ">").toList = '<' :: ('/' :: tag.toList) ++ ['>'] := by simp
  have plain' : ('/' :: tag.toList).all isPlain = true := by
    rw [List.all_cons, plain]
    rfl
  exact .markup (closed_tag opening plain) <| .text _ _ <| .markup (closed_tag closing plain') .nil

theorem tableRow_tags {cells cells' : List String} (same : cells.length = cells'.length) :
    SameTags (tableRow cells) (tableRow cells') :=
  ((SameTags.markup (closed_ofList _ rfl) .nil).append
    (.flatMap_of_length (tableCell_tags (by decide)) same)).append
    (.markup (closed_ofList _ rfl) .nil)

theorem table_tags (headers : List String) {rows rows' : List (List String)}
    (same : List.Forall₂ (fun row row' => row.length = row'.length) rows rows') :
    SameTags (table headers rows) (table headers rows') := by
  have top : SameTags (headers.flatMap (tableCell "th")) (headers.flatMap (tableCell "th")) :=
    .flatMap_of_length (tableCell_tags (by decide)) rfl
  have body : SameTags (rows.flatMap tableRow) (rows'.flatMap tableRow) :=
    .flatMap (same.imp fun _ _ => tableRow_tags)
  exact ((((SameTags.markup (closed_ofList _ rfl) .nil).append top).append
    (.markup (closed_ofList _ rfl) .nil)).append body).append
    (.markup (closed_ofList _ rfl) .nil)

/-! ## The report -/

theorem cards_tags (a a' : ArchiveReport) : SameTags (cards a) (cards a') := by
  refine SameTags.append ?_ (.markup (closed_ofList _ rfl) .nil)
  refine SameTags.append ?_ (card_tags ..)
  refine SameTags.append ?_ (card_tags ..)
  refine SameTags.append ?_ (card_tags ..)
  refine SameTags.append ?_ (card_tags ..)
  refine SameTags.append ?_ (card_tags ..)
  refine SameTags.append ?_ (card_tags ..)
  refine SameTags.append ?_ (card_tags ..)
  exact .markup (closed_ofList _ rfl) .nil

/-- Rows of one width, one per item: only the number of items matters. -/
theorem rows_of_length {α : Type} {row : α → List String} {items items' : List α}
    (width : ∀ item item', (row item).length = (row item').length)
    (same : items.length = items'.length) :
    List.Forall₂ (fun row row' => row.length = row'.length) (items.map row) (items'.map row) := by
  rw [List.forall₂_map_left_iff, List.forall₂_map_right_iff]
  exact List.forall₂_iff_get.mpr ⟨same, fun _ _ _ => width _ _⟩

/-- Pieces that stand there only when there are items. -/
theorem SameTags.unlessEmpty {α β : Type} {items : List α} {items' : List β}
    {pieces pieces' : List Piece} (empty : items = [] ↔ items' = [])
    (same : SameTags pieces pieces') :
    SameTags (if items.isEmpty then [] else pieces) (if items'.isEmpty then [] else pieces') := by
  cases items with
  | nil =>
    rw [empty.mp rfl]
    exact .nil
  | cons item items =>
    cases items' with
    | nil => cases empty.mpr rfl
    | cons item' items' => exact same

theorem eq_nil_iff_of_length {α : Type} {items items' : List α}
    (same : items.length = items'.length) :
    items = [] ↔ items' = [] := by
  rw [← List.length_eq_zero_iff, same, List.length_eq_zero_iff]

theorem classTable_tags {classes classes' : List ClassReport}
    (same : classes.length = classes'.length) :
    SameTags (classTable classes) (classTable classes') :=
  .unlessEmpty (eq_nil_iff_of_length same) (table_tags _ (rows_of_length (fun _ _ => rfl) same))

theorem skippedBadge_tags {skipped skipped' : List SkippedReport}
    (empty : skipped = [] ↔ skipped' = []) :
    SameTags (skippedBadge skipped) (skippedBadge skipped') :=
  .unlessEmpty empty (.markup (closed_ofList _ rfl) (badge_tags ..))

theorem messages_tags (title column : String) {items items' : List String}
    (same : items.length = items'.length) :
    SameTags (messages title column items) (messages title column items') :=
  .unlessEmpty (eq_nil_iff_of_length same)
    ((sectionHeader_tags ..).append (table_tags _ (rows_of_length (fun _ _ => rfl) same)))

theorem archive_tags {a a' : ArchiveReport} (classes : a.classes.length = a'.classes.length)
    (skipped : a.skipped = [] ↔ a'.skipped = []) : SameTags (archive a) (archive a') := by
  have sums : List.Forall₂ (fun row row' => row.length = row'.length)
      [[toString a.assignments, toString a.branches, toString a.conditions]]
      [[toString a'.assignments, toString a'.branches, toString a'.conditions]] := .cons rfl .nil
  exact ((((sectionHeader_tags ..).append (cards_tags a a')).append (table_tags _ sums)).append
    (classTable_tags classes)).append (skippedBadge_tags skipped)

theorem zeroPad_plain (width n : Nat) :
    (Decimal.zeroPad width (toString n)).toList.all isPlain = true := by
  have digits : ∀ c ∈ (toString n).toList, isPlain c = true := by
    intro c member
    have digit : c.isDigit = true := by
      refine Nat.isDigit_of_mem_toDigits (b := 10) (n := n) (by decide) (by decide) ?_
      simpa using member
    refine isPlain_of_ne ?_ ?_ <;> rintro rfl <;> cases digit
  rw [Decimal.zeroPad, String.toList_append, String.toList_ofList,
    List.all_append, List.all_replicate, List.all_eq_true.mpr digits]
  simp [isPlain]

theorem display_plain (m : Moment) : m.display.toList.all isPlain = true := by
  have dash : "-".toList.all isPlain = true := by decide
  have colon : ":".toList.all isPlain = true := by decide
  have blank : " ".toList.all isPlain = true := by decide
  simp only [Moment.display, Moment.date, Moment.time, Moment.two, Moment.four,
    String.toList_append, List.all_append, zeroPad_plain, dash, colon, blank, Bool.and_true]

/-- The same number of archives, listed classes, warnings and errors, and entries skipped in the
same archives. -/
structure SameShape (r r' : Report) : Prop where
  archives : List.Forall₂
    (fun a a' : ArchiveReport =>
      a.classes.length = a'.classes.length ∧
      (a.skipped = [] ↔ a'.skipped = [])) r.archives r'.archives
  warnings : r.warnings.length = r'.warnings.length
  errors : r.errors.length = r'.errors.length

theorem pieces_tags (now now' : Moment) {r r' : Report} (same : SameShape r r') :
    SameTags (pieces now r) (pieces now' r') := by
  have archives : SameTags (r.archives.flatMap archive) (r'.archives.flatMap archive) :=
    .flatMap (same.archives.imp fun _ _ both => archive_tags both.1 both.2)
  exact ((header_tags _ _ _ _ _ _ (display_plain _) (display_plain _)).append
    (page_tags ((archives.append (messages_tags _ _ same.warnings)).append
      (messages_tags _ _ same.errors)))).append footer_tags

/-- The pages of two reports of one shape have one sequence of tags in common, and no `<` or `>`
besides these. -/
theorem page_tags_eq (now now' : Moment) (r r' : Report) (same : SameShape r r') :
    ∃ tags, (∀ found, Tagged (ofReport now r).toList found ↔ found = tags) ∧
      ∀ found, Tagged (ofReport now' r').toList found ↔ found = tags := by
  obtain ⟨tags, tagged, tagged'⟩ := pieces_tags now now' same
  have only : ∀ {page : List Char}, Tagged page tags →
      ∀ found, Tagged page found ↔ found = tags := by
    intro page tagged found
    rw [tagged_iff, tagged_iff.mp tagged, Option.some_inj]
    exact eq_comm
  exact ⟨tags, only tagged, only tagged'⟩

/-- A report in which every text is the same one: an archive with one class, with entries it
skipped, and a warning. -/
def repeating (text : String) (skipped : Nat) : Report where
  archives := [{
    fileName := text, path := text, totalClasses := 1, totalInterfaces := 0,
      maxDepth := 1, averageDepth := 1.0,
    assignments := 0, branches := 0, conditions := 0, magnitude := 0.0,
      averageOverridden := 0.0, averageFields := 0.0,
    entriesScanned := 1 + skipped, skipped := List.replicate skipped ⟨text, text⟩,
    classes := [⟨text, text, [text], false, 1, 0, 0, 0, 0, 0, 0, 0.0⟩], allClasses := [] }]
  summary := ⟨1, 1, 0, 1, skipped⟩
  warnings := [text]
  errors := []
  generatedAt := text
  version := text

/-- A script stays text: it adds no tag to those that a word gives. -/
theorem page_tags_eq_script :
    SameShape (repeating "Shape" 1) (repeating "</td><script>alert('&')</script>" 2) ∧
    ∃ tags,
      (∀ found, Tagged (ofReport ⟨2024, 1, 2, 3, 4, 5⟩ (repeating "Shape" 1)).toList found ↔
        found = tags) ∧
      ∀ found, Tagged (ofReport ⟨2025, 6, 7, 8, 9, 10⟩
          (repeating "</td><script>alert('&')</script>" 2)).toList found ↔
        found = tags := by
  have same : SameShape (repeating "Shape" 1) (repeating "</td><script>alert('&')</script>" 2) := by
    refine ⟨.cons ⟨rfl, ?_⟩ .nil, rfl, rfl⟩
    decide
  exact ⟨same, page_tags_eq _ _ _ _ same⟩

end JarMetrics.Html
