import Mathlib.Algebra.Ring.Nat
import JarMetrics.Proofs.Utf8
import JarMetrics.Report.Csv

/-!
# Tables are read back

A reader of comma-separated values takes one byte after the other. A row ends at a line feed, with
or without a carriage return before it, and the last row may end with the text. Commas part the
cells of a row. A cell that starts with a quote goes on to a quote that stands alone, and two quotes
in it are one; a quote within another cell is an error.

`read_render`: the reader gives back the cells of every table that `render` writes, whatever bytes
are in them. `report_reads_back` says so of reports, with the shape of their rows.
-/

namespace JarMetrics.Csv

/-! ## A reader -/

/-- Where a reader is. -/
inductive Place
  /-- Before the first byte of a row. -/
  | rowStart
  /-- Behind a comma. -/
  | cellStart
  /-- In a cell without quotes. -/
  | plain
  /-- In a cell with quotes. -/
  | quoted
  /-- Behind a quote in a cell with quotes: it ends the cell, or another one follows. -/
  | closing
  /-- Behind a carriage return that a line feed has to follow. -/
  | returned
  deriving Repr, DecidableEq

/-- What a reader has read. -/
structure Reader where
  place : Place := .rowStart
  /-- The cell that is being read. -/
  cell : Cell := []
  /-- The cells of the row before it. -/
  cells : List Cell := []
  /-- The rows before it. -/
  rows : List (List Cell) := []
  deriving Repr, DecidableEq

namespace Reader

/-- The cell is complete, and another one follows. -/
def endCell (r : Reader) : Reader :=
  { place := .cellStart, cells := r.cells ++ [r.cell], rows := r.rows }

/-- The row is complete. -/
def endRow (r : Reader) : Reader := { rows := r.rows ++ [r.cells ++ [r.cell]] }

/-- Read a byte that has to end the cell. -/
def delimit (r : Reader) (b : UInt8) : Option Reader :=
  if b = comma then some r.endCell
  else if b = lineFeed then some r.endRow
  else if b = carriageReturn then some { r with place := .returned }
  else none

/-- Read a byte of a cell without quotes. -/
def takeBare (r : Reader) (b : UInt8) : Option Reader :=
  if isSpecial b then r.delimit b else some { r with place := .plain, cell := r.cell ++ [b] }

/-- Read a byte. -/
def step (r : Reader) (b : UInt8) : Option Reader :=
  match r.place with
  | .rowStart | .cellStart => if b = quote then some { r with place := .quoted } else r.takeBare b
  | .plain => r.takeBare b
  | .quoted =>
      if b = quote then some { r with place := .closing } else some { r with cell := r.cell ++ [b] }
  | .closing =>
      if b = quote then some { r with place := .quoted, cell := r.cell ++ [quote] } else r.delimit b
  | .returned => if b = lineFeed then some r.endRow else none

/-- The rows at the end of the bytes. -/
def finish (r : Reader) : Option (List (List Cell)) :=
  match r.place with
  | .rowStart => some r.rows
  | .quoted | .returned => none
  | .cellStart | .plain | .closing => some r.endRow.rows

end Reader

/-- Read a table. -/
def read (bytes : List UInt8) : Option (List (List Cell)) :=
  (bytes.foldlM Reader.step {}).bind Reader.finish

/-! ## Reading what was written -/

namespace Reader

variable {r r' r'' : Reader}

/-- Bytes lead a reader on. -/
def Reads (r : Reader) (bytes : List UInt8) (r' : Reader) : Prop := bytes.foldlM step r = some r'

theorem Reads.nil : r.Reads [] r := rfl

theorem Reads.single {b : UInt8} (led : r.step b = some r') : r.Reads [b] r' := by
  simp [Reads, led]

theorem Reads.append {first second : List UInt8} (led : r.Reads first r')
    (led' : r'.Reads second r'') :
    r.Reads (first ++ second) r'' := by
  unfold Reads at led led' ⊢
  rw [List.foldlM_append, led]
  exact led'

/-- The reader with more bytes in its cell. -/
def push (r : Reader) (content : Cell) : Reader := { r with cell := r.cell ++ content }

theorem push_append (r : Reader) (first second : Cell) :
    r.push (first ++ second) = (r.push first).push second := by
  simp [push]

/-- Inside quotes every byte is read as what it was doubled from. -/
theorem reads_doubled (content : Cell) (inside : r.place = .quoted) :
    r.Reads (content.flatMap doubled) (r.push content) := by
  induction content generalizing r with
  | nil => simp [Reads, push]
  | cons b content ih =>
    have one : r.Reads (doubled b) (r.push [b]) := by
      unfold doubled
      by_cases isQuote : b = quote
      · simp [isQuote, Reads, step, inside, push]
      · simp [isQuote, Reads, step, inside, push]
    rw [List.flatMap_cons, ← List.singleton_append, push_append]
    exact one.append (ih inside)

/-- Bytes without a meaning of their own are read as they are. -/
theorem reads_plain (content : Cell) (bare : content.any isSpecial = false)
    (within : r.place = .plain) :
    r.Reads content (r.push content) := by
  induction content generalizing r with
  | nil => simp [Reads, push]
  | cons b content ih =>
    simp only [List.any_cons, Bool.or_eq_false_iff] at bare
    have one : r.step b = some (r.push [b]) := by
      simp [step, takeBare, within, bare.1, push]
    rw [← List.singleton_append, push_append]
    exact (Reads.single one).append (ih bare.2 within)

/-- A reader at the start of a cell. -/
def AtStart (r : Reader) : Prop := (r.place = .rowStart ∨ r.place = .cellStart) ∧ r.cell = []

/-- A reader that has read all of a cell, so that a byte may end it. -/
def Complete (r : Reader) : Prop := ∀ b, b = comma ∨ b = lineFeed → r.step b = r.delimit b

theorem complete_of_place (place : r.place ≠ .quoted ∧ r.place ≠ .returned) : r.Complete := by
  intro b ends
  have special : isSpecial b = true := by
    rcases ends with rfl | rfl <;> decide
  have different : b ≠ quote := by
    rcases ends with rfl | rfl <;> decide
  unfold step takeBare
  cases here : r.place <;> simp_all

theorem reads_quotedCell (content : Cell) (start : r.AtStart) :
    r.Reads (quote :: content.flatMap doubled ++ [quote])
      { r with place := .closing, cell := content } := by
  obtain ⟨place, empty⟩ := start
  have opened : r.step quote = some { r with place := .quoted } := by
    rcases place with here | here <;> simp [step, here]
  have inside := reads_doubled (r := { r with place := .quoted }) content rfl
  have closed : (push { r with place := .quoted } content).step quote =
      some { r with place := .closing, cell := content } := by
    simp [step, push, empty]
  exact ((Reads.single opened).append inside).append (Reads.single closed)

theorem reads_bareCell {b : UInt8} {content : Cell} (bare : (b :: content).any isSpecial = false)
    (start : r.AtStart) :
    r.Reads (b :: content) { r with place := .plain, cell := b :: content } := by
  obtain ⟨place, empty⟩ := start
  simp only [List.any_cons, Bool.or_eq_false_iff] at bare
  have different : b ≠ quote := by
    rintro rfl
    exact absurd bare.1 (by decide)
  have first : r.step b = some { r with place := .plain, cell := [b] } := by
    rcases place with here | here <;> simp [step, here, different, takeBare, bare.1, empty]
  have others := reads_plain (r := { r with place := .plain, cell := [b] }) content bare.2 rfl
  exact (Reads.single first).append others

/-- A cell is read, in quotes or not, and a byte may end it. -/
theorem reads_cell (content : Cell) (start : r.AtStart) :
    ∃ place, r.Reads (Csv.cell content) { r with place, cell := content } ∧
      ({ r with place, cell := content } : Reader).Complete := by
  unfold Csv.cell
  split
  · exact ⟨.closing, reads_quotedCell content start, complete_of_place ⟨nofun, nofun⟩⟩
  · rename_i bare
    cases content with
    | nil =>
      -- nothing is written for an empty cell, so the reader stays where it is
      refine ⟨r.place, ?_, complete_of_place ?_⟩
      · have same : ({ r with cell := [] } : Reader) = r := by rw [← start.2]
        show r.Reads [] { r with cell := [] }
        rw [same]
        exact .nil
      · rcases start.1 with here | here <;> simp [here]
    | cons b content =>
      have unmarked : (b :: content).any isSpecial = false := by
        simp only [needsQuotes, Bool.or_eq_true, not_or, Bool.not_eq_true] at bare
        exact bare.1.2
      exact ⟨.plain, reads_bareCell unmarked start, complete_of_place ⟨nofun, nofun⟩⟩

theorem reads_cell_comma (content : Cell) (start : r.AtStart) :
    r.Reads (Csv.cell content ++ [comma])
      { place := .cellStart, cells := r.cells ++ [content], rows := r.rows } := by
  obtain ⟨place, reads, complete⟩ := reads_cell content start
  refine reads.append (Reads.single ?_)
  rw [complete comma (.inl rfl)]
  simp [delimit, endCell]

theorem reads_cell_lineFeed (content : Cell) (start : r.AtStart) :
    r.Reads (Csv.cell content ++ [lineFeed]) { rows := r.rows ++ [r.cells ++ [content]] } := by
  obtain ⟨place, reads, complete⟩ := reads_cell content start
  refine reads.append (Reads.single ?_)
  rw [complete lineFeed (.inr rfl)]
  simp [delimit, endRow, lineFeed, comma]

/-- A row of which there is at least one cell is read. -/
theorem reads_row {cells : List Cell} (filled : cells ≠ []) (start : r.AtStart) :
    r.Reads (row cells) { rows := r.rows ++ [r.cells ++ cells] } := by
  unfold row
  fun_induction joined cells generalizing r with
  | case1 => exact absurd rfl filled
  | case2 last => exact reads_cell_lineFeed last start
  | case3 first rest more ih =>
    have others := ih (r := { place := .cellStart, cells := r.cells ++ [first], rows := r.rows })
      (fun none => more none) ⟨.inr rfl, rfl⟩
    have read := (reads_cell_comma first start).append others
    simpa using read

theorem reads_render {rows : List (List Cell)} (filled : ∀ cells ∈ rows, cells ≠ [])
    (read : List (List Cell)) :
    Reads { rows := read } (render rows) { rows := read ++ rows } := by
  unfold render
  induction rows generalizing read with
  | nil => simp [Reads]
  | cons cells rows ih =>
    rw [List.flatMap_cons]
    have first :=
      reads_row (r := { rows := read }) (filled cells (List.mem_cons_self)) ⟨.inl rfl, rfl⟩
    have others := ih (fun cells' member => filled cells' (List.mem_cons_of_mem _ member))
      (read ++ [[] ++ cells])
    have both := first.append others
    simpa using both

end Reader

/-- Every table without empty rows is read back, whatever bytes its cells hold. -/
theorem read_render {rows : List (List Cell)} (filled : ∀ cells ∈ rows, cells ≠ []) :
    read (render rows) = some rows := by
  have reads := Reader.reads_render filled []
  unfold Reader.Reads at reads
  unfold read
  rw [reads]
  rfl

-- two cells that need quotes, an empty one, and one with a byte that is no text
example : read (render [[[0x22, 0x2C], [0x0D, 0x0A]], [[], [0x61, 0xFF]]]) =
    some [[[0x22, 0x2C], [0x0D, 0x0A]], [[], [0x61, 0xFF]]] := by
  decide

/-! ## Texts in tables -/

/-- Bytes that are those of a text. -/
def IsText (bytes : List UInt8) : Prop := ∃ content : String, bytes = Utf8.encode content

theorem isText_text (content : String) : IsText (text content) := ⟨content, rfl⟩

theorem isText_nil : IsText [] := isText_text ""

theorem IsText.append {first second : List UInt8} (isText : IsText first)
    (isText' : IsText second) :
    IsText (first ++ second) := by
  obtain ⟨content, rfl⟩ := isText
  obtain ⟨content', rfl⟩ := isText'
  exact ⟨content ++ content', (Utf8.encode_append content content').symm⟩

theorem IsText.flatMap {α : Type} {items : List α} {bytes : α → List UInt8}
    (isText : ∀ item ∈ items, IsText (bytes item)) :
    IsText (items.flatMap bytes) := by
  induction items with
  | nil => exact isText_nil
  | cons item items ih =>
    rw [List.flatMap_cons]
    exact (isText item List.mem_cons_self).append
      (ih fun other member => isText other (List.mem_cons_of_mem _ member))

/-- Doubling quotes doubles whole characters. -/
theorem isText_doubled (ch : Char) : IsText ((String.utf8EncodeChar ch).flatMap doubled) := by
  by_cases isQuote : ch = '"'
  · exact ⟨"\"\"", by rw [isQuote]; rfl⟩
  · have kept : ∀ b ∈ String.utf8EncodeChar ch, doubled b = [b] := by
      rintro b member
      refine if_neg ?_
      rintro rfl
      exact isQuote (Char.toNat_inj.mp (Utf8.toNat_eq_of_mem member (by decide)))
    refine ⟨String.ofList [ch], ?_⟩
    rw [List.flatMap_def, List.map_congr_left kept, ← List.flatMap_def, List.flatMap_singleton']
    simp [Utf8.encode]

theorem isText_cell {content : Cell} (isText : IsText content) : IsText (cell content) := by
  unfold cell
  split
  · have inside : IsText (content.flatMap doubled) := by
      obtain ⟨whole, rfl⟩ := isText
      rw [Utf8.encode, List.flatMap_assoc]
      exact .flatMap fun ch _ => isText_doubled ch
    exact ((isText_text "\"").append inside).append (isText_text "\"")
  · exact isText

theorem isText_row {cells : List Cell} (isText : ∀ content ∈ cells, IsText content) :
    IsText (row cells) := by
  have between : IsText (joined cells) := by
    fun_induction joined cells with
    | case1 => exact isText_nil
    | case2 last => exact isText_cell (isText last List.mem_cons_self)
    | case3 first rest more ih =>
      have others := ih fun content member => isText content (List.mem_cons_of_mem _ member)
      exact (isText_cell (isText first List.mem_cons_self)).append ((isText_text ",").append others)
  exact between.append (isText_text "\n")

/-! ## Reports -/

variable (spell : String → Cell)

/-- The kinds of rows. -/
theorem mem_rows_cases {r : Report} {cells : List Cell} (member : cells ∈ rows spell r) :
    cells = header ∨ (∃ a ∈ r.archives, cells = archiveRow (spell a.fileName) a) ∨
      ∃ a ∈ r.archives, ∃ c ∈ a.classes, cells = classRow (spell a.fileName) (spell c.name) c := by
  unfold rows at member
  rcases List.mem_cons.mp member with rfl | inside
  · exact .inl rfl
  · obtain ⟨a, listed, ofArchive⟩ := List.mem_flatMap.mp inside
    rcases List.mem_cons.mp ofArchive with rfl | ofClass
    · exact .inr (.inl ⟨a, listed, rfl⟩)
    · obtain ⟨c, listed', rfl⟩ := List.mem_map.mp ofClass
      exact .inr (.inr ⟨a, listed, c, listed', rfl⟩)

theorem length_of_mem_rows {r : Report} {cells : List Cell} (member : cells ∈ rows spell r) :
    cells.length = 15 := by
  rcases mem_rows_cases spell member with rfl | ⟨a, -, rfl⟩ | ⟨a, -, c, -, rfl⟩ <;> rfl

theorem length_rows (r : Report) :
    (rows spell r).length = 1 + (r.archives.map fun a => 1 + a.classes.length).sum := by
  unfold rows
  rw [List.length_cons, List.length_flatMap, Nat.add_comm]
  congr 2
  apply List.map_congr_left
  intro a _
  simp [archiveRows, Nat.add_comm]

theorem isText_of_mem_rows {r : Report} {cells : List Cell} (member : cells ∈ rows text r) :
    ∀ content ∈ cells, IsText content := by
  rcases mem_rows_cases text member with rfl | ⟨a, -, rfl⟩ | ⟨a, -, c, -, rfl⟩
  · simp [header, isText_text]
  · simp [archiveRow, number, decimal, isText_text, isText_nil]
  · simp [classRow, number, decimal, isText_text, isText_nil]

/-- A report is the text of its table. -/
theorem encode_ofReport (r : Report) : Utf8.encode (ofReport r) = render (rows text r) := by
  have isText : IsText (render (rows text r)) :=
    .flatMap fun cells member => isText_row (isText_of_mem_rows member)
  obtain ⟨whole, same⟩ := isText
  rw [ofReport, same, Utf8.decode_encode]

/-- The table of a report is read back, whatever bytes its names are spelled with: the head, and
archive by archive its row and one row for each listed class. All rows are as wide as the head, and
a report whose names are texts is written as the bytes of this table. -/
theorem report_reads_back (r : Report) :
    read (render (rows spell r)) =
        some (header :: r.archives.flatMap fun a =>
          archiveRow (spell a.fileName) a ::
            a.classes.map fun c => classRow (spell a.fileName) (spell c.name) c) ∧
      (∀ cells ∈ rows spell r, cells.length = 15) ∧
      (rows spell r).length = 1 + (r.archives.map fun a => 1 + a.classes.length).sum ∧
      Utf8.encode (ofReport r) = render (rows text r) := by
  refine ⟨read_render fun cells member => ?_,
    fun cells => length_of_mem_rows spell, length_rows spell r,
    encode_ofReport r⟩
  have wide := length_of_mem_rows spell member
  rintro rfl
  cases wide

end JarMetrics.Csv
