import Mathlib.Algebra.GroupWithZero.Nat
import Idryx.Go.Trim

/-!
# Package `tabwriter`

`text/tabwriter`, for a writer that pads with blanks, aligns to the left and sets no flag. Cells end at
tabs, lines at newlines; a form feed also ends the table so far; between two bytes `0xFF` nothing ends.

* `Cell`, `Table`, **`scan`**: the lines and cells of what is written;
* `blockWidth`, `printRow`, `printTable`: the padded text;
* `Clean`, **`scan_rowText`**: a line whose fields hold none of these bytes is a row of them;
* **`escape_mem_scan`**, **`countP_sep_le_size`**: what the cells show of what was written;
* **`split_printTable`**: a row without a line end is printed as one line.
-/

namespace Idryx.Tabwriter

/-! ## Reading -/

/-- The text of a cell, and how many runs of it are escaped. -/
structure Cell where
  text : GoString
  escapes : ℕ
  deriving DecidableEq

/-- A cell with no text. -/
def Cell.empty : Cell := ⟨[], 0⟩

/-- `Escape`. -/
def escape : UInt8 := 0xFF

/-- What was written: the cells of the first line, the further lines, and the lines after each form
feed. -/
structure Table where
  cells : List Cell
  rows : List (List Cell)
  sections : List (List (List Cell))
  deriving DecidableEq

namespace Table

/-- A table with no line. -/
def nothing : Table := ⟨[], [], []⟩

/-- A byte of text before the rest; with it, `k` escaped runs start. -/
def push (b : UInt8) (k : ℕ) (t : Table) : Table :=
  match t.cells with
  | [] => { t with cells := [⟨[b], k⟩] }
  | c :: cs => { t with cells := ⟨b :: c.text, c.escapes + k⟩ :: cs }

/-- The end of a cell before the rest. -/
def tab (t : Table) : Table := { t with cells := Cell.empty :: t.cells }

/-- The end of a line before the rest. -/
def newline (t : Table) : Table := { t with cells := [Cell.empty], rows := t.cells :: t.rows }

/-- The end of the table so far before the rest. -/
def formFeed (t : Table) : Table := ⟨[Cell.empty], [], (t.cells :: t.rows) :: t.sections⟩

/-- A line before the rest. -/
def addRow (row : List Cell) (t : Table) : Table := { t with cells := row, rows := t.cells :: t.rows }

/-- All parts of the table, each with its lines. -/
def parts (t : Table) : List (List (List Cell)) := (t.cells :: t.rows) :: t.sections

/-- The number of cells. -/
def size (t : Table) : ℕ := (t.parts.map fun rows => (rows.map List.length).sum).sum

/-- The text of all cells. -/
def text (t : Table) : GoString := t.parts.flatten.flatten.flatMap Cell.text

end Table

/-- `Write` and `Flush`, inside an escaped run or outside. -/
def scan : Bool → GoString → Table
  | _, [] => Table.nothing
  | true, b :: s => (scan (b != escape) s).push b 0
  | false, b :: s =>
    if b = 0x09 ∨ b = 0x0B then (scan false s).tab
    else if b = 0x0A then (scan false s).newline
    else if b = 0x0C then (scan false s).formFeed
    else if b = escape then (scan true s).push b 1
    else (scan false s).push b 0

/-! ## Printing -/

/-- The runes of a cell, less the two bytes around each escaped run. -/
def Cell.width (c : Cell) : ℕ := (Utf8.runes c.text).length - 2 * c.escapes

/-- The width of column `j` at line `i`: that of the widest cell of the block of lines around it that have
a cell there, the last cell of a line aside. -/
def blockWidth (minwidth padding : ℕ) (rows : List (List Cell)) (i j : ℕ) : ℕ :=
  let has (row : List Cell) : Bool := j + 1 < row.length
  let block := ((rows.take i).reverse.takeWhile has) ++ (rows.drop i).takeWhile has
  block.foldl (fun w row => max w ((row.getD j Cell.empty).width + padding)) minwidth

/-- `writeLines`, one line from column `j`: each cell but the last is padded. -/
def printRow (width : ℕ → ℕ) : ℕ → List Cell → GoString
  | _, [] => []
  | _, [c] => c.text
  | j, c :: cs => c.text ++ List.replicate (width j - c.width) 0x20 ++ printRow width (j + 1) cs

/-- `format`: the lines of a part. -/
def printRows (minwidth padding : ℕ) (rows : List (List Cell)) : List GoString :=
  rows.mapIdx fun i row => printRow (blockWidth minwidth padding rows i) 0 row

/-- What the writer prints. -/
def printTable (minwidth padding : ℕ) (t : Table) : GoString :=
  Strings.join (t.parts.flatMap (printRows minwidth padding)) [0x0A]

/-! ## Rows of fields -/

/-- A byte that ends a cell. -/
def sep (b : UInt8) : Bool := b = 0x09 ∨ b = 0x0B ∨ b = 0x0A ∨ b = 0x0C

/-- A text that is a part of one cell. -/
def Clean (s : GoString) : Prop := ∀ b ∈ s, sep b = false ∧ b ≠ escape

theorem Clean.append {s t : GoString} (hs : Clean s) (ht : Clean t) : Clean (s ++ t) :=
  fun b hb => (List.mem_append.mp hb).elim (hs b) (ht b)

/-- The line written for a list of fields. -/
def rowText (fields : List GoString) : GoString := Strings.join fields [0x09] ++ [0x0A]

/-- A field as a cell. -/
def Cell.ofField (f : GoString) : Cell := ⟨f, 0⟩

theorem mem_join_of_mem {fields : List GoString} {f : GoString} (hf : f ∈ fields) {b : UInt8} (hb : b ∈ f)
    {sep : GoString} : b ∈ Strings.join fields sep := by
  induction fields with
  | nil => cases hf
  | cons g fields ih =>
    cases fields with
    | nil =>
      rw [← List.mem_singleton.mp hf]
      simpa [Strings.join] using hb
    | cons h fields =>
      rw [Strings.join, List.intercalate_cons_cons, List.mem_append, List.mem_append]
      rcases List.mem_cons.mp hf with rfl | hf
      · exact Or.inl (Or.inl hb)
      · exact Or.inr (ih hf)

theorem scan_sep (s : GoString) : scan false (0x09 :: s) = (scan false s).tab := by
  rw [scan]
  exact if_pos (Or.inl rfl)

theorem scan_newline (s : GoString) : scan false (0x0A :: s) = (scan false s).newline := by
  rw [scan, if_neg (by decide)]
  exact if_pos rfl

theorem scan_clean {b : UInt8} (hb : sep b = false) (hesc : b ≠ escape) (s : GoString) :
    scan false (b :: s) = (scan false s).push b 0 := by
  simp only [sep, decide_eq_false_iff_not, not_or] at hb
  rw [scan, if_neg (not_or.mpr ⟨hb.1, hb.2.1⟩), if_neg hb.2.2.1, if_neg hb.2.2.2, if_neg hesc]

theorem scan_append {f : GoString} (hf : Clean f) {s : GoString} {c : Cell} {cs : List Cell}
    (h : (scan false s).cells = c :: cs) :
    scan false (f ++ s) = { scan false s with cells := ⟨f ++ c.text, c.escapes⟩ :: cs } := by
  induction f with
  | nil =>
    rw [List.nil_append, List.nil_append, ← h]
  | cons b f ih =>
    obtain ⟨⟨hsep, hesc⟩, hf⟩ := List.forall_mem_cons.mp hf
    rw [List.cons_append, scan_clean hsep hesc, ih hf]
    rfl

/-- **A line of clean fields is a row of them.** -/
theorem scan_rowText {fields : List GoString} (hne : fields ≠ []) (hclean : ∀ f ∈ fields, Clean f)
    (s : GoString) :
    scan false (rowText fields ++ s) = (scan false s).addRow (fields.map Cell.ofField) := by
  induction fields with
  | nil => exact absurd rfl hne
  | cons f fields ih =>
    obtain ⟨hf, hfields⟩ := List.forall_mem_cons.mp hclean
    cases fields with
    | nil =>
      have htext : rowText [f] ++ s = f ++ 0x0A :: s := by simp [rowText, Strings.join]
      rw [htext, scan_append hf (by rw [scan_newline]; rfl), scan_newline]
      simp [Table.newline, Table.addRow, Cell.ofField, Cell.empty]
    | cons g fields =>
      have htext : rowText (f :: g :: fields) ++ s = f ++ 0x09 :: (rowText (g :: fields) ++ s) := by
        simp [rowText, Strings.join, List.intercalate_cons_cons]
      have hrest := ih (by simp) hfields
      have htab : scan false (0x09 :: (rowText (g :: fields) ++ s)) =
          ((scan false s).addRow ((g :: fields).map Cell.ofField)).tab := by
        rw [scan_sep, hrest]
      rw [htext, scan_append hf (by rw [htab]; rfl), htab]
      simp [Table.tab, Table.addRow, Cell.ofField, Cell.empty]

theorem scan_rowTexts {rows : List (List GoString)}
    (h : ∀ fields ∈ rows, fields ≠ [] ∧ ∀ f ∈ fields, Clean f) :
    scan false (rows.flatMap rowText) =
      (rows.map (List.map Cell.ofField)).foldr Table.addRow Table.nothing := by
  induction rows with
  | nil => rfl
  | cons fields rows ih =>
    obtain ⟨⟨hne, hfields⟩, hrows⟩ := List.forall_mem_cons.mp h
    rw [List.flatMap_cons, scan_rowText hne hfields, ih hrows]
    rfl

theorem parts_addRow (row : List Cell) (t : Table) : (t.addRow row).parts =
    (row :: t.cells :: t.rows) :: t.sections := rfl

theorem parts_foldr_addRow (rows : List (List Cell)) :
    (rows.foldr Table.addRow Table.nothing).parts = [rows ++ [[]]] := by
  induction rows with
  | nil => rfl
  | cons row rows ih =>
    rw [List.foldr_cons, parts_addRow]
    rw [Table.parts] at ih
    obtain ⟨hrows, hsections⟩ := List.cons.inj ih
    rw [hrows, hsections]
    rfl

/-! ## What the cells show of the text -/

theorem text_push (b : UInt8) (k : ℕ) (t : Table) : (t.push b k).text = b :: t.text := by
  unfold Table.push
  split <;> simp_all [Table.text, Table.parts]

theorem text_tab (t : Table) : t.tab.text = t.text := by
  simp [Table.text, Table.parts, Table.tab, Cell.empty]

theorem text_newline (t : Table) : t.newline.text = t.text := by
  simp [Table.text, Table.parts, Table.newline, Cell.empty]

theorem text_formFeed (t : Table) : t.formFeed.text = t.text := by
  simp [Table.text, Table.parts, Table.formFeed, Cell.empty]

theorem escape_mem_scan {s : GoString} (h : escape ∈ s) (esc : Bool) : escape ∈ (scan esc s).text := by
  induction s generalizing esc with
  | nil => cases h
  | cons b s ih =>
    have hrest (k : ℕ) (esc' : Bool) : escape ∈ ((scan esc' s).push b k).text := by
      rw [text_push]
      rcases List.mem_cons.mp h with rfl | h
      · exact List.mem_cons_self
      · exact List.mem_cons_of_mem b (ih h esc')
    have hskip (hb : b ≠ escape) : escape ∈ (scan false s).text :=
      ih ((List.mem_cons.mp h).resolve_left (Ne.symm hb)) false
    cases esc with
    | true => exact hrest 0 _
    | false =>
      rw [scan]
      split_ifs with htab hnl hff hesc
      · rw [text_tab]
        exact hskip (by rcases htab with rfl | rfl <;> decide)
      · rw [text_newline]
        exact hskip (by rw [hnl]; decide)
      · rw [text_formFeed]
        exact hskip (by rw [hff]; decide)
      · exact hrest 1 true
      · exact hrest 0 false

theorem size_le_push (b : UInt8) (k : ℕ) (t : Table) : t.size ≤ (t.push b k).size := by
  unfold Table.push
  split <;> simp_all [Table.size, Table.parts]

theorem size_tab (t : Table) : t.tab.size = t.size + 1 := by
  simp only [Table.size, Table.parts, Table.tab, List.map_cons, List.sum_cons, List.length_cons]
  omega

theorem size_newline (t : Table) : t.newline.size = t.size + 1 := by
  simp only [Table.size, Table.parts, Table.newline, List.map_cons, List.sum_cons, List.length_cons,
    List.length_nil]
  omega

theorem size_formFeed (t : Table) : t.formFeed.size = t.size + 1 := by
  simp only [Table.size, Table.parts, Table.formFeed, List.map_cons, List.map_nil, List.sum_cons,
    List.sum_nil, List.length_cons, List.length_nil]
  omega

theorem countP_sep_le_size {s : GoString} (h : escape ∉ s) : s.countP sep ≤ (scan false s).size := by
  induction s with
  | nil => exact Nat.zero_le _
  | cons b s ih =>
    rw [List.mem_cons, not_or] at h
    have hrest := ih h.2
    have hcount : (b :: s).countP sep ≤ s.countP sep + 1 := by
      rw [List.countP_cons]
      split <;> omega
    rw [scan]
    split_ifs with htab hnl hff hesc
    · rw [size_tab]
      omega
    · rw [size_newline]
      omega
    · rw [size_formFeed]
      omega
    · exact absurd hesc (Ne.symm h.1)
    · have hb : sep b = false := by
        simp only [sep, decide_eq_false_iff_not, not_or]
        exact ⟨fun h => htab (Or.inl h), fun h => htab (Or.inr h), hnl, hff⟩
      rw [List.countP_cons_of_neg (by rw [hb]; exact Bool.false_ne_true)]
      exact hrest.trans (size_le_push b 0 _)

theorem countP_sep_rowText {fields : List GoString} (hne : fields ≠ []) :
    (rowText fields).countP sep = fields.length + (fields.map (List.countP sep)).sum := by
  induction fields with
  | nil => exact absurd rfl hne
  | cons f fields ih =>
    cases fields with
    | nil =>
      have htext : rowText [f] = f ++ [0x0A] := by simp [rowText, Strings.join]
      rw [htext, List.countP_append, List.map_singleton, List.sum_singleton]
      exact Nat.add_comm _ _
    | cons g fields =>
      have htext : rowText (f :: g :: fields) = f ++ 0x09 :: rowText (g :: fields) := by
        simp [rowText, Strings.join, List.intercalate_cons_cons]
      rw [htext, List.countP_append, List.countP_cons_of_pos (by decide), ih (by simp)]
      simp only [List.length_cons, List.map_cons, List.sum_cons]
      omega

theorem countP_sep_rowTexts {rows : List (List GoString)} (hne : ∀ fields ∈ rows, fields ≠ []) :
    (rows.flatMap rowText).countP sep =
      (rows.map List.length).sum + (rows.flatten.map (List.countP sep)).sum := by
  induction rows with
  | nil => rfl
  | cons fields rows ih =>
    obtain ⟨hfields, hrows⟩ := List.forall_mem_cons.mp hne
    rw [List.flatMap_cons, List.countP_append, countP_sep_rowText hfields, ih hrows]
    simp only [List.map_cons, List.sum_cons, List.flatten_cons, List.map_append, List.sum_append]
    omega

theorem text_of_parts {t : Table} {table : List (List Cell)} (ht : t.parts = [table ++ [[]]]) :
    t.text = table.flatten.flatMap Cell.text := by
  simp [Table.text, ht]

theorem size_of_parts {t : Table} {table : List (List Cell)} (ht : t.parts = [table ++ [[]]]) :
    t.size = (table.map List.length).sum := by
  simp [Table.size, ht]

/-- **Fields that are read as no more cells than they are, none with a byte `0xFF`, are clean.** -/
theorem clean_of_scan {rows : List (List GoString)} (hne : ∀ fields ∈ rows, fields ≠ [])
    {table : List (List Cell)} (hparts : (scan false (rows.flatMap rowText)).parts = [table ++ [[]]])
    (hsize : (table.map List.length).sum ≤ (rows.map List.length).sum)
    (hesc : ∀ row ∈ table, ∀ c ∈ row, escape ∉ c.text) : ∀ fields ∈ rows, ∀ f ∈ fields, Clean f := by
  have hno : escape ∉ rows.flatMap rowText := by
    intro h
    have hmem := escape_mem_scan h false
    rw [text_of_parts hparts, List.mem_flatMap] at hmem
    obtain ⟨c, hc, hmem⟩ := hmem
    obtain ⟨row, hrow, hc⟩ := List.mem_flatten.mp hc
    exact hesc row hrow c hc hmem
  have hcount := countP_sep_le_size hno
  rw [size_of_parts hparts, countP_sep_rowTexts hne] at hcount
  have hzero : (rows.flatten.map (List.countP sep)).sum = 0 := by omega
  intro fields hfields f hf b hb
  have hf0 : f.countP sep = 0 := by
    rw [List.sum_eq_zero_iff_forall_eq_nat] at hzero
    exact hzero _ (List.mem_map_of_mem (List.mem_flatten_of_mem hfields hf))
  refine ⟨Bool.eq_false_iff.mpr (List.countP_eq_zero.mp hf0 b hb), fun hbe => hno ?_⟩
  rw [List.mem_flatMap]
  refine ⟨fields, hfields, List.mem_append_left _ ?_⟩
  exact hbe ▸ mem_join_of_mem hf hb

/-! ## Printed lines -/

/-- The cells of a row, each but the last with blanks after it. -/
def Laid : List Cell → GoString → Prop
  | [], line => line = []
  | [c], line => line = c.text
  | c :: cs, line => ∃ k rest, line = c.text ++ List.replicate k 0x20 ++ rest ∧ Laid cs rest

theorem laid_printRow (width : ℕ → ℕ) (j : ℕ) (row : List Cell) : Laid row (printRow width j row) := by
  induction row generalizing j with
  | nil => rfl
  | cons c cs ih =>
    cases cs with
    | nil => rfl
    | cons d ds => exact ⟨width j - c.width, printRow width (j + 1) (d :: ds), rfl, ih (j + 1)⟩

theorem newline_not_mem_of_laid {row : List Cell} (h : ∀ c ∈ row, (0x0A : UInt8) ∉ c.text)
    {line : GoString} (hline : Laid row line) : (0x0A : UInt8) ∉ line := by
  induction row generalizing line with
  | nil =>
    rw [show line = [] from hline]
    exact List.not_mem_nil
  | cons c cs ih =>
    obtain ⟨hc, hcs⟩ := List.forall_mem_cons.mp h
    cases cs with
    | nil =>
      rw [show line = c.text from hline]
      exact hc
    | cons d ds =>
      obtain ⟨k, rest, rfl, hrest⟩ := hline
      rw [List.mem_append, List.mem_append, not_or, not_or]
      refine ⟨⟨hc, fun hmem => ?_⟩, ih hcs hrest⟩
      exact absurd (List.eq_of_mem_replicate hmem) (by decide)

theorem forall₂_laid (width : ℕ → ℕ → ℕ) (rows : List (List Cell)) :
    List.Forall₂ Laid rows (rows.mapIdx fun i row => printRow (width i) 0 row) := by
  rw [List.forall₂_iff_get]
  refine ⟨List.length_mapIdx.symm, fun i hi hi' => ?_⟩
  simp only [List.get_eq_getElem, List.getElem_mapIdx]
  exact laid_printRow _ 0 _

/-- **Rows without a line end are printed as one line each.** -/
theorem split_printTable {rows : List (List Cell)} (h : ∀ row ∈ rows, ∀ c ∈ row, (0x0A : UInt8) ∉ c.text)
    {t : Table} (ht : t.parts = [rows ++ [[]]]) (minwidth padding : ℕ) :
    ∃ lines, Strings.split (printTable minwidth padding t) 0x0A = lines ++ [[]] ∧
      List.Forall₂ Laid rows lines := by
  let width (i : ℕ) := blockWidth minwidth padding (rows ++ [[]]) i
  have hlaid := forall₂_laid width rows
  refine ⟨rows.mapIdx fun i row => printRow (width i) 0 row, ?_, hlaid⟩
  have hprint : t.parts.flatMap (printRows minwidth padding) =
      (rows.mapIdx fun i row => printRow (width i) 0 row) ++ [[]] := by
    rw [ht, List.flatMap_cons, List.flatMap_nil, List.append_nil, printRows, List.mapIdx_concat]
    rfl
  rw [printTable, hprint]
  refine Strings.split_join (by simp) fun line hline => ?_
  rcases List.mem_append.mp hline with hline | hline
  · obtain ⟨i, hi, rfl⟩ := List.mem_mapIdx.mp hline
    exact newline_not_mem_of_laid (h _ (List.getElem_mem hi)) (laid_printRow (width i) 0 _)
  · rw [List.mem_singleton.mp hline]
    exact List.not_mem_nil

end Idryx.Tabwriter
