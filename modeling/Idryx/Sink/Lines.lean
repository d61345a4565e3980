import Idryx.Go.Tabwriter
import Idryx.Go.Numerals
import Idryx.Go.Time
import Idryx.Go.Utf8
import Idryx.Model
import Mathlib.Algebra.BigOperators.Group.List.Defs

/-!
# Alerts as lines of text

`Slack.Send` of `internal/sink/slack.go` and `Human` of `internal/report/report.go`: a message with a line
for each alert, and a table with a row for each. Neither changes what an alert says.

* `slackSend`, `sortAlerts`, `human`;
* `Plain`, `Neutral`: a text as a sink that gives a meaning to some characters takes it;
* **`slack_oneLine_iff`**, **`human_oneRow_iff`**: one line for each alert, with nothing in it that the
  sink gives a meaning to, exactly where no field holds such a character;
* **`alerts_oneLine_iff`**, and `forged_line`: the two together, and a summary that forges an alert.
-/

namespace Idryx.Sink

/-! ## Slack -/

/-- `AtLeast`: the alerts at or above a severity. -/
def atLeast (alerts : List Alert) (min : Severity) : List Alert :=
  alerts.filter fun a => min.rank ≤ a.severity.rank

/-- The line for an alert with these texts in its fields. -/
def slackRow (severity : Severity) (detector identityID summary : GoString) : GoString :=
  ("• [" : GoString) ++ severity.string ++ ("] `" : GoString) ++ detector ++ ("` " : GoString) ++ identityID ++
    (" — " : GoString) ++ summary

/-- The first line of a message, and the line of an alert. -/
def slackHeader (n : ℕ) : GoString := ("*idryx: " : GoString) ++ Strconv.itoa n ++ (" alert(s)*" : GoString)

@[inherit_doc slackHeader]
def slackLine (a : Alert) : GoString :=
  slackRow a.severity a.detector a.identityID a.summary ++ ("\n" : GoString)

/-- `Slack.Send`: the text it posts, if it posts. -/
def slackSend (min : Severity) (alerts : List Alert) : Option GoString :=
  let alerts := atLeast alerts min
  if alerts = [] then none
  else some (slackHeader alerts.length ++ ("\n" : GoString) ++ alerts.flatMap slackLine)

/-! ## The report -/

/-- The order of the report: severity, then time, then detector. -/
def less (a b : Alert) : Bool :=
  if a.severity ≠ b.severity then b.severity.rank < a.severity.rank
  else if a.time.instant ≠ b.time.instant then a.time.instant < b.time.instant
  else a.detector < b.detector

/-- `sortAlerts`. -/
def sortAlerts (alerts : List Alert) : List Alert := alerts.insertionSort fun a b => less b a = false

/-- `t.UTC().Format("2006-01-02 15:04Z")`. -/
def formatMinutes (t : Time) : GoString :=
  let (year, month, day) := Time.civil (t.ext / 86400)
  let sec := (t.ext % 86400).toNat
  (if year < 0 then ("-" : GoString) else "") ++ Time.pad 4 year.natAbs ++ "-" ++ Time.pad 2 month ++ "-" ++
    Time.pad 2 day ++ " " ++ Time.pad 2 (sec / 3600) ++ ":" ++ Time.pad 2 (sec / 60 % 60) ++ "Z"

/-- The heads of the columns. -/
def columns : List GoString := ["SEVERITY", "DETECTOR", "IDENTITY", "TIME", "DETAIL"]

/-- The fields of an alert as they are written to the table. -/
def fields (a : Alert) : List GoString :=
  [a.severity.string, a.detector, a.identityID, formatMinutes a.time, a.summary]

/-- The line over the table. -/
def countLine (n : ℕ) : GoString := ("idryx: " : GoString) ++ Strconv.itoa n ++ (" alert(s)" : GoString)

/-- What `Human` writes to the table. -/
def tableText (alerts : List Alert) : GoString :=
  (columns :: (sortAlerts alerts).map fields).flatMap Tabwriter.rowText

/-- `Human`. -/
def human (alerts : List Alert) : GoString :=
  countLine (sortAlerts alerts).length ++ ("\n\n" : GoString) ++
    if sortAlerts alerts = [] then ("No threats detected.\n" : GoString)
    else Tabwriter.printTable 0 2 (Tabwriter.scan false (tableText alerts))

/-! ## Texts a sink takes as they are -/

/-- No character of the text is one the sink gives a meaning to. -/
def Plain (K : ℕ → Prop) (s : GoString) : Prop := ∀ r ∈ Utf8.chars s, ¬ K r

/-- `t` is `s` neutralised: it is plain, and it is `s` itself where that is plain already. -/
def Neutral (P : GoString → Prop) (s t : GoString) : Prop := P t ∧ (P s → t = s)

/-- The texts an alert brings. -/
def texts (a : Alert) : List GoString := [a.detector, a.identityID, a.summary]

theorem Neutral.self {P : GoString → Prop} {s : GoString} (h : P s) : Neutral P s s := ⟨h, fun _ => rfl⟩

/-- One line for each alert at or above the threshold, in order, after the header. -/
def SlackOneLine (K : ℕ → Prop) (min : Severity) (alerts : List Alert) : Prop :=
  ∀ text, slackSend min alerts = some text → ∃ lines,
    Strings.split text 0x0A = slackHeader (atLeast alerts min).length :: lines ++ [[]] ∧
    List.Forall₂ (fun a line => ∃ d i s, Neutral (Plain K) a.detector d ∧ Neutral (Plain K) a.identityID i ∧
      Neutral (Plain K) a.summary s ∧ line = slackRow a.severity d i s) (atLeast alerts min) lines

/-- A text that can stand in a cell of the table: also without the byte that starts an escaped run. -/
def PlainCell (K : ℕ → Prop) (s : GoString) : Prop := Plain K s ∧ Tabwriter.escape ∉ s

/-- One row for each alert, in order, under the columns: as the table is read, and as it is printed. -/
def HumanOneRow (K : ℕ → Prop) (alerts : List Alert) : Prop :=
  alerts ≠ [] → ∃ rows lines,
    (Tabwriter.scan false (tableText alerts)).parts = [columns.map Tabwriter.Cell.ofField :: rows ++ [[]]] ∧
    List.Forall₂ (fun a row => ∃ d i s, Neutral (PlainCell K) a.detector d ∧
      Neutral (PlainCell K) a.identityID i ∧ Neutral (PlainCell K) a.summary s ∧
      row = [a.severity.string, d, i, formatMinutes a.time, s].map Tabwriter.Cell.ofField)
      (sortAlerts alerts) rows ∧
    Strings.split (human alerts) 0x0A = countLine alerts.length :: [] :: lines ++ [[]] ∧
    List.Forall₂ Tabwriter.Laid (columns.map Tabwriter.Cell.ofField :: rows) lines

/-! ## Characters of a text -/

theorem chars_append_of_head {z : GoString} (hz : ∀ b ∈ z.head?, Utf8.isCont b = false) (y : GoString) :
    Utf8.chars (y ++ z) = Utf8.chars y ++ Utf8.chars z := by
  rw [Utf8.chars, Utf8.runes_append hz, List.map_append]
  rfl

theorem mem_chars {s : GoString} {b : UInt8} (hb : b < 0x80) (h : b ∈ s) : b.toNat ∈ Utf8.chars s := by
  obtain ⟨x, y, rfl⟩ := List.append_of_mem h
  have hcont : Utf8.isCont b = false := by
    simp only [Utf8.isCont, Bool.and_eq_false_iff, decide_eq_false_iff_not, UInt8.not_le]
    exact Or.inl hb
  rw [chars_append_of_head (by simpa using hcont), List.mem_append]
  refine Or.inr ?_
  rw [Utf8.chars, Utf8.runes_ascii_cons hb, List.map_cons]
  exact List.mem_cons_self

theorem Plain.not_mem {K : ℕ → Prop} {s : GoString} (h : Plain K s) {b : UInt8} (hb : b < 0x80)
    (hK : K b.toNat) : b ∉ s := fun hmem => h _ (mem_chars hb hmem) hK

/-! ## One line for each alert -/

theorem split_flatMap {lines : List GoString} {b : UInt8} (h : ∀ line ∈ lines, b ∉ line) :
    Strings.split (lines.flatMap (· ++ [b])) b = lines ++ [[]] := by
  induction lines with
  | nil => rfl
  | cons line lines ih =>
    obtain ⟨hline, hlines⟩ := List.forall_mem_cons.mp h
    rw [List.flatMap_cons, List.append_assoc, List.singleton_append, Strings.split_append hline, ih hlines]
    rfl

theorem join_concat_nil (lines : List GoString) (b : UInt8) :
    Strings.join (lines ++ [[]]) [b] = lines.flatMap (· ++ [b]) := by
  induction lines with
  | nil => rfl
  | cons line lines ih =>
    have hne : lines ++ [([] : GoString)] ≠ [] := by simp
    obtain ⟨x, xs, hx⟩ := List.exists_cons_of_ne_nil hne
    rw [hx] at ih
    rw [List.cons_append, hx, Strings.join, List.intercalate_cons_cons, List.flatMap_cons, ← ih]
    rfl

theorem eq_of_flatMap_eq {lines lines' : List GoString} {b : UInt8} (hlen : lines.length = lines'.length)
    (h' : ∀ line ∈ lines', b ∉ line) (h : lines.flatMap (· ++ [b]) = lines'.flatMap (· ++ [b])) :
    lines = lines' := by
  have hcount (ls : List GoString) :
      (ls.flatMap (· ++ [b])).count b = (ls.map (List.count b)).sum + ls.length := by
    induction ls with
    | nil => rfl
    | cons line ls ih =>
      rw [List.flatMap_cons, List.count_append, ih, List.count_append, List.count_singleton_self]
      simp only [List.map_cons, List.sum_cons, List.length_cons]
      omega
  have hzero' : (lines'.map (List.count b)).sum = 0 := by
    rw [List.sum_eq_zero_iff_forall_eq_nat]
    intro n hn
    obtain ⟨line, hline, rfl⟩ := List.mem_map.mp hn
    exact List.count_eq_zero.mpr (h' line hline)
  have hzero : (lines.map (List.count b)).sum = 0 := by
    have := congrArg (List.count b) h
    rw [hcount, hcount] at this
    omega
  rw [List.sum_eq_zero_iff_forall_eq_nat] at hzero
  have hlines : ∀ line ∈ lines, b ∉ line := fun line hline =>
    List.count_eq_zero.mp (hzero _ (List.mem_map_of_mem hline))
  have hsplit := congrArg (fun text : GoString => Strings.split text b) h
  rw [split_flatMap hlines, split_flatMap h'] at hsplit
  exact List.append_cancel_right hsplit

/-! ## Slack -/

/-- The line up to the detector. -/
def slackMark (severity : Severity) : GoString :=
  ("• [" : GoString) ++ severity.string ++ ("] `" : GoString)

theorem slackRow_eq (severity : Severity) (d i s : GoString) : slackRow severity d i s =
    slackMark severity ++ (d ++ (("` " : GoString) ++ (i ++ ((" — " : GoString) ++ s)))) := by
  simp only [slackRow, slackMark, List.append_assoc]

theorem valid_slackMark (severity : Severity) : Utf8.valid (slackMark severity) = true := by
  cases severity <;> decide +kernel

theorem chars_slackRow (severity : Severity) (d i s : GoString) : Utf8.chars (slackRow severity d i s) =
    Utf8.chars (slackMark severity) ++ (Utf8.chars d ++ (Utf8.chars ("` " : GoString) ++ (Utf8.chars i ++
      (Utf8.chars (" — " : GoString) ++ Utf8.chars s)))) := by
  have hend : ∀ b ∈ (("` " : GoString) ++ (i ++ ((" — " : GoString) ++ s))).head?, Utf8.isCont b = false := by
    intro b hb
    obtain rfl := Option.some.inj hb
    decide
  have hsep : ∀ b ∈ ((" — " : GoString) ++ s).head?, Utf8.isCont b = false := by
    intro b hb
    obtain rfl := Option.some.inj hb
    decide
  rw [slackRow_eq, Utf8.chars_append (valid_slackMark severity), chars_append_of_head hend,
    Utf8.chars_append (by decide), chars_append_of_head hsep, Utf8.chars_append (by decide)]

theorem plain_of_slackRow {K : ℕ → Prop} {severity : Severity} {d i s d' i' s' : GoString}
    (hd : Plain K d) (hi : Plain K i) (hs : Plain K s)
    (h : slackRow severity d' i' s' = slackRow severity d i s) : Plain K d' ∧ Plain K i' ∧ Plain K s' := by
  classical
  have hcount := congrArg (fun text : GoString => (Utf8.chars text).countP (K ·)) h
  have hzero {s : GoString} (hs : Plain K s) : (Utf8.chars s).countP (K ·) = 0 :=
    List.countP_eq_zero.mpr fun r hr => by simpa using hs r hr
  have hplain {s : GoString} (hs : (Utf8.chars s).countP (K ·) = 0) : Plain K s := fun r hr => by
    simpa using List.countP_eq_zero.mp hs r hr
  simp only [chars_slackRow, List.countP_append, hzero hd, hzero hi, hzero hs] at hcount
  exact ⟨hplain (by omega), hplain (by omega), hplain (by omega)⟩

theorem newline_not_mem_slackRow {severity : Severity} {d i s : GoString} (hd : (0x0A : UInt8) ∉ d)
    (hi : (0x0A : UInt8) ∉ i) (hs : (0x0A : UInt8) ∉ s) : (0x0A : UInt8) ∉ slackRow severity d i s := by
  have hmark : (0x0A : UInt8) ∉ slackMark severity := by
    cases severity <;> decide
  have hend : (0x0A : UInt8) ∉ ("` " : GoString) := by decide
  have hsep : (0x0A : UInt8) ∉ (" — " : GoString) := by decide
  simp only [slackRow_eq, List.mem_append, not_or]
  exact ⟨hmark, hd, hend, hi, hsep, hs⟩

theorem newline_not_mem_itoa (n : ℕ) : (0x0A : UInt8) ∉ Strconv.itoa n := fun h =>
  absurd (Strconv.digit_of_mem_itoa h).1 (by decide)

theorem newline_not_mem_slackHeader (n : ℕ) : (0x0A : UInt8) ∉ slackHeader n := by
  have hl : (0x0A : UInt8) ∉ ("*idryx: " : GoString) := by decide
  have hr : (0x0A : UInt8) ∉ (" alert(s)*" : GoString) := by decide
  simp only [slackHeader, List.mem_append, not_or]
  exact ⟨⟨hl, newline_not_mem_itoa n⟩, hr⟩

theorem slackSend_eq_some_iff {min : Severity} {alerts : List Alert} {text : GoString} :
    slackSend min alerts = some text ↔ atLeast alerts min ≠ [] ∧
      (slackHeader (atLeast alerts min).length ::
        (atLeast alerts min).map fun a => slackRow a.severity a.detector a.identityID a.summary).flatMap
          (· ++ [0x0A]) = text := by
  have hline (a : Alert) : slackLine a = slackRow a.severity a.detector a.identityID a.summary ++ [0x0A] := rfl
  have htext : slackHeader (atLeast alerts min).length ++ ("\n" : GoString) ++
      (atLeast alerts min).flatMap slackLine = (slackHeader (atLeast alerts min).length ::
        (atLeast alerts min).map fun a => slackRow a.severity a.detector a.identityID a.summary).flatMap
          (· ++ [0x0A]) := by
    rw [List.flatMap_cons, List.flatMap_map]
    rfl
  unfold slackSend
  dsimp only
  rw [htext]
  split_ifs with hkept
  · simp [hkept]
  · simp [hkept]

/-- **What Slack is sent** has one line for each alert, with nothing in it that Slack gives a meaning to,
exactly where no alert above the threshold brings such a character. -/
theorem slack_oneLine_iff {K : ℕ → Prop} (hK : K 0x0A) (min : Severity) (alerts : List Alert) :
    SlackOneLine K min alerts ↔ ∀ a ∈ atLeast alerts min, ∀ s ∈ texts a, Plain K s := by
  have htexts (a : Alert) : (∀ s ∈ texts a, Plain K s) ↔
      Plain K a.detector ∧ Plain K a.identityID ∧ Plain K a.summary := by simp [texts]
  have hnl {s : GoString} (hs : Plain K s) : (0x0A : UInt8) ∉ s := hs.not_mem (by decide) hK
  simp only [htexts]
  constructor
  · intro h a ha
    obtain ⟨lines, hlines, hshown⟩ := h _ (slackSend_eq_some_iff.mpr ⟨List.ne_nil_of_mem ha, rfl⟩)
    have hno : ∀ line ∈ lines, (0x0A : UInt8) ∉ line := by
      intro line hline
      obtain ⟨i, hi, rfl⟩ := List.getElem_of_mem hline
      obtain ⟨d, i', s, ⟨hd, -⟩, ⟨hi', -⟩, ⟨hs, -⟩, heq⟩ :=
        hshown.get (hshown.length_eq ▸ hi) hi
      rw [List.get_eq_getElem] at heq
      rw [heq]
      exact newline_not_mem_slackRow (hnl hd) (hnl hi') (hnl hs)
    have hjoin := congrArg (fun ls => Strings.join ls [0x0A]) hlines
    rw [Strings.join_split, join_concat_nil, List.flatMap_cons, List.flatMap_cons] at hjoin
    have hrows := eq_of_flatMap_eq (by rw [List.length_map, hshown.length_eq]) hno
      (List.append_cancel_left hjoin)
    obtain ⟨i, hi, rfl⟩ := List.getElem_of_mem ha
    have hi' : i < lines.length := hshown.length_eq ▸ hi
    obtain ⟨d, i', s, ⟨hd, -⟩, ⟨hid, -⟩, ⟨hs, -⟩, heq⟩ := hshown.get hi hi'
    rw [List.get_eq_getElem, List.get_eq_getElem] at heq
    have hrow : lines[i] = slackRow (atLeast alerts min)[i].severity (atLeast alerts min)[i].detector
        (atLeast alerts min)[i].identityID (atLeast alerts min)[i].summary := by
      simp only [← hrows, List.getElem_map]
    exact plain_of_slackRow hd hid hs (hrow.symm.trans heq)
  · intro h text htext
    obtain ⟨-, rfl⟩ := slackSend_eq_some_iff.mp htext
    refine ⟨_, split_flatMap ?_, ?_⟩
    · refine List.forall_mem_cons.mpr ⟨newline_not_mem_slackHeader _, fun line hline => ?_⟩
      obtain ⟨a, ha, rfl⟩ := List.mem_map.mp hline
      obtain ⟨hd, hi, hs⟩ := h a ha
      exact newline_not_mem_slackRow (hnl hd) (hnl hi) (hnl hs)
    · rw [List.forall₂_map_right_iff, List.forall₂_same]
      intro a ha
      obtain ⟨hd, hi, hs⟩ := h a ha
      exact ⟨_, _, _, Neutral.self hd, Neutral.self hi, Neutral.self hs, rfl⟩

/-! ## The report -/

theorem mem_sortAlerts {alerts : List Alert} {a : Alert} : a ∈ sortAlerts alerts ↔ a ∈ alerts :=
  (List.perm_insertionSort _ alerts).mem_iff

theorem sortAlerts_eq_nil_iff {alerts : List Alert} : sortAlerts alerts = [] ↔ alerts = [] := by
  rw [← List.length_eq_zero_iff, sortAlerts, List.length_insertionSort, List.length_eq_zero_iff]

theorem clean_pad (w n : ℕ) : Tabwriter.Clean (Time.pad w n) := by
  have hdigit : ∀ b : UInt8, 0x30 ≤ b.toNat ∧ b.toNat ≤ 0x39 → Tabwriter.sep b = false ∧ b ≠ Tabwriter.escape :=
    forall_byte (by decide +kernel)
  intro b hb
  refine hdigit b ?_
  rcases List.mem_append.mp hb with hb | hb
  · rw [List.eq_of_mem_replicate hb]
    decide
  · exact Strconv.digit_of_mem_itoa hb

theorem clean_formatMinutes (t : Time) : Tabwriter.Clean (formatMinutes t) := by
  have hsign (year : ℤ) : Tabwriter.Clean (if year < 0 then ("-" : GoString) else "") := by
    split_ifs
    · exact forall_mem_of_all (by decide)
    · exact forall_mem_of_all (by decide)
  have hdash : Tabwriter.Clean ("-" : GoString) := forall_mem_of_all (by decide)
  have hblank : Tabwriter.Clean (" " : GoString) := forall_mem_of_all (by decide)
  have hcolon : Tabwriter.Clean (":" : GoString) := forall_mem_of_all (by decide)
  have hzulu : Tabwriter.Clean ("Z" : GoString) := forall_mem_of_all (by decide)
  unfold formatMinutes
  exact ((((((((((hsign _).append (clean_pad _ _)).append hdash).append (clean_pad _ _)).append hdash).append
    (clean_pad _ _)).append hblank).append (clean_pad _ _)).append hcolon).append (clean_pad _ _)).append hzulu

theorem clean_string (s : Severity) : Tabwriter.Clean s.string := by
  cases s <;> exact forall_mem_of_all (by decide)

theorem clean_columns : ∀ f ∈ columns, Tabwriter.Clean f := by
  have htable : ∀ f ∈ columns, f.all (fun b => Tabwriter.sep b = false ∧ b ≠ Tabwriter.escape) = true := by
    decide +kernel
  exact fun f hf => forall_mem_of_all (htable f hf)

theorem PlainCell.clean {K : ℕ → Prop} (hK : ∀ r ∈ [0x09, 0x0A, 0x0B, 0x0C], K r) {s : GoString}
    (h : PlainCell K s) : Tabwriter.Clean s := by
  intro b hb
  have hsep : ∀ b : UInt8, Tabwriter.sep b = true → b < 0x80 ∧ b.toNat ∈ [0x09, 0x0A, 0x0B, 0x0C] :=
    forall_byte (by decide +kernel)
  refine ⟨Bool.eq_false_iff.mpr fun hb' => ?_, fun he => h.2 (he ▸ hb)⟩
  obtain ⟨hlt, hmem⟩ := hsep b hb'
  exact h.1.not_mem hlt (hK _ hmem) hb

theorem newline_not_mem_of_clean {s : GoString} (h : Tabwriter.Clean s) : (0x0A : UInt8) ∉ s := fun hmem =>
  absurd (h _ hmem).1 (by decide)

theorem newline_not_mem_countLine (n : ℕ) : (0x0A : UInt8) ∉ countLine n := by
  have hl : (0x0A : UInt8) ∉ ("idryx: " : GoString) := by decide
  have hr : (0x0A : UInt8) ∉ (" alert(s)" : GoString) := by decide
  simp only [countLine, List.mem_append, not_or]
  exact ⟨⟨hl, newline_not_mem_itoa n⟩, hr⟩

/-- The cells of the rows. -/
def cellRows (alerts : List Alert) : List (List Tabwriter.Cell) :=
  (sortAlerts alerts).map fun a => (fields a).map Tabwriter.Cell.ofField

theorem parts_tableText {alerts : List Alert}
    (h : ∀ a ∈ alerts, ∀ f ∈ fields a, Tabwriter.Clean f) :
    (Tabwriter.scan false (tableText alerts)).parts =
      [columns.map Tabwriter.Cell.ofField :: cellRows alerts ++ [[]]] := by
  rw [tableText, Tabwriter.scan_rowTexts, Tabwriter.parts_foldr_addRow, List.map_cons, List.map_map]
  · rfl
  · refine List.forall_mem_cons.mpr ⟨⟨by simp [columns], clean_columns⟩, fun row hrow => ?_⟩
    obtain ⟨a, ha, rfl⟩ := List.mem_map.mp hrow
    exact ⟨by simp [fields], h a (mem_sortAlerts.mp ha)⟩

theorem clean_fields {a : Alert} (h : ∀ s ∈ texts a, Tabwriter.Clean s) :
    ∀ f ∈ fields a, Tabwriter.Clean f := by
  simp only [texts, List.forall_mem_cons, List.not_mem_nil, false_implies, implies_true, and_true] at h
  simp only [fields, List.forall_mem_cons, List.not_mem_nil, false_implies, implies_true, and_true]
  exact ⟨clean_string _, h.1, h.2.1, clean_formatMinutes _, h.2.2⟩

/-- **A table that is read in clean rows of five cells**, one for each alert, is that of the fields. -/
theorem rows_eq_cellRows {alerts : List Alert} {rows : List (List Tabwriter.Cell)}
    (hparts : (Tabwriter.scan false (tableText alerts)).parts = [columns.map Tabwriter.Cell.ofField :: rows ++ [[]]])
    (hlength : rows.length = (sortAlerts alerts).length)
    (hrow : ∀ row ∈ rows, row.length = 5 ∧ ∀ c ∈ row, Tabwriter.Clean c.text) : rows = cellRows alerts := by
  have hlines : ∀ row ∈ columns :: (sortAlerts alerts).map fields, row.length = 5 := by
    refine List.forall_mem_cons.mpr ⟨rfl, fun row hrow => ?_⟩
    obtain ⟨b, -, rfl⟩ := List.mem_map.mp hrow
    rfl
  have hcells : ∀ row ∈ columns.map Tabwriter.Cell.ofField :: rows, row.length = 5 ∧
      ∀ c ∈ row, Tabwriter.Clean c.text := by
    refine List.forall_mem_cons.mpr ⟨⟨rfl, fun c hc => ?_⟩, hrow⟩
    obtain ⟨f, hf, rfl⟩ := List.mem_map.mp hc
    exact clean_columns f hf
  have hsum {β : Type} {xs : List (List β)} (hxs : ∀ x ∈ xs, x.length = 5) :
      (xs.map List.length).sum = xs.length * 5 := by
    rw [List.sum_eq_card_nsmul _ 5 (List.forall_mem_map.mpr hxs), List.length_map]
    rfl
  -- as many cells as fields: no field is cut
  have hclean : ∀ row ∈ columns :: (sortAlerts alerts).map fields, ∀ f ∈ row, Tabwriter.Clean f := by
    refine Tabwriter.clean_of_scan (fun row hrow => ?_) hparts ?_ fun row hrow c hc hmem => ?_
    · exact List.ne_nil_of_length_pos (by rw [hlines row hrow]; decide)
    · rw [hsum hlines, hsum fun row hrow => (hcells row hrow).1, List.length_cons, List.length_cons,
        List.length_map, hlength]
    · exact ((hcells row hrow).2 c hc _ hmem).2 rfl
  rw [parts_tableText fun a ha => hclean (fields a)
    (List.mem_cons_of_mem _ (List.mem_map_of_mem (mem_sortAlerts.mpr ha)))] at hparts
  simpa using hparts.symm

/-- **Clean fields** are printed in one line for each alert. -/
theorem split_human {alerts : List Alert} (hne : alerts ≠ [])
    (h : ∀ a ∈ alerts, ∀ f ∈ fields a, Tabwriter.Clean f) :
    ∃ lines, Strings.split (human alerts) 0x0A = countLine alerts.length :: [] :: lines ++ [[]] ∧
      List.Forall₂ Tabwriter.Laid (columns.map Tabwriter.Cell.ofField :: cellRows alerts) lines := by
  have hnl : ∀ row ∈ columns.map Tabwriter.Cell.ofField :: cellRows alerts, ∀ c ∈ row,
      (0x0A : UInt8) ∉ c.text := by
    refine List.forall_mem_cons.mpr ⟨fun c hc => ?_, fun row hrow c hc => ?_⟩
    · obtain ⟨f, hf, rfl⟩ := List.mem_map.mp hc
      exact newline_not_mem_of_clean (clean_columns f hf)
    · obtain ⟨a, ha, rfl⟩ := List.mem_map.mp hrow
      obtain ⟨f, hf, rfl⟩ := List.mem_map.mp hc
      exact newline_not_mem_of_clean (h a (mem_sortAlerts.mp ha) f hf)
  obtain ⟨lines, hlines, hlaid⟩ := Tabwriter.split_printTable hnl (parts_tableText h) 0 2
  have hsorted : sortAlerts alerts ≠ [] := fun h => hne (sortAlerts_eq_nil_iff.mp h)
  have hlen : (sortAlerts alerts).length = alerts.length := List.length_insertionSort _ _
  have htext : human alerts = countLine alerts.length ++ 0x0A :: ([] ++ 0x0A ::
      Tabwriter.printTable 0 2 (Tabwriter.scan false (tableText alerts))) := by
    rw [human, if_neg hsorted, hlen, List.append_assoc]
    rfl
  refine ⟨lines, ?_, hlaid⟩
  rw [htext, Strings.split_append (newline_not_mem_countLine _), Strings.split_append List.not_mem_nil, hlines]
  rfl

/-- **The report** has one row for each alert, with nothing in it that the table or the terminal gives a
meaning to, exactly where no alert brings such a character. -/
theorem human_oneRow_iff {K : ℕ → Prop} (hK : ∀ r ∈ [0x09, 0x0A, 0x0B, 0x0C], K r) (alerts : List Alert) :
    HumanOneRow K alerts ↔ ∀ a ∈ alerts, ∀ s ∈ texts a, PlainCell K s := by
  constructor
  · intro h a ha
    obtain ⟨rows, -, hparts, hshown, -, -⟩ := h (List.ne_nil_of_mem ha)
    have hrow : ∀ row ∈ rows, row.length = 5 ∧ ∀ c ∈ row, Tabwriter.Clean c.text := by
      intro row hrow
      obtain ⟨i, hi, rfl⟩ := List.getElem_of_mem hrow
      obtain ⟨d, i', s, ⟨hd, -⟩, ⟨hid, -⟩, ⟨hs, -⟩, heq⟩ := hshown.get (hshown.length_eq ▸ hi) hi
      rw [List.get_eq_getElem] at heq
      rw [heq]
      refine ⟨rfl, ?_⟩
      simp only [List.map_cons, List.map_nil, List.forall_mem_cons, List.not_mem_nil, false_implies,
        implies_true, and_true, Tabwriter.Cell.ofField]
      exact ⟨clean_string _, hd.clean hK, hid.clean hK, clean_formatMinutes _, hs.clean hK⟩
    have hrows := rows_eq_cellRows hparts hshown.length_eq.symm hrow
    rw [hrows, cellRows, List.forall₂_map_right_iff, List.forall₂_same] at hshown
    obtain ⟨d, i, s, ⟨hd, -⟩, ⟨hi, -⟩, ⟨hs, -⟩, heq⟩ := hshown a (mem_sortAlerts.mpr ha)
    simp only [fields, List.map_cons, List.map_nil, Tabwriter.Cell.ofField, List.cons.injEq,
      Tabwriter.Cell.mk.injEq, and_true, true_and] at heq
    simp only [texts, List.forall_mem_cons, List.not_mem_nil, false_implies, implies_true, and_true]
    rw [heq.1, heq.2.1, heq.2.2]
    exact ⟨hd, hi, hs⟩
  · intro h hne
    have hfields : ∀ a ∈ alerts, ∀ f ∈ fields a, Tabwriter.Clean f := fun a ha =>
      clean_fields fun s hs => (h a ha s hs).clean hK
    obtain ⟨lines, hlines, hlaid⟩ := split_human hne hfields
    refine ⟨cellRows alerts, lines, parts_tableText hfields, ?_, hlines, hlaid⟩
    rw [cellRows, List.forall₂_map_right_iff, List.forall₂_same]
    intro a ha
    have ha := h a (mem_sortAlerts.mp ha)
    simp only [texts, List.forall_mem_cons, List.not_mem_nil, false_implies, implies_true, and_true] at ha
    exact ⟨_, _, _, Neutral.self ha.1, Neutral.self ha.2.1, Neutral.self ha.2.2, rfl⟩

/-! ## Both outputs -/

/-- **One alert is one line**, in the message and in the report, exactly where no field of an alert brings a
character the output gives a meaning to: in the report nor the byte that starts an escaped run. -/
theorem alerts_oneLine_iff {K : ℕ → Prop} (hK : ∀ r ∈ [0x09, 0x0A, 0x0B, 0x0C], K r) (min : Severity)
    (alerts : List Alert) :
    (SlackOneLine K min alerts ↔ ∀ a ∈ atLeast alerts min, ∀ s ∈ texts a, Plain K s) ∧
    (HumanOneRow K alerts ↔ ∀ a ∈ alerts, ∀ s ∈ texts a, PlainCell K s) :=
  ⟨slack_oneLine_iff (hK 0x0A (by decide)) min alerts, human_oneRow_iff hK alerts⟩

/-- Control characters, and the three characters of Slack's own markup. -/
def Special (r : ℕ) : Prop := r < 0x20 ∨ r = 0x7F ∨ r ∈ [0x26, 0x3C, 0x3E]

/-- An alert on an identity whose name ends a line and starts another, with a call to the channel. -/
def forgingAlert : Alert where
  detector := "stale_nhi"
  identityID := "svc\n• [critical] `mfa_fatigue` admin — <!channel> call +1 555"
  severity := .high
  time := Time.zero
  summary := "unused 120d"

theorem alerts_oneLine_iff_forging :
    (SlackOneLine Special .high [forgingAlert] ↔
      ∀ a ∈ atLeast [forgingAlert] .high, ∀ s ∈ texts a, Plain Special s) ∧
    (HumanOneRow Special [forgingAlert] ↔ ∀ a ∈ [forgingAlert], ∀ s ∈ texts a, PlainCell Special s) :=
  alerts_oneLine_iff (fun r hr => Or.inl (by revert r; decide)) .high [forgingAlert]

theorem forged_line : ¬ SlackOneLine Special .high [forgingAlert] ∧ ¬ HumanOneRow Special [forgingAlert] := by
  have hnl : (0x0A : UInt8) ∈ forgingAlert.identityID := by decide
  have hmem : forgingAlert.identityID ∈ texts forgingAlert := by simp [texts]
  have hK : ∀ r ∈ [0x09, 0x0A, 0x0B, 0x0C], Special r := fun r hr => Or.inl (by revert r; decide)
  have hplain : ¬ Plain Special forgingAlert.identityID := fun h =>
    h.not_mem (b := 0x0A) (by decide) (Or.inl (by decide)) hnl
  constructor
  · rw [slack_oneLine_iff (hK 0x0A (by decide))]
    exact fun h => hplain (h forgingAlert (List.mem_filter.mpr ⟨List.mem_singleton_self _, rfl⟩) _ hmem)
  · rw [human_oneRow_iff hK]
    exact fun h => hplain (h forgingAlert (List.mem_singleton_self _) _ hmem).1

end Idryx.Sink
