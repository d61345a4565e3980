import Idryx.AiUsage.Build
import Idryx.AiUsage.Terminal

/-!
# The report for a person

`internal/aiusage/render.go`: the report as text, three tables of it aligned by `text/tabwriter`.

* `human`, and the cells of its tables;
* `humanLines`: how many lines the report has;
* **`shown_human`**, **`shown_human_build`**: when the text is quiet and has as many lines.
-/

namespace Idryx.AiUsage

open Utf8

/-! ## Cells -/

/-- `show`: `escape` at the width of a table cell. -/
def showCell (U : Unicode) (s : GoString) : GoString := escape U s 120

/-- The cells of one line of a table, as `fmt.Fprintf` writes them. -/
def tableLine : List GoString → GoString
  | [] => "\n"
  | c :: cs => c ++ cs.flatMap (fun c => ("\t" : GoString) ++ c) ++ "\n"

/-- How a source is called in its row. -/
def Source.name : Source → GoString
  | .declared => "declared"
  | .bus => "bus"
  | .egress => "egress"
  | .ebpf => "ebpf"
  | .code => "code"

/-- The second cell of a source. -/
def SourceRow.state (s : SourceRow) : GoString := if s.present then "present" else "absent"

/-- The sentence for a gap. -/
def gapText : Gap → GoString
  | .agrees => ""
  | .declaredNotSeen => "declared, and not seen reaching it"
  | .declaredBusOnly =>
    "declared; active on the bus, which names no provider, and not seen reaching it directly"
  | .seenNotDeclared => "seen reaching it, and not declared (this subject declares other providers)"
  | .seenNoDeclaration => "seen reaching it; this subject declares nothing to compare with"
  | .declaresNoModels => "declares no model; no source names a provider for it"
  | .noDeclaration => "no declaration loaded; no source names a provider for it"
  | .inCodeNotSeen => "in code, not seen in operation"

/-- A number with its unit, or a dash for none. -/
def count (n : Nat) (unit : GoString) : GoString :=
  if n = 0 then "-"
  else if n = 1 then "1 " ++ unit
  else Strconv.itoa n ++ " " ++ unit ++ "s"

/-- The cell of a provider in the column of the code. -/
def codeCell (r : Row) : GoString := if r.codeSites = 0 then "-" else count r.codeSites "site"

/-- All three columns have the provider. -/
def Row.agrees (r : Row) : Bool := r.declared && r.observed && r.coded

/-- What is missing of a provider. -/
def disagreement (r : Row) : GoString :=
  if r.agrees then ""
  else if r.observed && !r.declared then "reached, and declared by nobody"
  else if r.declared && !r.observed && !r.coded then "declared, and neither reached nor in code"
  else if r.declared && !r.observed then "declared and in code, not observed reaching it"
  else if r.coded && !r.declared then "in code, declared by nobody"
  else "not in every source"

variable (U : Unicode)

/-- The kind of a subject, and how its flows were attributed. -/
def subjectKind (s : SubjectRow) : GoString :=
  if s.attribution = "" then showCell U s.kind
  else showCell U s.kind ++ ", " ++ showCell U s.attribution

/-- A dash for an empty cell. -/
def orDash (s : GoString) : GoString := if s = "" then "-" else s

/-- The cell of the models a subject declares. -/
def declaredCell (s : SubjectRow) : GoString :=
  if 0 < s.models.length then showCell U (Strings.join s.models ", ")
  else if s.declared then "yes"
  else "-"

/-- The events of one source of the bus. -/
def busPart (b : BusCount) : GoString := showCell U b.source ++ " " ++ Strconv.itoa b.events

/-- The cell of what was seen of a subject. -/
def seenCell (s : SubjectRow) : GoString :=
  match s.seen with
  | .egress => showCell U (Strings.join s.via "+" ++ " " ++ Strings.join s.hosts ",")
  | .busOnly => "bus only (" ++ Strings.join (s.bus.map (busPart U)) ", " ++ ")"
  | .none => "-"

/-- The cell of what a scan found of the provider of a subject. -/
def subjectCodeCell (s : SubjectRow) : GoString :=
  match s.code with
  | some .found => count s.codeSites "site"
  | some .notFound => "not found"
  | some .notScanned => "not scanned"
  | none => "-"

/-! ## The report -/

variable (padding : GoString → Nat → Nat)

/-- The heading, and what is said of the code scan. -/
def humanHeading (c : CodeScanRef) : GoString :=
  "AI usage across three sources\n\n" ++
    (if c.present then
      "code scan: " ++ showCell U c.root ++
        (if c.tool ≠ "" then
          " (" ++ showCell U (Strings.trimSpace c.tool) ++
            (if c.generatedAt ≠ "" then ", " ++ showCell U c.generatedAt else "") ++ ")"
        else "") ++ "\n"
    else
      "code scan: none supplied, so the CODE column is not a measurement.\n" ++
        "           run `qryx scan --format ai-inventory <path>` and pass it with --code-scan.\n") ++
    "\n"

/-- The line of a source in its table. -/
def sourceLine (s : SourceRow) : GoString :=
  tableLine [showCell U s.source.name, showCell U s.state, showCell U s.detail]

/-- The table of the sources. -/
def humanSources (sources : List SourceRow) : GoString :=
  if sources = [] then ""
  else
    tabwriter padding ("SOURCE\tSTATE\tWHAT IT HOLDS\n" ++ sources.flatMap (sourceLine U)) ++ "\n"

/-- The provider is written as it is. -/
def providerLine (row : Row) : GoString :=
  tableLine [row.provider, count row.declaredBy.length "agent", count row.observedBy.length "agent",
    codeCell row, disagreement row]

/-- The table of the providers. -/
def humanRows (rows : List Row) : GoString :=
  if rows = [] then "No provider is named by any of the three sources.\n"
  else
    tabwriter padding ("PROVIDER\tDECLARED\tOBSERVED\tIN CODE\tWHERE THEY DISAGREE\n" ++
      rows.flatMap providerLine)

/-- The line of a subject in its table. -/
def subjectLine (s : SubjectRow) : GoString :=
  tableLine [showCell U s.subject, subjectKind U s, orDash (showCell U s.provider), declaredCell U s,
    seenCell U s, subjectCodeCell s, gapText s.gap]

/-- The table of the subjects. -/
def humanSubjects (subjects : List SubjectRow) : GoString :=
  if subjects = [] then ""
  else
    "\nBy agent or service (the CODE column is per provider, for the whole estate, because a scan has no subject):\n" ++
      tabwriter padding ("SUBJECT\tKIND\tPROVIDER\tDECLARED\tSEEN\tCODE\tWHERE THEY DISAGREE\n" ++
        subjects.flatMap (subjectLine U))

/-- The line of a limit. -/
def limitLine (l : GoString) : GoString := "  - " ++ showCell U l ++ "\n"

/-- The list of the limits. -/
def humanLimits (limits : List GoString) : GoString :=
  "\nWhat none of these three can see:\n" ++ limits.flatMap (limitLine U)

/-- The report for a person. -/
def human (r : Report) : GoString :=
  humanHeading U r.codeScan ++ humanSources U padding r.sources ++ humanRows padding r.rows ++
    humanSubjects U padding r.subjects ++ humanLimits U r.limits

/-! ## Its lines -/

/-- How many lines the parts of the report have. -/
def headingLines (present : Bool) : Nat := if present then 4 else 5

@[inherit_doc headingLines]
def sourcesLines (n : Nat) : Nat := if n = 0 then 0 else n + 2

@[inherit_doc headingLines]
def rowsLines (n : Nat) : Nat := n + 1

@[inherit_doc headingLines]
def subjectsLines (n : Nat) : Nat := if n = 0 then 0 else n + 3

/-- How many lines the report has, by the numbers of what it lists. -/
def humanLines (present : Bool) (sources rows subjects limits : Nat) : Nat :=
  headingLines present + sourcesLines sources + rowsLines rows + subjectsLines subjects + (limits + 2)

variable {U padding}

theorem shown_showCell (s : GoString) : Shown U 0 (showCell U s) := shown_escape s 120

theorem shown_count {unit : GoString} (n : Nat) (hu : unit.all printable = true) :
    Shown U 0 (count n unit) := by
  unfold count
  split_ifs
  · exact shown_printable (by decide)
  · exact (shown_printable (s := ("1 " : GoString)) (by decide)).append (shown_printable hu)
  · exact (((shown_itoa n).append (shown_printable (by decide))).append (shown_printable hu)).append
      (shown_printable (by decide))

theorem shown_codeCell (r : Row) : Shown U 0 (codeCell r) := by
  unfold codeCell
  split_ifs
  · exact shown_printable (by decide)
  · exact shown_count _ (by decide)

theorem shown_disagreement (r : Row) : Shown U 0 (disagreement r) := by
  unfold disagreement
  split_ifs
  all_goals exact shown_printable (by decide)

theorem shown_gapText (g : Gap) : Shown U 0 (gapText g) := by
  cases g
  all_goals exact shown_printable (by decide +kernel)

theorem shown_subjectKind (s : SubjectRow) : Shown U 0 (subjectKind U s) := by
  unfold subjectKind
  split_ifs
  · exact shown_showCell _
  · exact ((shown_showCell _).append (shown_printable (by decide))).append (shown_showCell _)

theorem shown_orDash {s : GoString} (hs : Shown U 0 s) : Shown U 0 (orDash s) := by
  unfold orDash
  split_ifs
  · exact shown_printable (by decide)
  · exact hs

theorem shown_declaredCell (s : SubjectRow) : Shown U 0 (declaredCell U s) := by
  unfold declaredCell
  split_ifs
  · exact shown_showCell _
  · exact shown_printable (by decide)
  · exact shown_printable (by decide)

theorem shown_seenCell (s : SubjectRow) : Shown U 0 (seenCell U s) := by
  unfold seenCell
  cases s.seen with
  | egress => exact shown_showCell _
  | busOnly =>
    have hparts : ∀ part ∈ s.bus.map (busPart U), Shown U 0 part := by
      intro part hpart
      obtain ⟨b, -, rfl⟩ := List.mem_map.mp hpart
      exact ((shown_showCell _).append (shown_printable (by decide))).append (shown_itoa _)
    exact ((shown_printable (by decide)).append
      (shown_join hparts (shown_printable (by decide)))).append (shown_printable (by decide))
  | none =>
    show Shown U 0 ("-" : GoString)
    exact shown_printable (by decide)

theorem shown_subjectCodeCell (s : SubjectRow) : Shown U 0 (subjectCodeCell s) := by
  unfold subjectCodeCell
  rcases s.code with _ | _ | _ | _
  · show Shown U 0 ("-" : GoString)
    exact shown_printable (by decide)
  · exact shown_count _ (by decide)
  · show Shown U 0 ("not found" : GoString)
    exact shown_printable (by decide)
  · show Shown U 0 ("not scanned" : GoString)
    exact shown_printable (by decide)

/-! ## The tables -/

theorem tabular_cells {cs : List GoString} (h : ∀ c ∈ cs, Shown U 0 c) :
    valid (cs.flatMap fun c => ("\t" : GoString) ++ c) = true ∧
      Tabular U 0 (cs.flatMap fun c => ("\t" : GoString) ++ c) := by
  have htab : Tame U ("\t" : GoString) := fun c hc => Or.inl (List.mem_singleton.mp hc)
  induction cs with
  | nil => exact ⟨rfl, tabular_nil.mpr rfl⟩
  | cons c cs ih =>
    rw [List.forall_mem_cons] at h
    obtain ⟨hvalid, htabular⟩ := ih h.2
    have hcell : valid (("\t" : GoString) ++ c) = true := h.1.valid
    rw [List.flatMap_cons]
    refine ⟨(valid_append hcell _).trans hvalid, (tabular_append hcell).mpr ⟨0, 0, ?_, htabular, rfl⟩⟩
    exact (tabular_append rfl).mpr ⟨0, 0, tabular_zero.mpr htab, h.1.tabular, rfl⟩

/-- **A line of a table** whose first cell is any valid text, the others being shown. -/
theorem tabular_tableLine {c : GoString} {cs : List GoString} (hc : valid c = true)
    (h : ∀ c ∈ cs, Shown U 0 c) : valid (tableLine (c :: cs)) = true ∧
      ¬ Tabular U 0 (tableLine (c :: cs)) ∧ (Tabular U 1 (tableLine (c :: cs)) ↔ Tame U c) := by
  obtain ⟨hcells, htabular⟩ := tabular_cells h
  have hvalid : valid (c ++ cs.flatMap fun c => ("\t" : GoString) ++ c) = true :=
    (valid_append hc _).trans hcells
  have hend : Tabular U 1 ("\n" : GoString) := (shown_lines (by decide) (by decide)).tabular
  have hline : ∀ n, Tabular U n (tableLine (c :: cs)) ↔ ∃ k, Tabular U k c ∧ k + 1 = n := by
    intro n
    rw [tableLine, tabular_append hvalid]
    constructor
    · rintro ⟨k, l, hk, hl, rfl⟩
      obtain ⟨k₁, k₂, h₁, h₂, rfl⟩ := (tabular_append hc).mp hk
      have hk₂ : 0 = k₂ := htabular.unique h₂
      have hl' : 1 = l := hend.unique hl
      exact ⟨k₁, h₁, by omega⟩
    · rintro ⟨k, hk, rfl⟩
      exact ⟨k, 1, (tabular_append hc).mpr ⟨k, 0, hk, htabular, rfl⟩, hend, rfl⟩
  refine ⟨(valid_append hvalid _).trans rfl, fun h0 => ?_, (hline 1).trans ?_⟩
  · obtain ⟨k, -, hk⟩ := (hline 0).mp h0
    omega
  · rw [← tabular_zero]
    simp

theorem shown_table {α : Type*} {heading : GoString} {f : α → GoString} {xs : List α}
    (hh : valid heading = true) (hone : Tabular U 1 heading)
    (hf : ∀ x ∈ xs, valid (f x) = true ∧ ¬ Tabular U 0 (f x)) :
    Shown U (xs.length + 1) (tabwriter padding (heading ++ xs.flatMap f)) ↔
      ∀ x ∈ xs, Tabular U 1 (f x) := by
  have hlines : valid (xs.flatMap f) = true := valid_flatMap fun x hx => (hf x hx).1
  rw [shown_tabwriter ((valid_append hh _).trans hlines), tabular_append hh,
    ← tabular_flatMap (fun x hx => (hf x hx).1) fun x hx => (hf x hx).2]
  constructor
  · rintro ⟨k, l, hk, hl, hsum⟩
    have hk' : 1 = k := hone.unique hk
    have hl' : l = xs.length := by omega
    exact hl' ▸ hl
  · intro h
    exact ⟨1, xs.length, hone, h, by omega⟩

theorem shown_table_of_shown {α : Type*} {cells : List GoString} {cell : α → GoString}
    {rest : α → List GoString} {xs : List α} {name : GoString} (hname : Shown U 0 name)
    (hcells : ∀ c ∈ cells, Shown U 0 c) (hcell : ∀ x ∈ xs, Shown U 0 (cell x))
    (hrest : ∀ x ∈ xs, ∀ c ∈ rest x, Shown U 0 c) :
    Shown U (xs.length + 1) (tabwriter padding (tableLine (name :: cells) ++
      xs.flatMap fun x => tableLine (cell x :: rest x))) := by
  obtain ⟨hvalid, -, hone⟩ := tabular_tableLine hname.valid hcells
  have hlines : ∀ x ∈ xs, valid (tableLine (cell x :: rest x)) = true ∧
      ¬ Tabular U 0 (tableLine (cell x :: rest x)) ∧
        (Tabular U 1 (tableLine (cell x :: rest x)) ↔ Tame U (cell x)) :=
    fun x hx => tabular_tableLine (hcell x hx).valid (hrest x hx)
  refine (shown_table hvalid (hone.mpr (tabular_zero.mp hname.tabular)) fun x hx =>
    ⟨(hlines x hx).1, (hlines x hx).2.1⟩).mpr fun x hx => ?_
  exact (hlines x hx).2.2.mpr (tabular_zero.mp (hcell x hx).tabular)

/-! ## The report is quiet -/

theorem shown_heading (c : CodeScanRef) :
    Shown U (headingLines c.present) (humanHeading U c) := by
  have htitle : Shown U 2 ("AI usage across three sources\n\n" : GoString) :=
    shown_lines (by decide) (by decide)
  have hnl : Shown U 1 ("\n" : GoString) := shown_lines (by decide) (by decide)
  have hlabel : Shown U 0 ("code scan: " : GoString) := shown_printable (by decide)
  have hopen : Shown U 0 (" (" : GoString) := shown_printable (by decide)
  have hcomma : Shown U 0 (", " : GoString) := shown_printable (by decide)
  have hclose : Shown U 0 (")" : GoString) := shown_printable (by decide)
  have hnil : Shown U 0 ("" : GoString) := shown_nil
  unfold humanHeading headingLines
  split_ifs with hp htool hgen
  · exact (htitle.append (((hlabel.append (shown_showCell _)).append (((hopen.append
      (shown_showCell _)).append (hcomma.append (shown_showCell _))).append hclose)).append hnl)).append
        hnl
  · exact (htitle.append (((hlabel.append (shown_showCell _)).append (((hopen.append
      (shown_showCell _)).append hnil).append hclose)).append hnl)).append hnl
  · exact (htitle.append (((hlabel.append (shown_showCell _)).append hnil).append hnl)).append hnl
  · have hnone : Shown U 2 (("code scan: none supplied, so the CODE column is not a measurement.\n" :
        GoString) ++ "           run `qryx scan --format ai-inventory <path>` and pass it with --code-scan.\n") :=
      shown_lines (by decide +kernel) (by decide +kernel)
    exact (htitle.append hnone).append hnl

theorem shown_sources (sources : List SourceRow) :
    Shown U (sourcesLines sources.length) (humanSources U padding sources) := by
  unfold humanSources sourcesLines
  by_cases hnil : sources = []
  · rw [if_pos hnil, if_pos (List.length_eq_zero_iff.mpr hnil)]
    exact shown_nil
  · rw [if_neg hnil, if_neg fun h => hnil (List.length_eq_zero_iff.mp h)]
    have hheading : ("SOURCE\tSTATE\tWHAT IT HOLDS\n" : GoString) =
        tableLine ["SOURCE", "STATE", "WHAT IT HOLDS"] := by decide
    have hnl : Shown U 1 ("\n" : GoString) := shown_lines (by decide) (by decide)
    have hname : Shown U 0 ("SOURCE" : GoString) := shown_printable (by decide)
    have htable : Shown U (sources.length + 1) (tabwriter padding
        ("SOURCE\tSTATE\tWHAT IT HOLDS\n" ++ sources.flatMap (sourceLine U))) := by
      rw [hheading]
      refine shown_table_of_shown hname ?_ (fun s _ => shown_showCell (Source.name s.source))
        fun s _ => ?_
      · simp only [List.forall_mem_cons]
        exact ⟨shown_printable (by decide), shown_printable (by decide), by simp⟩
      · simp only [List.forall_mem_cons]
        exact ⟨shown_showCell _, shown_showCell _, by simp⟩
    exact htable.append hnl

theorem shown_subjects (subjects : List SubjectRow) :
    Shown U (subjectsLines subjects.length) (humanSubjects U padding subjects) := by
  unfold humanSubjects subjectsLines
  by_cases hnil : subjects = []
  · rw [if_pos hnil, if_pos (List.length_eq_zero_iff.mpr hnil)]
    exact shown_nil
  · rw [if_neg hnil, if_neg fun h => hnil (List.length_eq_zero_iff.mp h)]
    have hheading : ("SUBJECT\tKIND\tPROVIDER\tDECLARED\tSEEN\tCODE\tWHERE THEY DISAGREE\n" : GoString) =
        tableLine ["SUBJECT", "KIND", "PROVIDER", "DECLARED", "SEEN", "CODE", "WHERE THEY DISAGREE"] := by
      decide +kernel
    have htitle : Shown U 2 ("\nBy agent or service (the CODE column is per provider, for the whole estate, because a scan has no subject):\n" : GoString) :=
      shown_lines (by decide +kernel) (by decide +kernel)
    have hname : Shown U 0 ("SUBJECT" : GoString) := shown_printable (by decide)
    have htable : Shown U (subjects.length + 1) (tabwriter padding
        ("SUBJECT\tKIND\tPROVIDER\tDECLARED\tSEEN\tCODE\tWHERE THEY DISAGREE\n" ++
          subjects.flatMap (subjectLine U))) := by
      rw [hheading]
      refine shown_table_of_shown hname ?_ (fun s _ => shown_showCell (SubjectRow.subject s))
        fun s _ => ?_
      · simp only [List.forall_mem_cons]
        exact ⟨shown_printable (by decide), shown_printable (by decide), shown_printable (by decide),
          shown_printable (by decide), shown_printable (by decide), shown_printable (by decide), by simp⟩
      · simp only [List.forall_mem_cons]
        exact ⟨shown_subjectKind s, shown_orDash (shown_showCell _), shown_declaredCell s,
          shown_seenCell s, shown_subjectCodeCell s, shown_gapText _, by simp⟩
    rw [show subjects.length + 3 = 2 + (subjects.length + 1) by omega]
    exact htitle.append htable

theorem shown_limits (limits : List GoString) :
    Shown U (limits.length + 2) (humanLimits U limits) := by
  have htitle : Shown U 2 ("\nWhat none of these three can see:\n" : GoString) :=
    shown_lines (by decide) (by decide)
  have hlines : Shown U (limits.length * 1) (limits.flatMap (limitLine U)) := by
    have hbullet : Shown U 0 ("  - " : GoString) := shown_printable (by decide)
    have hnl : Shown U 1 ("\n" : GoString) := shown_lines (by decide) (by decide)
    exact shown_flatMap fun l _ => (hbullet.append (shown_showCell l)).append hnl
  rw [Nat.mul_one] at hlines
  rw [Nat.add_comm]
  exact htitle.append hlines

theorem shown_rows {rows : List Row} (hv : ∀ row ∈ rows, valid row.provider = true) :
    valid (humanRows padding rows) = true ∧
      (Shown U (rowsLines rows.length) (humanRows padding rows) ↔
        ∀ row ∈ rows, Tame U row.provider) := by
  unfold humanRows rowsLines
  by_cases hnil : rows = []
  · subst hnil
    have hnone : Shown U 1 ("No provider is named by any of the three sources.\n" : GoString) :=
      shown_lines (by decide) (by decide)
    rw [if_pos rfl]
    exact ⟨hnone.valid, iff_of_true hnone fun row hrow => absurd hrow List.not_mem_nil⟩
  · rw [if_neg hnil]
    have hheading : ("PROVIDER\tDECLARED\tOBSERVED\tIN CODE\tWHERE THEY DISAGREE\n" : GoString) =
        tableLine ["PROVIDER", "DECLARED", "OBSERVED", "IN CODE", "WHERE THEY DISAGREE"] := by decide
    have hname : Shown U 0 ("PROVIDER" : GoString) := shown_printable (by decide)
    have hnames : ∀ c ∈ (["DECLARED", "OBSERVED", "IN CODE", "WHERE THEY DISAGREE"] : List GoString),
        Shown U 0 c := by
      simp only [List.forall_mem_cons]
      exact ⟨shown_printable (by decide), shown_printable (by decide), shown_printable (by decide),
        shown_printable (by decide), by simp⟩
    obtain ⟨hvalid, -, hone⟩ := tabular_tableLine hname.valid hnames
    have hcells : ∀ row : Row, ∀ c ∈ [count row.declaredBy.length "agent",
        count row.observedBy.length "agent", codeCell row, disagreement row], Shown U 0 c := by
      intro row
      simp only [List.forall_mem_cons]
      exact ⟨shown_count _ (by decide), shown_count _ (by decide), shown_codeCell row,
        shown_disagreement row, by simp⟩
    have hline : ∀ row ∈ rows, valid (providerLine row) = true ∧ ¬ Tabular U 0 (providerLine row) ∧
        (Tabular U 1 (providerLine row) ↔ Tame U row.provider) :=
      fun row hrow => tabular_tableLine (hv row hrow) (hcells row)
    rw [hheading]
    refine ⟨valid_align ((valid_append hvalid _).trans (valid_flatMap fun row hrow =>
      (hline row hrow).1)) _, ?_⟩
    rw [shown_table hvalid (hone.mpr (tabular_zero.mp hname.tabular)) fun row hrow =>
      ⟨(hline row hrow).1, (hline row hrow).2.1⟩]
    exact forall₂_congr fun row hrow => (hline row hrow).2.2

/-- **When the report is quiet.** All of it is, and it has the lines its numbers call for, exactly when
each provider of its rows is tame. -/
theorem shown_human {r : Report} (hv : ∀ row ∈ r.rows, valid row.provider = true) :
    Shown U (humanLines r.codeScan.present r.sources.length r.rows.length r.subjects.length
        r.limits.length) (human U padding r) ↔ ∀ row ∈ r.rows, Tame U row.provider := by
  have hrows : valid (humanRows padding r.rows) = true := (shown_rows (U := U) hv).1
  have hiff : Shown U (rowsLines r.rows.length) (humanRows padding r.rows) ↔
      ∀ row ∈ r.rows, Tame U row.provider := (shown_rows hv).2
  have hsources : Shown U (sourcesLines r.sources.length) (humanSources U padding r.sources) :=
    shown_sources r.sources
  have hsubjects : Shown U (subjectsLines r.subjects.length) (humanSubjects U padding r.subjects) :=
    shown_subjects r.subjects
  have hbefore := (shown_heading r.codeScan).append hsources
  have htable : valid (humanHeading U r.codeScan ++ humanSources U padding r.sources ++
      humanRows padding r.rows) = true := (valid_append hbefore.valid _).trans hrows
  unfold humanLines human
  rw [shown_append_right ((valid_append htable _).trans hsubjects.valid) (shown_limits r.limits),
    shown_append_right htable hsubjects, shown_append_left hbefore, hiff]

/-- The provider is named, once it is normalised, in a declaration, by a flow or by the code scan. -/
def NamedProvider (U : Unicode) (matchHost : MatchHost) (ids : List Identity) (scan : Option CodeScan)
    (p : GoString) : Prop :=
  (∃ id ∈ ids, (∃ m ∈ id.declaredModels, Names U p m.provider) ∨
    ∃ e ∈ id.events, ∃ provider, Rows.reached matchHost e = some provider ∧ Names U p provider) ∨
  ∃ entry ∈ (scan.map CodeScan.providers).getD [], Names U p entry.1

theorem valid_of_namedProvider {matchHost : MatchHost} {ids : List Identity} {scan : Option CodeScan}
    {p : GoString} (h : NamedProvider U matchHost ids scan p) : valid p = true := by
  have hnames : ∀ {provider : GoString}, Names U p provider → valid p = true := by
    rintro provider ⟨-, rfl⟩
    exact valid_toLower U _
  rcases h with ⟨id, -, ⟨m, -, h⟩ | ⟨e, -, provider, -, h⟩⟩ | ⟨entry, -, h⟩
  · exact hnames h
  · exact hnames h
  · exact hnames h

/-- **When the report of a graph is quiet**, whatever paddings align its tables: exactly when every
provider that is named is tame. -/
theorem shown_human_build (padding : GoString → Nat → Nat) (matchHost : MatchHost) (ids : List Identity)
    (scan : Option CodeScan) :
    Shown U (humanLines scan.isSome (build U matchHost ids scan).sources.length
        (build U matchHost ids scan).rows.length (build U matchHost ids scan).subjects.length
        (build U matchHost ids scan).limits.length) (human U padding (build U matchHost ids scan)) ↔
      ∀ p, NamedProvider U matchHost ids scan p → Tame U p := by
  have hmem : ∀ p, p ∈ (build U matchHost ids scan).rows.map Row.provider ↔
      NamedProvider U matchHost ids scan p := fun p => mem_providers_rows
  have hvalid : ∀ row ∈ (build U matchHost ids scan).rows, valid row.provider = true :=
    fun row hrow => valid_of_namedProvider ((hmem _).mp (List.mem_map_of_mem hrow))
  have hpresent : (build U matchHost ids scan).codeScan.present = scan.isSome := by
    cases scan <;> rfl
  rw [← hpresent, shown_human hvalid]
  constructor
  · intro h p hp
    obtain ⟨row, hrow, rfl⟩ := List.mem_map.mp ((hmem p).mpr hp)
    exact h row hrow
  · exact fun h row hrow => h _ ((hmem _).mp (List.mem_map_of_mem hrow))

/-! ## A provider that forges a line -/

/-- An agent that declares a provider of two lines. -/
def forger : Identity :=
  { Identity.zero "agent://acme/bot" with
    type := identityAgent
    declaredModels := [⟨"acme\nanthropic  3 agents  3 agents  2 sites", "", ""⟩] }

/-- A code scan that found nothing. -/
def emptyScan : CodeScan := ⟨"/src", "", "qryx", [], [], List.nodup_nil⟩

/-- **A line nobody wrote.** The provider stands in its table as it was declared. -/
theorem provider_forges_line : ¬ ∀ (U : Unicode) (padding : GoString → Nat → Nat)
    (matchHost : MatchHost) (ids : List Identity) (scan : CodeScan),
    Shown U (humanLines true (build U matchHost ids (some scan)).sources.length
        (build U matchHost ids (some scan)).rows.length
        (build U matchHost ids (some scan)).subjects.length
        (build U matchHost ids (some scan)).limits.length)
      (human U padding (build U matchHost ids (some scan))) := by
  intro h
  have htame := (shown_human_build (U := Unicode.basic) (fun _ _ => 2) (fun _ => none) [forger]
    (some emptyScan)).mp (h Unicode.basic (fun _ _ => 2) (fun _ => none) [forger] emptyScan)
  have hnamed : NamedProvider Unicode.basic (fun _ => none) [forger] (some emptyScan)
      "acme\nanthropic  3 agents  3 agents  2 sites" :=
    Or.inl ⟨forger, List.mem_singleton.mpr rfl, Or.inl ⟨_, List.mem_singleton.mpr rfl,
      by decide +kernel, by decide +kernel⟩⟩
  rcases htame _ hnamed 0x0A (by decide +kernel) with h | h | h
  · cases h
  · cases h
  · exact h.not_control (by decide)

end Idryx.AiUsage
