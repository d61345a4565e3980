import Idryx.Go.Files
import Idryx.Lib.Groups

/-!
# The stream rule

`internal/ingest/stream`: which `source` values a stream file may carry.

* `Policy`: a map from stems to non-empty sets of sources, built by `add`;
* `Policy.check`, `Policy.allowedFor`, `Policy.default`, `Policy.extend`, `stem`;
* `Policy.mem_sources_extend`: what a stem may carry after an operator's declarations;
* **`Policy.extend_widens_iff`**: when declarations only widen what is read.
-/

namespace Idryx.Stream

/-- What `check` decides about one line. -/
inductive Verdict where
  | allowed | allowedUnknownStem | foreign
  deriving DecidableEq

/-- The sources each declared stem may carry. -/
structure Policy where
  allowed : List (GoString × List GoString)
  nodup : (allowed.map Prod.fst).Nodup
  ne_nil : ∀ row ∈ allowed, row.2 ≠ []

namespace Policy

/-- Nothing is declared. -/
def empty : Policy := ⟨[], List.nodup_nil, fun _ h => absurd h List.not_mem_nil⟩

/-- `p.allowed[stem][source] = true`. -/
def add (p : Policy) (stem source : GoString) : Policy where
  allowed := Groups.insert stem source p.allowed
  nodup := Groups.nodup_insert p.nodup
  ne_nil := Groups.forall_insert_ne_nil stem source p.ne_nil

/-- The declared set of a stem. -/
def sources (p : Policy) (stem : GoString) : Option (List GoString) :=
  (Keyed.lookup Prod.fst stem p.allowed).map Prod.snd

/-- `knownSources`: each is a stream of its own name. -/
def knownSources : List GoString :=
  ["agent-conform", "console", "costcrew", "engram", "heraldyx", "idryx", "mockryx", "qryx",
    "scopyx", "tokenfuse", "typryx", "vouchryx", "verdryx", "wardryx"]

/-- The files whose stem is not their source. -/
def exceptions : List (GoString × List GoString) :=
  [("tokenfuse-cloud", ["tokenfuse"]), ("tokenfuse-mcp", ["tokenfuse"]),
    ("tokenfuse-openai", ["tokenfuse"])]

/-- Add each source of each row. -/
def addRows (p : Policy) (rows : List (GoString × List GoString)) : Policy :=
  rows.foldl (fun p row => row.2.foldl (fun p s => p.add row.1 s) p) p

/-- `Default`. -/
def default : Policy := (knownSources.foldl (fun p s => p.add s s) empty).addRows exceptions

/-- A copy of the policy with the operator's declarations added. -/
def extend (p : Policy) (extra : List (GoString × List GoString)) : Policy :=
  (empty.addRows p.allowed).addRows extra

/-- Decide one line by the stem of its file and the source it claims. -/
def check (p : Policy) (stem source : GoString) : Verdict :=
  match p.sources stem with
  | some set => if set.contains source then .allowed else .foreign
  | none => if source = stem then .allowedUnknownStem else .foreign

/-- The sources a stem may carry, sorted. -/
def allowedFor (p : Policy) (stem : GoString) : List GoString :=
  match p.sources stem with
  | some set => Strings.sort set
  | none => [stem]

/-! ## What the declarations allow -/

/-- The sources a stem is declared with; none for a stem that is not declared. -/
def sourcesD (p : Policy) (stem : GoString) : List GoString := (p.sources stem).getD []

theorem mem_sources_add {p : Policy} {stem source j s : GoString} :
    s ∈ (p.add stem source).sourcesD j ↔ s ∈ p.sourcesD j ∨ j = stem ∧ s = source :=
  Groups.mem_members_insert

theorem mem_sources_addRows {p : Policy} {rows : List (GoString × List GoString)}
    {j s : GoString} :
    s ∈ (p.addRows rows).sourcesD j ↔ s ∈ p.sourcesD j ∨ ∃ row ∈ rows, row.1 = j ∧ s ∈ row.2 := by
  unfold addRows
  apply Loop.foldl_iff (P := fun p : Policy => s ∈ p.sourcesD j)
    (Q := fun row : GoString × List GoString => row.1 = j ∧ s ∈ row.2)
  intro p row
  have hone : ∀ (p : Policy) (t : GoString),
      s ∈ (p.add row.1 t).sourcesD j ↔ s ∈ p.sourcesD j ∨ j = row.1 ∧ s = t :=
    fun _ _ => mem_sources_add
  rw [Loop.foldl_iff (P := fun p : Policy => s ∈ p.sourcesD j) hone]
  grind

/-- **What a stem may carry after an operator's declarations**: its own set and what was declared. -/
theorem mem_sources_extend {p : Policy} {extra : List (GoString × List GoString)}
    {j s : GoString} :
    s ∈ (p.extend extra).sourcesD j ↔ s ∈ p.sourcesD j ∨ ∃ row ∈ extra, row.1 = j ∧ s ∈ row.2 := by
  have hcopy : (∃ row ∈ p.allowed, row.1 = j ∧ s ∈ row.2) ↔ s ∈ p.sourcesD j := by
    unfold sourcesD sources
    constructor
    · rintro ⟨row, hrow, rfl, hs⟩
      rw [Keyed.lookup_of_mem p.nodup hrow]
      exact hs
    · intro hs
      cases hl : Keyed.lookup Prod.fst j p.allowed with
      | none =>
        rw [hl] at hs
        cases hs
      | some row =>
        rw [hl] at hs
        exact ⟨row, Keyed.mem_of_lookup hl, Keyed.lookup_key hl, hs⟩
  have hempty : s ∉ empty.sourcesD j := List.not_mem_nil
  rw [extend, mem_sources_addRows, mem_sources_addRows, hcopy]
  simp [hempty]

theorem sources_eq_none_iff {p : Policy} {stem : GoString} :
    p.sources stem = none ↔ ∀ s, s ∉ p.sourcesD stem := by
  unfold sourcesD
  cases h : p.sources stem with
  | none => exact iff_of_true rfl fun s => List.not_mem_nil
  | some set =>
    refine iff_of_false (fun h => by cases h) fun hall => ?_
    obtain ⟨row, hrow, rfl⟩ := Option.map_eq_some_iff.mp h
    exact p.ne_nil row (Keyed.mem_of_lookup hrow) (List.eq_nil_iff_forall_not_mem.mpr hall)

theorem check_eq_allowed_iff {p : Policy} {stem source : GoString} :
    p.check stem source = .allowed ↔ source ∈ p.sourcesD stem := by
  unfold check sourcesD
  cases p.sources stem with
  | none => by_cases hs : source = stem <;> simp [hs]
  | some set => by_cases hs : source ∈ set <;> simp [hs]

theorem check_ne_foreign_iff {p : Policy} {stem source : GoString} :
    p.check stem source ≠ .foreign ↔
      source ∈ p.sourcesD stem ∨ (∀ s, s ∉ p.sourcesD stem) ∧ source = stem := by
  rw [← sources_eq_none_iff]
  unfold check sourcesD
  cases p.sources stem with
  | none => by_cases hs : source = stem <;> simp [hs]
  | some set => by_cases hs : source ∈ set <;> simp [hs]

/-- **When a declaration only widens**: each stem it gives sources to was declared before, or is given
its own name among them. -/
theorem extend_widens_iff (p : Policy) (extra : List (GoString × List GoString)) :
    ((∀ stem source, p.check stem source ≠ .foreign →
        (p.extend extra).check stem source ≠ .foreign) ∧
      ∀ row ∈ extra, ∀ source ∈ row.2, (p.extend extra).check row.1 source = .allowed) ↔
    ∀ row ∈ extra, row.2 ≠ [] →
      (p.sources row.1).isSome = true ∨ ∃ other ∈ extra, other.1 = row.1 ∧ row.1 ∈ other.2 := by
  have hnamed : ∀ row ∈ extra, ∀ source ∈ row.2, (p.extend extra).check row.1 source = .allowed := by
    intro row hrow source hs
    rw [check_eq_allowed_iff, mem_sources_extend]
    exact Or.inr ⟨row, hrow, rfl, hs⟩
  rw [and_iff_left hnamed]
  constructor
  · intro h row hrow hne
    by_contra hno
    rw [not_or, Option.not_isSome_iff_eq_none, sources_eq_none_iff] at hno
    obtain ⟨hundeclared, hown⟩ := hno
    -- a line of the stem's own name was read before and is not after
    have hbefore : p.check row.1 row.1 ≠ .foreign :=
      check_ne_foreign_iff.mpr (Or.inr ⟨hundeclared, rfl⟩)
    rcases check_ne_foreign_iff.mp (h row.1 row.1 hbefore) with hmem | ⟨hnone, -⟩
    · rcases mem_sources_extend.mp hmem with hold | hnew
      · exact hundeclared _ hold
      · exact hown hnew
    · obtain ⟨s, hs⟩ := List.exists_mem_of_ne_nil row.2 hne
      exact hnone s (mem_sources_extend.mpr (Or.inr ⟨row, hrow, rfl, hs⟩))
  · intro h stem source hbefore
    rw [check_ne_foreign_iff] at hbefore ⊢
    rcases hbefore with hmem | ⟨hundeclared, rfl⟩
    · exact Or.inl (mem_sources_extend.mpr (Or.inl hmem))
    · by_cases hgiven : ∃ row ∈ extra, row.1 = source ∧ row.2 ≠ []
      · obtain ⟨row, hrow, rfl, hne⟩ := hgiven
        rcases h row hrow hne with hsome | hown
        · rw [sources_eq_none_iff.mpr hundeclared] at hsome
          cases hsome
        · exact Or.inl (mem_sources_extend.mpr (Or.inr hown))
      · refine Or.inr ⟨fun s hs => ?_, rfl⟩
        rcases mem_sources_extend.mp hs with hold | ⟨row, hrow, hstem, hmem⟩
        · exact hundeclared s hold
        · exact hgiven ⟨row, hrow, hstem, List.ne_nil_of_mem hmem⟩

/-- A stream nothing declares is read under its own name until it is declared to carry another. -/
theorem extend_narrows : default.check "newplane" "newplane" = .allowedUnknownStem ∧
    (default.extend [("newplane", ["tokenfuse"])]).check "newplane" "newplane" = .foreign := by
  decide

end Policy

/-- The stream name of a file. -/
def stem (path : GoString) : GoString :=
  let base := Filepath.base path
  match Strings.cutSuffix base ".ndjson" with
  | some t => t
  | none => (Strings.cutSuffix base (Filepath.ext base)).getD base

example : stem "/var/bus/wardryx.ndjson" = "wardryx" := by decide

end Idryx.Stream
