import Idryx.Stream.Policy
import Idryx.Go.Trim
import Mathlib.Data.List.ReduceOption

/-!
# The operator's declaration

`ParseExtra` of `internal/ingest/stream`, and the hint of `cmd/idryx` that tells an operator what to
declare.

* `validName`, `parseEntry`, `parseExtra`, `declareHint`;
* `EntryText stem sources text`: the texts of an entry; **`parseEntry_eq_some`**: they are what is read;
* `Renders m spec`: the declarations of a map, of which there is one (`renders_text`);
  **`parseExtra_exact`**: a map is read back from each, an error is returned for exactly the declarations
  with another entry, and what a hint says can be declared.
-/

namespace Idryx.Stream

/-! ## Reading a declaration -/

/-- A letter or a digit of a stem. -/
def isAlnum (b : UInt8) : Bool :=
  (0x41 ≤ b && b ≤ 0x5A) || (0x61 ≤ b && b ≤ 0x7A) || (0x30 ≤ b && b ≤ 0x39)

/-- The bytes of a name after its first. -/
def isNameByte (b : UInt8) : Bool := isAlnum b || b == 0x2E || b == 0x5F || b == 0x2D

/-- `ValidName`: `^[A-Za-z0-9][A-Za-z0-9._-]{0,63}$`. -/
def validName : GoString → Bool
  | [] => false
  | b :: s => isAlnum b && s.all isNameByte && s.length ≤ 63

/-- The loop over the sources of an entry. -/
def parseSources (U : Unicode) (entry : GoString) : List GoString → Except GoString (List GoString)
  | [] => .ok []
  | s :: rest =>
    let s := Strings.trimSpace s
    if validName s then (parseSources U entry rest).map (s :: ·)
    else
      .error (("stream declaration " : GoString) ++ Strconv.quote U entry ++ (": " : GoString) ++
        Strconv.quote U s ++ (" is not a source name" : GoString))

/-- One entry: its stem and its sources; nothing for a blank one. -/
def parseEntry (U : Unicode) (entry : GoString) :
    Except GoString (Option (GoString × List GoString)) :=
  let entry := Strings.trimSpace entry
  let malformed := ("stream declaration " : GoString) ++ Strconv.quote U entry ++
    (": want stem=source|source" : GoString)
  if entry = [] then .ok none
  else
    match Strings.cut entry 0x3D with
    | none => .error malformed
    | some (stem, list) =>
      let stem := Strings.trimSpace stem
      if validName stem then
        (parseSources U entry (Strings.split list 0x7C)).map fun sources => some (stem, sources)
      else .error malformed

/-- `out[stem] = append(out[stem], sources...)`. -/
def appendTo (out : List (GoString × List GoString)) (row : GoString × List GoString) :
    List (GoString × List GoString) :=
  Keyed.upsert Prod.fst row.1 row (fun r => (r.1, r.2 ++ row.2)) out

/-- One turn of the loop over the entries. -/
def addEntry (U : Unicode) (out : List (GoString × List GoString)) (entry : GoString) :
    Except GoString (List (GoString × List GoString)) :=
  (parseEntry U entry).map fun
    | none => out
    | some row => appendTo out row

/-- `ParseExtra`. -/
def parseExtra (U : Unicode) (spec : GoString) : Except GoString (List (GoString × List GoString)) :=
  let spec := Strings.trimSpace spec
  if spec = [] then .ok [] else (Strings.split spec 0x2C).foldlM (addEntry U) []

/-- The variable that declares streams. -/
def streamsEnv : GoString := "IDRYX_STREAMS"

/-- `declareHint`. -/
def declareHint (stem source : GoString) : GoString :=
  if !validName stem || !validName source then
    " The names are not plain names, so there is nothing to declare."
  else
    (" If it is expected, declare it: " : GoString) ++ streamsEnv ++ ("=" : GoString) ++ stem ++
      ("=" : GoString) ++ source

/-! ## Names -/

theorem isNameByte_of_isAlnum {b : UInt8} (h : isAlnum b = true) : isNameByte b = true := by
  simp [isNameByte, h]

theorem validName_bytes {s : GoString} (h : validName s = true) : ∀ b ∈ s, isNameByte b = true := by
  cases s with
  | nil => simp
  | cons b s =>
    simp only [validName, Bool.and_eq_true] at h
    intro c hc
    rcases List.mem_cons.mp hc with rfl | hc
    · exact isNameByte_of_isAlnum h.1.1
    · exact List.all_eq_true.mp h.1.2 c hc

theorem printable_of_isNameByte {b : UInt8} (h : isNameByte b = true) : Strings.Printable b := by
  have hall : ∀ b, isNameByte b = true → Strings.Printable b := forall_byte (by decide +kernel)
  exact hall b h

theorem solid_of_validName {s : GoString} (h : validName s = true) : Strings.Solid s :=
  Strings.solid_of_printable fun b hb => printable_of_isNameByte (validName_bytes h b hb)

/-- A name with blanks around it. -/
def Padded (name text : GoString) : Prop :=
  validName name = true ∧ ∃ w w', Strings.Blank w ∧ Strings.Blank w' ∧ text = w ++ name ++ w'

theorem padded_iff {name text : GoString} :
    Padded name text ↔ validName name = true ∧ Strings.trimSpace text = name := by
  refine and_congr_right fun hname => ?_
  rw [Strings.trimSpace_eq_iff]
  constructor
  · rintro ⟨w, w', hw, hw', htext⟩
    exact ⟨w, w', hw, hw', htext, solid_of_validName hname⟩
  · rintro ⟨w, w', hw, hw', htext, -⟩
    exact ⟨w, w', hw, hw', htext⟩

theorem Padded.not_mem {name text : GoString} (h : Padded name text) {b : UInt8}
    (hb : Strings.Printable b) (hn : isNameByte b = false) : b ∉ text := by
  obtain ⟨hname, w, w', hw, hw', rfl⟩ := h
  rw [List.mem_append, List.mem_append]
  rintro ((h | h) | h)
  · exact hw.not_mem hb h
  · rw [validName_bytes hname b h] at hn
    cases hn
  · exact hw'.not_mem hb h

/-! ## Entries -/

/-- The texts of an entry: a stem, an equals sign, and sources between bars, blanks around each. -/
def EntryText (stem : GoString) (sources : List GoString) (text : GoString) : Prop :=
  sources ≠ [] ∧ ∃ s ss, Padded stem s ∧ List.Forall₂ Padded sources ss ∧
    text = s ++ ("=" : GoString) ++ Strings.join ss "|"

theorem parseSources_eq_ok {U : Unicode} {entry : GoString} {ss sources : List GoString} :
    parseSources U entry ss = .ok sources ↔ List.Forall₂ Padded sources ss := by
  induction ss generalizing sources with
  | nil =>
    rw [parseSources, Except.ok.injEq, List.forall₂_nil_right_iff, eq_comm]
  | cons s ss ih =>
    rw [parseSources]
    constructor
    · intro h
      split_ifs at h with hv
      · cases hrest : parseSources U entry ss with
        | error err =>
          rw [hrest] at h
          cases h
        | ok rest =>
          rw [hrest] at h
          obtain rfl : Strings.trimSpace s :: rest = sources := Except.ok.inj h
          exact List.Forall₂.cons (padded_iff.mpr ⟨hv, rfl⟩) (ih.mp hrest)
    · intro h
      cases h with
      | cons hs hrest =>
        obtain ⟨hv, rfl⟩ := padded_iff.mp hs
        rw [if_pos hv, ih.mpr hrest]
        rfl

theorem forall₂_padded_iff {sources ss : List GoString} : List.Forall₂ Padded sources ss ↔
    ss.map Strings.trimSpace = sources ∧ ∀ s ∈ sources, validName s = true := by
  constructor
  · intro h
    induction h with
    | nil => exact ⟨rfl, by simp⟩
    | cons hs _ ih =>
      obtain ⟨hv, htrim⟩ := padded_iff.mp hs
      exact ⟨by rw [List.map_cons, htrim, ih.1], List.forall_mem_cons.mpr ⟨hv, ih.2⟩⟩
  · rintro ⟨rfl, hvalid⟩
    induction ss with
    | nil => exact List.Forall₂.nil
    | cons s ss ih =>
      rw [List.map_cons, List.forall_mem_cons] at hvalid
      exact List.Forall₂.cons (padded_iff.mpr ⟨hvalid.1, rfl⟩) (ih hvalid.2)

theorem padded_of_mem {sources ss : List GoString} (h : List.Forall₂ Padded sources ss) {t : GoString}
    (ht : t ∈ ss) : Padded (Strings.trimSpace t) t := by
  obtain ⟨rfl, hvalid⟩ := forall₂_padded_iff.mp h
  exact padded_iff.mpr ⟨hvalid _ (List.mem_map_of_mem ht), rfl⟩

theorem entryText_iff {stem : GoString} {sources : List GoString} {x y : GoString}
    (hx : (0x3D : UInt8) ∉ x) : EntryText stem sources (x ++ 0x3D :: y) ↔
      Padded stem x ∧ List.Forall₂ Padded sources (Strings.split y 0x7C) := by
  constructor
  · rintro ⟨hne, s, ss, hs, hss, htext⟩
    rw [List.append_assoc] at htext
    have hcut := Strings.cut_append (hs.not_mem (b := 0x3D) (by decide) (by decide)) (Strings.join ss "|")
    have hcut' := Strings.cut_append hx y
    rw [htext] at hcut'
    obtain ⟨rfl, rfl⟩ := Prod.mk.inj (Option.some.inj (hcut.symm.trans hcut'))
    have hbar : ∀ t ∈ ss, (0x7C : UInt8) ∉ t := fun t ht =>
      (padded_of_mem hss ht).not_mem (by decide) (by decide)
    have hss' : ss ≠ [] := by
      rintro rfl
      exact hne (List.forall₂_nil_right_iff.mp hss)
    have hsplit : Strings.split (Strings.join ss "|") 0x7C = ss := Strings.split_join hss' hbar
    rw [hsplit]
    exact ⟨hs, hss⟩
  · rintro ⟨hs, hss⟩
    refine ⟨?_, x, Strings.split y 0x7C, hs, hss, ?_⟩
    · rintro rfl
      exact List.splitOn_ne_nil 0x7C y (List.forall₂_nil_left_iff.mp hss)
    · have hjoin : Strings.join (Strings.split y 0x7C) "|" = y := Strings.join_split y 0x7C
      rw [hjoin]
      simp
      rfl

theorem cut_trimSpace {x y : GoString} (hx : (0x3D : UInt8) ∉ x) :
    ∃ x' y', Strings.cut (Strings.trimSpace (x ++ 0x3D :: y)) 0x3D = some (x', y') ∧
      Strings.trimSpace x' = Strings.trimSpace x ∧
      (Strings.split y' 0x7C).map Strings.trimSpace = (Strings.split y 0x7C).map Strings.trimSpace := by
  obtain ⟨w, w', hw, hw', hs, -⟩ := Strings.trimSpace_spec (x ++ 0x3D :: y)
  have hmem : (0x3D : UInt8) ∈ Strings.trimSpace (x ++ 0x3D :: y) := by
    have hall : (0x3D : UInt8) ∈ x ++ 0x3D :: y := by simp
    rw [hs, List.mem_append, List.mem_append] at hall
    rcases hall with (h | h) | h
    · exact absurd h (hw.not_mem (by decide))
    · exact h
    · exact absurd h (hw'.not_mem (by decide))
  obtain ⟨x', y', ht, hx', hcut⟩ := Strings.exists_cut hmem
  have hno : (0x3D : UInt8) ∉ w ++ x' := fun h =>
    (List.mem_append.mp h).elim (hw.not_mem (by decide)) hx'
  have hwhole : x ++ 0x3D :: y = (w ++ x') ++ 0x3D :: (y' ++ w') := by
    rw [hs, ht]
    simp
  have hsame := (Strings.cut_append hx y).symm.trans
    ((congrArg (Strings.cut · 0x3D) hwhole).trans (Strings.cut_append hno (y' ++ w')))
  obtain ⟨rfl, rfl⟩ := Prod.mk.inj (Option.some.inj hsame)
  refine ⟨x', y', hcut, (Strings.trimSpace_blank_append hw x').symm, ?_⟩
  exact (Strings.map_trimSpace_split (by decide) Strings.blank_nil hw' y').symm

/-- **An entry is read as a stem and sources exactly if it is a text of them.** -/
theorem parseEntry_eq_some {U : Unicode} {entry : GoString} {stem : GoString}
    {sources : List GoString} :
    parseEntry U entry = .ok (some (stem, sources)) ↔ EntryText stem sources entry := by
  by_cases hmem : (0x3D : UInt8) ∈ entry
  · obtain ⟨x, y, rfl, hx, -⟩ := Strings.exists_cut hmem
    obtain ⟨x', y', hcut, hstem, hlist⟩ := cut_trimSpace (y := y) hx
    have hne : Strings.trimSpace (x ++ 0x3D :: y) ≠ [] := by
      intro h
      rw [h] at hcut
      cases hcut
    rw [entryText_iff hx, padded_iff, forall₂_padded_iff, ← hstem, ← hlist, ← forall₂_padded_iff]
    unfold parseEntry
    simp only [if_neg hne, hcut]
    constructor
    · intro h
      split_ifs at h with hv
      · cases hp : parseSources U (Strings.trimSpace (x ++ 0x3D :: y)) (Strings.split y' 0x7C) with
        | error err =>
          rw [hp] at h
          cases h
        | ok rest =>
          rw [hp] at h
          obtain ⟨rfl, rfl⟩ := Prod.mk.inj (Option.some.inj (Except.ok.inj h))
          exact ⟨⟨hv, rfl⟩, parseSources_eq_ok.mp hp⟩
    · rintro ⟨⟨hv, rfl⟩, hsources⟩
      rw [if_pos hv, parseSources_eq_ok.mpr hsources]
      rfl
  · have hno : (0x3D : UInt8) ∉ Strings.trimSpace entry := by
      obtain ⟨w, w', -, -, hs, -⟩ := Strings.trimSpace_spec entry
      intro h
      rw [hs] at hmem
      exact hmem (List.mem_append_left _ (List.mem_append_right _ h))
    refine iff_of_false (fun h => ?_) ?_
    · unfold parseEntry at h
      simp only [Strings.cut_eq_none.mpr hno] at h
      split_ifs at h
      cases Except.ok.inj h
    · rintro ⟨-, s, ss, -, -, rfl⟩
      have heq : (0x3D : UInt8) ∈ ("=" : GoString) := by decide
      exact hmem (List.mem_append_left _ (List.mem_append_right _ heq))

theorem parseEntry_eq_none {U : Unicode} {entry : GoString} :
    parseEntry U entry = .ok none ↔ Strings.Blank entry := by
  rw [← Strings.trimSpace_eq_nil_iff]
  unfold parseEntry
  constructor
  · intro h
    by_contra hne
    simp only [if_neg hne] at h
    cases hcut : Strings.cut (Strings.trimSpace entry) 0x3D with
    | none =>
      rw [hcut] at h
      cases h
    | some p =>
      rw [hcut] at h
      dsimp only at h
      split_ifs at h
      cases hp : parseSources U (Strings.trimSpace entry) (Strings.split p.2 0x7C) with
      | error err =>
        rw [hp] at h
        cases h
      | ok rest =>
        rw [hp] at h
        cases h
  · intro h
    simp only [if_pos h]

theorem parseEntry_error_iff {U : Unicode} {entry : GoString} :
    (∃ err, parseEntry U entry = .error err) ↔
      ¬ Strings.Blank entry ∧ ¬ ∃ stem sources, EntryText stem sources entry := by
  rw [← parseEntry_eq_none (U := U)]
  simp only [← parseEntry_eq_some (U := U)]
  cases parseEntry U entry with
  | error err => simp
  | ok row =>
    cases row with
    | none => simp
    | some row => simp [show ∃ stem sources, row = (stem, sources) from ⟨row.1, row.2, rfl⟩]

/-! ## The entries of a declaration -/

/-- The stems and sources of the entries, or the error of the first entry that has none. -/
def readEntries (U : Unicode) : List GoString → Except GoString (List (GoString × List GoString))
  | [] => .ok []
  | entry :: entries =>
    match parseEntry U entry with
    | .error err => .error err
    | .ok row => (readEntries U entries).map (row.toList ++ ·)

theorem foldlM_addEntry (U : Unicode) (entries : List GoString) :
    ∀ out, entries.foldlM (addEntry U) out =
      (readEntries U entries).map fun rows => rows.foldl appendTo out := by
  induction entries with
  | nil => intro out; rfl
  | cons entry entries ih =>
    intro out
    rw [List.foldlM_cons, addEntry, readEntries]
    cases parseEntry U entry with
    | error err => rfl
    | ok row =>
      refine (ih _).trans ?_
      cases readEntries U entries with
      | error err => rfl
      | ok rows => cases row <;> rfl

theorem readEntries_congr (U : Unicode) : ∀ {es fs : List GoString},
    es.map Strings.trimSpace = fs.map Strings.trimSpace → readEntries U es = readEntries U fs
  | [], [], _ => rfl
  | [], _ :: _, h => by cases h
  | _ :: _, [], h => by cases h
  | e :: es, f :: fs, h => by
    rw [List.map_cons, List.map_cons, List.cons.injEq] at h
    have hentry : parseEntry U e = parseEntry U f := by
      unfold parseEntry
      rw [h.1]
    rw [readEntries, readEntries, hentry, readEntries_congr U h.2]

/-- **A declaration is its entries**, whatever blanks stand around it. -/
theorem parseExtra_eq (U : Unicode) (spec : GoString) : parseExtra U spec =
    (readEntries U (Strings.split spec 0x2C)).map fun rows => rows.foldl appendTo [] := by
  unfold parseExtra
  dsimp only
  split_ifs with hblank
  · have hspec : Strings.Blank spec := Strings.trimSpace_eq_nil_iff.mp hblank
    rw [Strings.split_of_not_mem (hspec.not_mem (by decide)), readEntries, parseEntry_eq_none.mpr hspec]
    rfl
  · obtain ⟨w, w', hw, hw', hs, -⟩ := Strings.trimSpace_spec spec
    have hsame : (Strings.split spec 0x2C).map Strings.trimSpace =
        (Strings.split (Strings.trimSpace spec) 0x2C).map Strings.trimSpace := by
      conv_lhs => rw [hs]
      exact Strings.map_trimSpace_split (by decide) hw hw' _
    rw [foldlM_addEntry, readEntries_congr U hsame]

theorem readEntries_error_iff {U : Unicode} {es : List GoString} :
    (∃ err, readEntries U es = .error err) ↔ ∃ e ∈ es, ∃ err, parseEntry U e = .error err := by
  induction es with
  | nil => simp [readEntries]
  | cons e es ih =>
    rw [List.exists_mem_cons_iff, ← ih, readEntries]
    cases parseEntry U e with
    | error err => exact iff_of_true ⟨err, rfl⟩ (Or.inl ⟨err, rfl⟩)
    | ok row => cases readEntries U es <;> simp [Except.map]

theorem parseExtra_error_iff {U : Unicode} {spec : GoString} :
    (∃ err, parseExtra U spec = .error err) ↔ ∃ e ∈ Strings.split spec 0x2C,
      ¬ Strings.Blank e ∧ ¬ ∃ stem sources, EntryText stem sources e := by
  simp only [← parseEntry_error_iff (U := U)]
  rw [← readEntries_error_iff, parseExtra_eq]
  cases readEntries U (Strings.split spec 0x2C) <;> simp [Except.map]

/-! ## Rendering a map -/

/-- A map an operator can declare: valid stems, each with one valid source or more. -/
structure Declaration where
  rows : List (GoString × List GoString)
  nodup : (rows.map Prod.fst).Nodup
  stems : ∀ row ∈ rows, validName row.1 = true
  ne_nil : ∀ row ∈ rows, row.2 ≠ []
  sources : ∀ row ∈ rows, ∀ s ∈ row.2, validName s = true

/-- What stands between two commas: blanks, or an entry. -/
inductive Piece : Option (GoString × List GoString) → GoString → Prop
  | blank {text : GoString} : Strings.Blank text → Piece none text
  | entry {row : GoString × List GoString} {text : GoString} :
      EntryText row.1 row.2 text → Piece (some row) text

/-- The sources of a stem in a list of entries, in order. -/
def together (rows : List (GoString × List GoString)) (stem : GoString) : List GoString :=
  (rows.filter fun row => row.1 = stem).flatMap Prod.snd

/-- The text is the map in entries between commas: the entries of a stem have its sources between them,
in any order, and there may be blank entries. -/
def Renders (m : Declaration) (spec : GoString) : Prop :=
  ∃ pieces texts, List.Forall₂ Piece pieces texts ∧ spec = Strings.join texts "," ∧
    ∀ stem, (together pieces.reduceOption stem).Perm (together m.rows stem)

theorem padded_self {name : GoString} (h : validName name = true) : Padded name name :=
  ⟨h, [], [], Strings.blank_nil, Strings.blank_nil, by simp⟩

/-- The map written out, one entry a stem. -/
def Declaration.text (m : Declaration) : GoString :=
  Strings.join (m.rows.map fun row => row.1 ++ ("=" : GoString) ++ Strings.join row.2 "|") ","

/-- **Every declaration can be written.** -/
theorem renders_text (m : Declaration) : Renders m m.text := by
  refine ⟨m.rows.map some, _, ?_, rfl, fun stem => ?_⟩
  · rw [List.forall₂_map_left_iff, List.forall₂_map_right_iff, List.forall₂_same]
    intro row hrow
    refine Piece.entry ⟨m.ne_nil row hrow, row.1, row.2, padded_self (m.stems row hrow), ?_, rfl⟩
    exact List.forall₂_same.mpr fun s hs => padded_self (m.sources row hrow s hs)
  · have hrows : (m.rows.map some).reduceOption = m.rows := by simp [List.reduceOption]
    rw [hrows]

theorem piece_iff {U : Unicode} {row : Option (GoString × List GoString)} {text : GoString} :
    Piece row text ↔ parseEntry U text = .ok row := by
  cases row with
  | none =>
    rw [parseEntry_eq_none]
    exact ⟨fun h => by cases h; assumption, Piece.blank⟩
  | some row =>
    rw [parseEntry_eq_some]
    exact ⟨fun h => by cases h; assumption, Piece.entry⟩

theorem readEntries_pieces {U : Unicode} {pieces : List (Option (GoString × List GoString))}
    {texts : List GoString} (h : List.Forall₂ Piece pieces texts) :
    readEntries U texts = .ok pieces.reduceOption := by
  induction h with
  | nil => rfl
  | @cons row text pieces texts hrow _ ih =>
    rw [readEntries, piece_iff.mp hrow, ih]
    cases row <;> rfl

theorem Piece.not_mem {row : Option (GoString × List GoString)} {text : GoString} (h : Piece row text) :
    (0x2C : UInt8) ∉ text := by
  cases h with
  | blank hblank => exact hblank.not_mem (by decide)
  | @entry row _ hentry =>
    obtain ⟨-, s, ss, hs, hss, rfl⟩ := hentry
    have hbar : (0x2C : UInt8) ∉ ("|" : GoString) := by decide
    have heq : (0x2C : UInt8) ∉ ("=" : GoString) := by decide
    intro hmem
    rcases List.mem_append.mp hmem with hmem | hmem
    · rcases List.mem_append.mp hmem with hmem | hmem
      · exact hs.not_mem (by decide) (by decide) hmem
      · exact heq hmem
    · rcases Strings.mem_join hmem with hmem | ⟨t, ht, hmem⟩
      · exact hbar hmem
      · exact (padded_of_mem hss ht).not_mem (by decide) (by decide) hmem

theorem comma_not_mem {pieces : List (Option (GoString × List GoString))} {texts : List GoString}
    (h : List.Forall₂ Piece pieces texts) : ∀ t ∈ texts, (0x2C : UInt8) ∉ t := by
  induction h with
  | nil => exact fun t ht => absurd ht List.not_mem_nil
  | cons hpiece _ ih => exact List.forall_mem_cons.mpr ⟨hpiece.not_mem, ih⟩

theorem appendTo_eq (rows : List (GoString × List GoString)) : rows.foldl appendTo [] =
    Keyed.upserts Prod.fst Prod.fst id (fun r row => (r.1, r.2 ++ row.2)) [] rows := rfl

theorem nodup_appendTo (rows : List (GoString × List GoString)) :
    ((rows.foldl appendTo []).map Prod.fst).Nodup := by
  rw [appendTo_eq]
  exact Keyed.nodup_upserts (by exact fun _ => rfl) (by exact fun _ _ h => h) (by exact List.nodup_nil)
    rows

theorem lookup_appendTo (rows : List (GoString × List GoString)) (stem : GoString) :
    Keyed.lookup Prod.fst stem (rows.foldl appendTo []) =
      if rows.filter (fun row => row.1 = stem) = [] then none
      else some (stem, together rows stem) := by
  have hflat : ∀ (rows : List (GoString × List GoString)) (acc : List GoString),
      rows.foldl (fun r row => (r.1, r.2 ++ row.2)) (stem, acc) =
        (stem, acc ++ rows.flatMap Prod.snd) := by
    intro rows
    induction rows with
    | nil => intro acc; simp
    | cons row rows ih => intro acc; rw [List.foldl_cons, ih, List.flatMap_cons, List.append_assoc]
  rw [appendTo_eq]
  split_ifs with hnone
  · rw [Keyed.lookup_upserts (by exact fun _ => rfl) (by exact fun _ _ h => h), Keyed.reports, hnone]
    rfl
  · have hfresh : ∀ row : GoString × List GoString, row.1 = stem →
        id row = ((stem, ([] : List GoString)).1, (stem, ([] : List GoString)).2 ++ row.2) := by
      rintro row rfl
      rfl
    rw [Keyed.lookup_upserts_fresh (by exact fun _ => rfl) (by exact fun _ _ h => h) hfresh [] hnone]
    exact congrArg some (hflat _ [])

theorem ne_nil_of_pieces {pieces : List (Option (GoString × List GoString))} {texts : List GoString}
    (h : List.Forall₂ Piece pieces texts) : ∀ row ∈ pieces.reduceOption, row.2 ≠ [] := by
  induction h with
  | nil => exact fun row hrow => absurd hrow List.not_mem_nil
  | @cons row text pieces texts hrow _ ih =>
    cases hrow with
    | blank => exact ih
    | @entry row _ hentry =>
      rw [List.reduceOption_cons_of_some, List.forall_mem_cons]
      exact ⟨hentry.1, ih⟩

theorem together_eq_nil {rows : List (GoString × List GoString)} (h : ∀ row ∈ rows, row.2 ≠ [])
    (stem : GoString) : together rows stem = [] ↔ rows.filter (fun row => row.1 = stem) = [] := by
  unfold together
  rw [List.flatMap_eq_nil_iff]
  constructor
  · intro hall
    rw [List.eq_nil_iff_forall_not_mem]
    exact fun row hrow => h row (List.mem_filter.mp hrow).1 (hall row hrow)
  · intro hnil
    rw [hnil]
    simp

/-- The two maps have the same stems, each with the same sources in some order. -/
def SameUpToOrder (out rows : List (GoString × List GoString)) : Prop :=
  (out.map Prod.fst).Nodup ∧ ∀ stem,
    Option.Rel (fun a b => a.2.Perm b.2) (Keyed.lookup Prod.fst stem out)
      (Keyed.lookup Prod.fst stem rows)

/-- **A map is read back from each of its renderings.** -/
theorem parseExtra_renders {U : Unicode} {m : Declaration} {spec : GoString} (h : Renders m spec) :
    ∃ out, parseExtra U spec = .ok out ∧ SameUpToOrder out m.rows := by
  obtain ⟨pieces, texts, hpieces, rfl, hsame⟩ := h
  have hread : parseExtra U (Strings.join texts ",") = .ok (pieces.reduceOption.foldl appendTo []) := by
    rw [parseExtra_eq]
    by_cases hne : texts = []
    · subst hne
      obtain rfl := List.forall₂_nil_right_iff.mp hpieces
      rfl
    · have hsplit : Strings.split (Strings.join texts ",") 0x2C = texts :=
        Strings.split_join hne (comma_not_mem hpieces)
      rw [hsplit, readEntries_pieces hpieces]
      rfl
  refine ⟨_, hread, nodup_appendTo _, fun stem => ?_⟩
  rw [lookup_appendTo]
  have hiff := together_eq_nil (ne_nil_of_pieces hpieces) stem
  have hperm := hsame stem
  cases hl : Keyed.lookup Prod.fst stem m.rows with
  | none =>
    have hnone : together m.rows stem = [] :=
      (together_eq_nil m.ne_nil stem).mpr (Keyed.filter_key_eq_nil hl)
    rw [hnone, List.perm_nil] at hperm
    rw [if_pos (hiff.mp hperm)]
    exact Option.Rel.none
  | some row =>
    have hrow : together m.rows stem = row.2 := by
      rw [together, Keyed.filter_key_eq_singleton m.nodup hl]
      simp
    rw [hrow] at hperm
    rw [if_neg]
    · exact Option.Rel.some hperm
    · rw [← hiff]
      intro hnil
      rw [hnil, List.nil_perm] at hperm
      exact m.ne_nil row (Keyed.mem_of_lookup hl) hperm

/-! ## The hint -/

theorem parseExtra_pair {U : Unicode} {stem source : GoString} (hstem : validName stem = true)
    (hsource : validName source = true) :
    parseExtra U (stem ++ ("=" : GoString) ++ source) = .ok [(stem, [source])] := by
  have hentry : EntryText stem [source] (stem ++ ("=" : GoString) ++ source) := by
    refine ⟨List.cons_ne_nil _ _, stem, [source], padded_self hstem,
      List.Forall₂.cons (padded_self hsource) List.Forall₂.nil, ?_⟩
    simp [Strings.join]
  have hpiece : Piece (some (stem, [source])) (stem ++ ("=" : GoString) ++ source) :=
    Piece.entry hentry
  rw [parseExtra_eq, Strings.split_of_not_mem hpiece.not_mem, readEntries, piece_iff.mp hpiece]
  rfl

/-- **The declaration is read as it is written.** A map is read back, up to the order of its lists, from
each of its renderings; an error is returned for exactly the declarations with an entry that is
neither blank nor a name, an equals sign and names between bars; and what a hint says to declare is
accepted, and allows the source in the stem under every policy it is added to. -/
theorem parseExtra_exact (U : Unicode) :
    (∀ m spec, Renders m spec → ∃ out, parseExtra U spec = .ok out ∧ SameUpToOrder out m.rows) ∧
    (∀ spec, (∃ err, parseExtra U spec = .error err) ↔ ∃ entry ∈ Strings.split spec 0x2C,
      ¬ Strings.Blank entry ∧ ¬ ∃ stem sources, EntryText stem sources entry) ∧
    ∀ stem source, validName stem = true → validName source = true →
      ∃ decl out, declareHint stem source =
          (" If it is expected, declare it: IDRYX_STREAMS=" : GoString) ++ decl ∧
        parseExtra U decl = .ok out ∧ ∀ p : Policy, (p.extend out).check stem source = .allowed := by
  refine ⟨fun m spec h => parseExtra_renders h, fun spec => parseExtra_error_iff, ?_⟩
  intro stem source hstem hsource
  refine ⟨stem ++ ("=" : GoString) ++ source, _, ?_, parseExtra_pair hstem hsource, fun p => ?_⟩
  · have htext : (" If it is expected, declare it: " : GoString) ++ streamsEnv ++ ("=" : GoString) =
        " If it is expected, declare it: IDRYX_STREAMS=" := by decide
    rw [declareHint, if_neg (by simp [hstem, hsource]), htext, List.append_assoc, List.append_assoc,
      List.append_assoc]
  · rw [Policy.check_eq_allowed_iff, Policy.mem_sources_extend]
    exact Or.inr ⟨(stem, [source]), by simp, rfl, by simp⟩

end Idryx.Stream
