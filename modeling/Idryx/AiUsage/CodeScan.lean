import Idryx.AiUsage.Terminal
import Idryx.AiUsage.Subjects
import Mathlib.Data.List.Chain

/-!
# The code scan

`internal/aiusage/codescan.go`: what is read from a `qryx` document.

* `validProviderID`, `scanRow`, `readScan`, `parseCodeScan`;
* `Scanned`: what the loop over the rows has carried and counted; `Scanned.scanRow`: one row more;
* `Accounted`: nothing is lost in silence; **`accounted_iff`**: but labels beyond the thirty-second.
-/

namespace Idryx.AiUsage

/-! ## The document -/

/-- The longest document that is read. -/
def maxCodeScanBytes : Nat := 32 * 2 ^ 20

/-- What is carried of a scan at most: providers, labels of a provider, limits, and bytes of a text. -/
def maxProviders : Nat := 512

@[inherit_doc maxProviders]
def maxLabels : Nat := 32

@[inherit_doc maxProviders]
def maxScanLimits : Nat := 64

@[inherit_doc maxProviders]
def maxStored : Int := 300

/-- One place in the code. -/
structure Occurrence where
  file : GoString
  line : Int

/-- One row of the document. -/
structure ScanRow where
  provider : GoString
  label : GoString
  occurrences : List Occurrence

/-- The document, as far as it is read. -/
structure CodeScanDoc where
  schema : GoString
  generatedAt : GoString
  root : GoString
  toolName : GoString
  toolVersion : GoString
  entries : List ScanRow
  limits : List GoString

/-- The only schema that is accepted. -/
def codeScanSchema : GoString := "qryx.ai-inventory/v1"

/-- A byte of a provider id, at the index `i`. -/
def providerByte (i : Nat) (c : UInt8) : Bool :=
  (0x61 ≤ c && c ≤ 0x7A) || (0x30 ≤ c && c ≤ 0x39) || (0 < i && (c == 0x2E || c == 0x5F || c == 0x2D))

/-- The grammar of a provider id. -/
def validProviderID (s : GoString) : Bool :=
  if s = "" || 64 < s.length then false else s.zipIdx.all fun c => providerByte c.2 c.1

/-! ## The limits that are added -/

/-- The limit that is added for the limits that are cut. -/
def limitsNote (n : Nat) : GoString :=
  "The scan listed " ++ Strconv.itoa n ++ " limit(s) and this report carries the first " ++
    Strconv.itoa maxScanLimits ++ "."

/-- The limit that is added for the rows without a provider. -/
def unnamedNote (rows sites : Nat) : GoString :=
  "The scan found " ++ Strconv.itoa rows ++ " row(s) at " ++ Strconv.itoa sites ++
    " site(s) that reach a model through an indirection it could not resolve, so they name no provider and appear in no row below."

/-- The limit that is added for the rows whose provider is no id. -/
def notIDNote (rows sites : Nat) : GoString :=
  "The scan named " ++ Strconv.itoa rows ++ " row(s) at " ++ Strconv.itoa sites ++
    " site(s) with something that is not a provider id, so they appear in no row below."

/-- The limit that is added for the providers past the bound. -/
def beyondNote (rows sites : Nat) : GoString :=
  "The scan named more than " ++ Strconv.itoa maxProviders ++ " providers; " ++ Strconv.itoa rows ++
    " row(s) at " ++ Strconv.itoa sites ++ " site(s) for the rest are not carried."

/-! ## The loop over the rows -/

/-- What the loop has carried, and what it has counted. -/
structure ScanState where
  providers : List (GoString × CodeScanEntry)
  unnamed : Nat
  unnamedSites : Nat
  notID : Nat
  notIDSites : Nat
  beyond : Nat
  beyondSites : Nat
  nodup : (providers.map Prod.fst).Nodup

/-- `scan.Providers[p] = entry`. -/
def ScanState.put (st : ScanState) (p : GoString) (entry : CodeScanEntry) : ScanState :=
  { st with
    providers := Keyed.upsert Prod.fst p (p, entry) (fun row => (row.1, entry)) st.providers
    nodup := Keyed.nodup_upsert (by rfl) (by exact fun _ h => h) st.nodup }

variable (U : Unicode)

/-- The provider a row names. -/
def ScanRow.id (e : ScanRow) : GoString := normalize U e.provider

/-- A row added to the entry of its provider. -/
def CodeScanEntry.add (entry : CodeScanEntry) (e : ScanRow) : CodeScanEntry :=
  let label := Strings.trimSpace e.label
  { sites := entry.sites + e.occurrences.length
    labels :=
      if label ≠ "" ∧ entry.labels.length < maxLabels then
        entry.labels ++ [escape U label maxStored]
      else entry.labels }

/-- One turn of the loop. -/
def scanRow (st : ScanState) (e : ScanRow) : ScanState :=
  let sites := e.occurrences.length
  let p := e.id U
  if p = "" then { st with unnamed := st.unnamed + 1, unnamedSites := st.unnamedSites + sites }
  else if !validProviderID p then
    { st with notID := st.notID + 1, notIDSites := st.notIDSites + sites }
  else
    let known := Keyed.lookup Prod.fst p st.providers
    if known.isNone && maxProviders ≤ st.providers.length then
      { st with beyond := st.beyond + 1, beyondSites := st.beyondSites + sites }
    else st.put p (((known.map Prod.snd).getD ⟨0, []⟩).add U e)

/-- The loop over the rows of a document. -/
def scanRows (entries : List ScanRow) : ScanState :=
  entries.foldl (scanRow U) ⟨[], 0, 0, 0, 0, 0, 0, List.nodup_nil⟩

/-- The scan of a document that carries the schema. -/
def readScan (doc : CodeScanDoc) : CodeScan :=
  let st := scanRows U doc.entries
  { root := escape U doc.root maxStored
    generatedAt := escape U doc.generatedAt maxStored
    tool := escape U (doc.toolName ++ " " ++ doc.toolVersion) maxStored
    limits :=
      (doc.limits.take maxScanLimits).map (escape U · maxStored) ++
        (if maxScanLimits < doc.limits.length then [limitsNote doc.limits.length] else []) ++
        (if 0 < st.unnamed then [unnamedNote st.unnamed st.unnamedSites] else []) ++
        (if 0 < st.notID then [notIDNote st.notID st.notIDSites] else []) ++
        if 0 < st.beyond then [beyondNote st.beyond st.beyondSites] else []
    providers := st.providers.map fun row => (row.1, { row.2 with labels := dedupeSorted row.2.labels })
    nodup := by rw [List.map_map]; exact st.nodup }

/-- `ParseCodeScan`. How the text is decoded is a parameter. -/
def parseCodeScan (unmarshal : GoString → Except GoString CodeScanDoc) (data : GoString) :
    Except GoString CodeScan :=
  if maxCodeScanBytes < data.length then
    .error ("parse ai-inventory: the document is larger than " ++ Strconv.itoa maxCodeScanBytes ++
      " bytes, which is more than a source scan of one estate writes; it was not read")
  else
    match unmarshal data with
    | .error err => .error ("parse ai-inventory: " ++ err)
    | .ok doc =>
      if doc.schema ≠ codeScanSchema then
        .error ("parse ai-inventory: schema is " ++ Strconv.quote U (escape U doc.schema 80) ++ ", want " ++
          Strconv.quote U codeScanSchema ++
          "; a document this reader does not know would be reported as an empty code column, which reads as an estate whose code reaches no model")
      else .ok (readScan U doc)

/-! ## What is carried -/

/-- The places of some rows. -/
def sites (es : List ScanRow) : Nat := (es.map fun e => e.occurrences.length).sum

/-- How many rows, at how many places. -/
def tally (es : List ScanRow) : Nat × Nat := (es.length, sites es)

/-- The rows without a provider, and those whose provider is no id. -/
def unnamedRows (es : List ScanRow) : List ScanRow := es.filter fun e => e.id U = ""

@[inherit_doc unnamedRows]
def notIDRows (es : List ScanRow) : List ScanRow :=
  es.filter fun e => e.id U ≠ "" && !validProviderID (e.id U)

/-- The provider ids of the document, each once, as they come. -/
def providerIDs (es : List ScanRow) : List GoString :=
  ((es.filter fun e => validProviderID (e.id U)).map (ScanRow.id U)).foldl Groups.insertMember []

/-- The ones that are carried. -/
def carried (es : List ScanRow) : List GoString := (providerIDs U es).take maxProviders

/-- The rows of the providers past the bound. -/
def beyondRows (es : List ScanRow) : List ScanRow :=
  es.filter fun e => validProviderID (e.id U) && !(carried U es).contains (e.id U)

/-- The rows of a provider. -/
def rowsOf (es : List ScanRow) (p : GoString) : List ScanRow := es.filter fun e => e.id U = p

/-- The label of a row, as it is stored, unless it is blank. -/
def ScanRow.stored (e : ScanRow) : List GoString :=
  let label := Strings.trimSpace e.label
  if label ≠ "" then [escape U label maxStored] else []

/-- The labels of some rows. -/
def labels (es : List ScanRow) : List GoString := es.flatMap (ScanRow.stored U)

/-- What the loop leaves after these rows. -/
structure Scanned (es : List ScanRow) (st : ScanState) : Prop where
  providers : st.providers = (carried U es).map fun p =>
    (p, ⟨sites (rowsOf U es p), (labels U (rowsOf U es p)).take maxLabels⟩)
  unnamed : (st.unnamed, st.unnamedSites) = tally (unnamedRows U es)
  notID : (st.notID, st.notIDSites) = tally (notIDRows U es)
  beyond : (st.beyond, st.beyondSites) = tally (beyondRows U es)

variable {U} {es : List ScanRow} {e : ScanRow} {p : GoString}

theorem sites_append (es fs : List ScanRow) : sites (es ++ fs) = sites es + sites fs := by
  rw [sites, List.map_append, List.sum_append]
  rfl

theorem labels_append (es fs : List ScanRow) : labels U (es ++ fs) = labels U es ++ labels U fs :=
  List.flatMap_append

theorem validProviderID_ne {p : GoString} (h : validProviderID p = true) : p ≠ "" := by
  rintro rfl
  exact absurd h (by decide)

/-! ## One row more -/

theorem rowsOf_append_self : rowsOf U (es ++ [e]) (e.id U) = rowsOf U es (e.id U) ++ [e] := by
  simp [rowsOf]

theorem rowsOf_append_ne (h : e.id U ≠ p) : rowsOf U (es ++ [e]) p = rowsOf U es p := by
  simp [rowsOf, h]

theorem nodup_providerIDs (es : List ScanRow) : (providerIDs U es).Nodup :=
  Groups.nodup_foldl_insertMember List.nodup_nil _

theorem mem_providerIDs : p ∈ providerIDs U es ↔ ∃ e ∈ es, validProviderID (e.id U) = true ∧ e.id U = p := by
  rw [providerIDs, Groups.mem_foldl_members, List.mem_map]
  simp [and_assoc]

theorem validProviderID_of_mem_carried (h : p ∈ carried U es) : validProviderID p = true := by
  obtain ⟨e, -, hvalid, rfl⟩ := mem_providerIDs.mp (List.mem_of_mem_take h)
  exact hvalid

theorem providerIDs_append : providerIDs U (es ++ [e]) =
    if validProviderID (e.id U) then Groups.insertMember (providerIDs U es) (e.id U)
    else providerIDs U es := by
  unfold providerIDs
  rw [List.filter_append]
  split_ifs with h
  · have hone : [e].filter (fun e => validProviderID (e.id U)) = [e] := by simp [h]
    rw [hone, List.map_append, List.map_singleton, List.foldl_concat]
  · have hnone : [e].filter (fun e => validProviderID (e.id U)) = [] := by simp [h]
    rw [hnone, List.append_nil]

theorem carried_append_of_mem (h : e.id U ∈ providerIDs U es ∨ validProviderID (e.id U) = false ∨
    maxProviders ≤ (providerIDs U es).length) : carried U (es ++ [e]) = carried U es := by
  unfold carried
  rw [providerIDs_append]
  by_cases hvalid : validProviderID (e.id U) = true
  · rw [if_pos hvalid, Groups.insertMember]
    by_cases hmem : e.id U ∈ providerIDs U es
    · rw [if_pos hmem]
    · have hfull : maxProviders ≤ (providerIDs U es).length := by
        rcases h with h | h | h
        · exact absurd h hmem
        · exact absurd hvalid (by simp [h])
        · exact h
      rw [if_neg hmem, List.take_append_of_le_length hfull]
  · rw [if_neg hvalid]

theorem carried_append_of_not_mem (hvalid : validProviderID (e.id U) = true)
    (hmem : e.id U ∉ providerIDs U es) (hroom : (providerIDs U es).length < maxProviders) :
    carried U (es ++ [e]) = carried U es ++ [e.id U] := by
  unfold carried
  rw [providerIDs_append, if_pos hvalid, Groups.insertMember, if_neg hmem, List.take_of_length_le,
    List.take_of_length_le hroom.le]
  rw [List.length_append, List.length_singleton]
  exact hroom

theorem carried_append (es : List ScanRow) (e : ScanRow) : carried U (es ++ [e]) = carried U es ∨
    e.id U ∉ providerIDs U es ∧ carried U (es ++ [e]) = carried U es ++ [e.id U] := by
  by_cases h : e.id U ∈ providerIDs U es ∨ validProviderID (e.id U) = false ∨
      maxProviders ≤ (providerIDs U es).length
  · exact Or.inl (carried_append_of_mem h)
  · rw [not_or, not_or, Bool.not_eq_false, not_le] at h
    exact Or.inr ⟨h.1, carried_append_of_not_mem h.2.1 h.1 h.2.2⟩

theorem beyondRows_append : beyondRows U (es ++ [e]) = beyondRows U es ++
    if validProviderID (e.id U) && !(carried U (es ++ [e])).contains (e.id U) then [e] else [] := by
  unfold beyondRows
  rw [List.filter_append]
  congr 1
  · refine List.filter_congr fun x hx => ?_
    cases hvalid : validProviderID (x.id U) with
    | false => rfl
    | true =>
      have hx : x.id U ∈ providerIDs U es := mem_providerIDs.mpr ⟨x, hx, hvalid, rfl⟩
      rcases carried_append es e with heq | ⟨hnew, heq⟩
      · rw [heq]
      · have hne : x.id U ≠ e.id U := fun h => hnew (h ▸ hx)
        rw [heq]
        simp [hne]
  · rw [List.filter_cons]
    rfl

theorem add_entry (es : List ScanRow) (h : e.id U = p) :
    (⟨sites (rowsOf U es p), (labels U (rowsOf U es p)).take maxLabels⟩ : CodeScanEntry).add U e =
      ⟨sites (rowsOf U (es ++ [e]) p), (labels U (rowsOf U (es ++ [e]) p)).take maxLabels⟩ := by
  subst h
  have hone : sites [e] = e.occurrences.length := by simp [sites]
  have hlabel : labels U [e] = e.stored U := List.flatMap_singleton ..
  rw [rowsOf_append_self, sites_append, labels_append, hone, hlabel, List.take_append]
  unfold CodeScanEntry.add ScanRow.stored
  dsimp only
  congr 1
  rw [List.length_take]
  by_cases hblank : Strings.trimSpace e.label ≠ ""
  · rw [if_pos hblank]
    by_cases hroom : (labels U (rowsOf U es (e.id U))).length < maxLabels
    · rw [if_pos ⟨hblank, by omega⟩, List.take_of_length_le (l := [_])]
      rw [List.length_singleton]
      omega
    · rw [if_neg (by omega), Nat.sub_eq_zero_of_le (not_lt.mp hroom), List.take_zero, List.append_nil]
  · rw [if_neg hblank, if_neg fun h => hblank h.1, List.take_nil, List.append_nil]

theorem entries_append_of_ne {ks : List GoString} (h : e.id U ∉ ks) :
    (ks.map fun p => (p, (⟨sites (rowsOf U (es ++ [e]) p),
        (labels U (rowsOf U (es ++ [e]) p)).take maxLabels⟩ : CodeScanEntry))) =
      ks.map fun p => (p, ⟨sites (rowsOf U es p), (labels U (rowsOf U es p)).take maxLabels⟩) := by
  refine List.map_congr_left fun p hp => ?_
  rw [rowsOf_append_ne fun heq => h (heq ▸ hp)]

theorem nodup_carried (es : List ScanRow) : (carried U es).Nodup :=
  (nodup_providerIDs es).sublist (List.take_sublist _ _)

/-- The rows of the three kinds that are not carried, after one row more. -/
theorem unnamedRows_append : unnamedRows U (es ++ [e]) =
    unnamedRows U es ++ if e.id U = "" then [e] else [] := by
  simp [unnamedRows, List.filter_cons]

@[inherit_doc unnamedRows_append]
theorem notIDRows_append : notIDRows U (es ++ [e]) =
    notIDRows U es ++ if e.id U ≠ "" && !validProviderID (e.id U) then [e] else [] := by
  simp [notIDRows, List.filter_cons]

theorem tally_concat {n k : Nat} (h : (n, k) = tally es) (e : ScanRow) :
    (n + 1, k + e.occurrences.length) = tally (es ++ [e]) := by
  obtain ⟨rfl, rfl⟩ := Prod.mk.inj h
  rw [tally, sites_append, List.length_append]
  simp [sites]

theorem Scanned.skip {st st' : ScanState} (h : Scanned U es st) (hsame : st'.providers = st.providers)
    (hcarried : carried U (es ++ [e]) = carried U es) (hnot : e.id U ∉ carried U es)
    (hunnamed : (st'.unnamed, st'.unnamedSites) = tally (unnamedRows U (es ++ [e])))
    (hnotID : (st'.notID, st'.notIDSites) = tally (notIDRows U (es ++ [e])))
    (hbeyond : (st'.beyond, st'.beyondSites) = tally (beyondRows U (es ++ [e]))) :
    Scanned U (es ++ [e]) st' := by
  refine ⟨?_, hunnamed, hnotID, hbeyond⟩
  rw [hsame, h.providers, hcarried, entries_append_of_ne hnot]

theorem Scanned.keys {st : ScanState} (h : Scanned U es st) : st.providers.map Prod.fst = carried U es := by
  rw [h.providers, List.map_map]
  exact List.map_id _

theorem Scanned.put_known {st : ScanState} (h : Scanned U es st) (hmem : e.id U ∈ carried U es) :
    (st.put (e.id U) ((((Keyed.lookup Prod.fst (e.id U) st.providers).map Prod.snd).getD ⟨0, []⟩).add U e)).providers =
      (carried U es).map fun p =>
        (p, ⟨sites (rowsOf U (es ++ [e]) p), (labels U (rowsOf U (es ++ [e]) p)).take maxLabels⟩) := by
  have hlookup := Keyed.lookup_graph hmem fun p =>
    (⟨sites (rowsOf U es p), (labels U (rowsOf U es p)).take maxLabels⟩ : CodeScanEntry)
  rw [← h.providers] at hlookup
  rw [hlookup]
  dsimp only [Option.map_some, Option.getD_some, ScanState.put]
  rw [add_entry es rfl, Keyed.upsert_of_mem st.nodup (h.keys ▸ hmem), h.providers, List.map_map]
  refine List.map_congr_left fun p _ => ?_
  dsimp only [Function.comp]
  split_ifs with heq
  · rw [heq]
  · rw [rowsOf_append_ne (Ne.symm heq)]

theorem Scanned.put_new {st : ScanState} (h : Scanned U es st) (hmem : e.id U ∉ carried U es)
    (hrows : rowsOf U es (e.id U) = []) :
    (st.put (e.id U) ((((Keyed.lookup Prod.fst (e.id U) st.providers).map Prod.snd).getD ⟨0, []⟩).add U e)).providers =
      (carried U es ++ [e.id U]).map fun p =>
        (p, ⟨sites (rowsOf U (es ++ [e]) p), (labels U (rowsOf U (es ++ [e]) p)).take maxLabels⟩) := by
  have hentry := add_entry es (U := U) (e := e) rfl
  rw [hrows] at hentry
  rw [Keyed.lookup_eq_none.mpr (h.keys ▸ hmem)]
  dsimp only [Option.map_none, Option.getD_none, ScanState.put]
  rw [Keyed.upsert_of_not_mem, h.providers, List.map_append, entries_append_of_ne hmem]
  · exact congrArg (fun entry => _ ++ [(e.id U, entry)]) hentry
  · intro row hrow heq
    refine hmem ?_
    rw [← h.keys, ← heq]
    exact List.mem_map_of_mem hrow

/-- **One row more**, by the ways the loop takes: the row has no name, or none that is an id; there is no
room for its provider; its provider is there, or is new. -/
theorem Scanned.scanRow {st : ScanState} (h : Scanned U es st) (e : ScanRow) :
    Scanned U (es ++ [e]) (scanRow U st e) := by
  unfold AiUsage.scanRow
  dsimp only
  by_cases hblank : e.id U = ""
  · have hvalid : validProviderID (e.id U) = false := by rw [hblank]; rfl
    rw [if_pos hblank]
    refine h.skip rfl (carried_append_of_mem (Or.inr (Or.inl hvalid))) ?_ ?_ ?_ ?_
    · exact fun hmem => validProviderID_ne (validProviderID_of_mem_carried hmem) hblank
    · rw [unnamedRows_append, if_pos hblank]
      exact tally_concat h.unnamed e
    · simpa [notIDRows_append, hblank] using h.notID
    · simpa [beyondRows_append, hvalid] using h.beyond
  rw [if_neg hblank]
  by_cases hvalid : validProviderID (e.id U) = true
  swap
  · rw [Bool.not_eq_true] at hvalid
    rw [hvalid, Bool.not_false, if_pos rfl]
    refine h.skip rfl (carried_append_of_mem (Or.inr (Or.inl hvalid))) ?_ ?_ ?_ ?_
    · intro hmem
      rw [validProviderID_of_mem_carried hmem] at hvalid
      cases hvalid
    · simpa [unnamedRows_append, hblank] using h.unnamed
    · rw [notIDRows_append, if_pos (by simp [hblank, hvalid])]
      exact tally_concat h.notID e
    · simpa [beyondRows_append, hvalid] using h.beyond
  have hlen : st.providers.length = (carried U es).length := by rw [← h.keys, List.length_map]
  rw [hvalid, Bool.not_true, if_neg Bool.false_ne_true, hlen]
  have hunnamed : (st.unnamed, st.unnamedSites) = tally (unnamedRows U (es ++ [e])) := by
    simpa [unnamedRows_append, hblank] using h.unnamed
  have hnotID : (st.notID, st.notIDSites) = tally (notIDRows U (es ++ [e])) := by
    simpa [notIDRows_append, hvalid] using h.notID
  by_cases hmem : e.id U ∈ carried U es
  · -- the provider is there
    have hcarried : carried U (es ++ [e]) = carried U es :=
      carried_append_of_mem (Or.inl (List.mem_of_mem_take hmem))
    have hbeyond : (st.beyond, st.beyondSites) = tally (beyondRows U (es ++ [e])) := by
      simpa [beyondRows_append, hcarried, hmem] using h.beyond
    have hknown : Keyed.lookup Prod.fst (e.id U) st.providers ≠ none :=
      mt Keyed.lookup_eq_none.mp (not_not.mpr (h.keys ▸ hmem))
    rw [if_neg (by simp [hknown])]
    exact ⟨hcarried ▸ h.put_known hmem, hunnamed, hnotID, hbeyond⟩
  have hlookup : Keyed.lookup Prod.fst (e.id U) st.providers = none :=
    Keyed.lookup_eq_none.mpr (h.keys ▸ hmem)
  by_cases hfull : maxProviders ≤ (carried U es).length
  · -- there is no room for it
    have hcarried : carried U (es ++ [e]) = carried U es := by
      refine carried_append_of_mem (Or.inr (Or.inr (hfull.trans ?_)))
      exact (List.take_sublist _ _).length_le
    rw [if_pos (by simpa [hlookup] using hfull)]
    refine h.skip rfl hcarried hmem hunnamed hnotID ?_
    rw [beyondRows_append, hcarried, hvalid, if_pos (by simpa using hmem)]
    exact tally_concat h.beyond e
  · -- it is new
    have hroom : (providerIDs U es).length < maxProviders := by
      rw [carried, List.length_take] at hfull
      omega
    have hall : carried U es = providerIDs U es := List.take_of_length_le hroom.le
    have hnew : e.id U ∉ providerIDs U es := hall ▸ hmem
    have hcarried := carried_append_of_not_mem hvalid hnew hroom
    have hrows : rowsOf U es (e.id U) = [] := by
      refine List.filter_eq_nil_iff.mpr fun x hx hid => hnew ?_
      rw [decide_eq_true_eq] at hid
      exact mem_providerIDs.mpr ⟨x, hx, hid ▸ hvalid, hid⟩
    have hbeyond : (st.beyond, st.beyondSites) = tally (beyondRows U (es ++ [e])) := by
      simpa [beyondRows_append, hcarried] using h.beyond
    rw [if_neg (by simpa [hlookup] using hfull)]
    exact ⟨hcarried ▸ h.put_new hmem hrows, hunnamed, hnotID, hbeyond⟩

/-- **What the loop leaves.** -/
theorem scanned_scanRows (U : Unicode) (es : List ScanRow) : Scanned U es (scanRows U es) := by
  induction es using List.reverseRecOn with
  | nil => exact ⟨rfl, rfl, rfl, rfl⟩
  | append_singleton es e ih =>
    rw [scanRows, List.foldl_concat]
    exact ih.scanRow e

/-! ## Nothing lost in silence -/

/-- The limits that are added to those of the document. -/
def added (doc : CodeScanDoc) (scan : CodeScan) : List GoString :=
  scan.limits.drop (min maxScanLimits doc.limits.length)

/-- What the scan has kept of the document, and said of the rest. -/
structure Accounted (U : Unicode) (doc : CodeScanDoc) (scan : CodeScan) : Prop where
  sites : sites doc.entries = (scan.providers.map fun row => row.2.sites).sum +
    sites (unnamedRows U doc.entries) + sites (notIDRows U doc.entries) + sites (beyondRows U doc.entries)
  unnamed : unnamedRows U doc.entries ≠ [] →
    unnamedNote (unnamedRows U doc.entries).length (AiUsage.sites (unnamedRows U doc.entries)) ∈ scan.limits
  notID : notIDRows U doc.entries ≠ [] →
    notIDNote (notIDRows U doc.entries).length (AiUsage.sites (notIDRows U doc.entries)) ∈ scan.limits
  beyond : beyondRows U doc.entries ≠ [] →
    beyondNote (beyondRows U doc.entries).length (AiUsage.sites (beyondRows U doc.entries)) ∈ scan.limits
  rows : ∀ e ∈ doc.entries, e.id U ∈ scan.providers.map Prod.fst ∨ e ∈ unnamedRows U doc.entries ∨
    e ∈ notIDRows U doc.entries ∨ e ∈ beyondRows U doc.entries
  limits : ∀ l ∈ doc.limits, escape U l maxStored ∈ scan.limits ∨
    limitsNote doc.limits.length ∈ scan.limits
  providers_le : scan.providers.length ≤ maxProviders
  valid : ∀ row ∈ scan.providers, validProviderID row.1 = true
  labels_le : ∀ row ∈ scan.providers, row.2.labels.length ≤ maxLabels ∧ row.2.labels.Nodup

/-- So no label either: one that is not carried with its provider is spoken of in an added limit. -/
structure NothingLost (U : Unicode) (doc : CodeScanDoc) (scan : CodeScan) : Prop
    extends Accounted U doc scan where
  labels : ∀ e ∈ doc.entries, ∀ entry, (e.id U, entry) ∈ scan.providers → ∀ l ∈ e.stored U,
    l ∈ entry.labels ∨ ∃ note ∈ added doc scan, Strings.contains note "label" = true

/-- Each label of a provider that is carried is one of the first it has, as many as are kept. -/
def LabelsFit (U : Unicode) (doc : CodeScanDoc) : Prop :=
  ∀ p ∈ carried U doc.entries, ∀ l ∈ labels U (rowsOf U doc.entries p),
    l ∈ (labels U (rowsOf U doc.entries p)).take maxLabels

/-! ### The places -/

theorem sites_filter_or {p q : ScanRow → Bool} (h : ∀ e ∈ es, p e = true → q e = false) :
    sites (es.filter fun e => p e || q e) = sites (es.filter p) + sites (es.filter q) := by
  induction es with
  | nil => rfl
  | cons e es ih =>
    have hsum : ∀ r : ScanRow → Bool, sites ((e :: es).filter r) =
        (if r e then e.occurrences.length else 0) + sites (es.filter r) := by
      intro r
      rw [List.filter_cons]
      split_ifs <;> simp [sites]
    rw [List.forall_mem_cons] at h
    rw [hsum, hsum, hsum, ih h.2]
    cases hp : p e with
    | true =>
      rw [h.1 hp]
      simp only [Bool.true_or, if_true, Bool.false_eq_true, if_false]
      omega
    | false =>
      simp only [Bool.false_or, Bool.false_eq_true, if_false]
      omega

theorem sum_sites_rowsOf {ks : List GoString} (hn : ks.Nodup) :
    (ks.map fun p => sites (rowsOf U es p)).sum = sites (es.filter fun e => ks.contains (e.id U)) := by
  induction ks with
  | nil => simp [sites]
  | cons p ks ih =>
    rw [List.nodup_cons] at hn
    rw [List.map_cons, List.sum_cons, ih hn.2, rowsOf, ← sites_filter_or]
    · congr 1
      refine List.filter_congr fun e _ => ?_
      rw [List.contains_cons]
      by_cases hp : e.id U = p <;> simp [hp]
    · intro e _ hp
      rw [decide_eq_true_eq] at hp
      simpa [hp] using hn.1

/-- **Every place is in one of the four parts.** -/
theorem sites_eq (U : Unicode) (es : List ScanRow) :
    sites es = ((carried U es).map fun p => sites (rowsOf U es p)).sum + sites (unnamedRows U es) +
      sites (notIDRows U es) + sites (beyondRows U es) := by
  rw [sum_sites_rowsOf (nodup_carried es), unnamedRows, notIDRows, beyondRows, ← sites_filter_or,
    ← sites_filter_or, ← sites_filter_or]
  · have hall : ∀ e ∈ es, ((carried U es).contains (e.id U) || decide (e.id U = "") ||
        (decide (e.id U ≠ "") && !validProviderID (e.id U)) ||
        (validProviderID (e.id U) && !(carried U es).contains (e.id U))) = true := by
      intro e _
      by_cases hblank : e.id U = ""
      · simp [hblank]
      · cases validProviderID (e.id U) <;> cases (carried U es).contains (e.id U) <;> simp [hblank]
    rw [List.filter_eq_self.mpr hall]
  -- the parts are apart: what is carried is an id, and what has no name is none
  all_goals
    intro e _
    have hcarried : (carried U es).contains (e.id U) = true → validProviderID (e.id U) = true :=
      fun h => validProviderID_of_mem_carried (List.contains_iff_mem.mp h)
    have hblank : e.id U = "" → validProviderID (e.id U) = false := by
      intro h
      rw [h]
      rfl
    by_cases h : e.id U = ""
    · cases hc : (carried U es).contains (e.id U) <;> simp_all
    · cases hc : (carried U es).contains (e.id U) <;> simp_all

/-! ### The added limits -/

/-- No `a` is followed by a `b`, as in a label. -/
def Calm (s : GoString) : Prop := s.IsChain fun x y => ¬ (x = 0x61 ∧ y = 0x62)

theorem Calm.not_label {s : GoString} (h : Calm s) : Strings.contains s "label" = false := by
  rw [Bool.eq_false_iff]
  intro hlabel
  have hinfix : ([0x61, 0x62] : GoString) <:+: s := by
    refine List.IsInfix.trans ?_ (Strings.contains_iff.mp hlabel)
    exact ⟨[0x6C], [0x65, 0x6C], by decide⟩
  have hpair := h.infix hinfix
  simp [List.isChain_cons_cons] at hpair

instance (s : GoString) : Decidable (Calm s) := inferInstanceAs (Decidable (List.IsChain _ s))

theorem Calm.append {s t : GoString} (hs : Calm s) (hlast : s.getLast? ≠ some 0x61) (ht : Calm t) :
    Calm (s ++ t) := by
  refine List.IsChain.append hs ht fun x hx y _ hxy => hlast ?_
  rw [← hxy.1]
  exact hx

theorem calm_itoa_append (n : Nat) {t : GoString} (ht : Calm t) : Calm (Strconv.itoa n ++ t) := by
  have hne : ∀ b ∈ Strconv.itoa n, b ≠ 0x61 := by
    rintro b hb rfl
    have := Strconv.digit_of_mem_itoa hb
    simp at this
  have hcalm : ∀ s : GoString, (∀ b ∈ s, b ≠ 0x61) → Calm s := by
    intro s hs
    induction s with
    | nil => exact List.IsChain.nil
    | cons b s ih =>
      rw [List.forall_mem_cons] at hs
      exact List.isChain_cons.mpr ⟨fun _ _ h => hs.1 h.1, ih hs.2⟩
  exact (hcalm _ hne).append (fun h => hne _ (List.mem_of_getLast? h) rfl) ht

theorem calm_limitsNote (n : Nat) : Calm (limitsNote n) := by
  unfold limitsNote
  simp only [List.append_assoc]
  refine Calm.append (by decide) (by decide) (calm_itoa_append n ?_)
  exact Calm.append (by decide) (by decide) (calm_itoa_append _ (by decide))

theorem calm_unnamedNote (rows sites : Nat) : Calm (unnamedNote rows sites) := by
  unfold unnamedNote
  simp only [List.append_assoc]
  refine Calm.append (by decide) (by decide) (calm_itoa_append rows ?_)
  exact Calm.append (by decide) (by decide) (calm_itoa_append sites (by decide +kernel))

theorem calm_notIDNote (rows sites : Nat) : Calm (notIDNote rows sites) := by
  unfold notIDNote
  simp only [List.append_assoc]
  refine Calm.append (by decide) (by decide) (calm_itoa_append rows ?_)
  exact Calm.append (by decide) (by decide) (calm_itoa_append sites (by decide +kernel))

theorem calm_beyondNote (rows sites : Nat) : Calm (beyondNote rows sites) := by
  unfold beyondNote
  simp only [List.append_assoc]
  refine Calm.append (by decide) (by decide) (calm_itoa_append _ ?_)
  refine Calm.append (by decide) (by decide) (calm_itoa_append rows ?_)
  exact Calm.append (by decide) (by decide) (calm_itoa_append sites (by decide +kernel))

theorem added_readScan (U : Unicode) (doc : CodeScanDoc) : added doc (readScan U doc) =
    (if maxScanLimits < doc.limits.length then [limitsNote doc.limits.length] else []) ++
      (if 0 < (scanRows U doc.entries).unnamed then
        [unnamedNote (scanRows U doc.entries).unnamed (scanRows U doc.entries).unnamedSites] else []) ++
      (if 0 < (scanRows U doc.entries).notID then
        [notIDNote (scanRows U doc.entries).notID (scanRows U doc.entries).notIDSites] else []) ++
      if 0 < (scanRows U doc.entries).beyond then
        [beyondNote (scanRows U doc.entries).beyond (scanRows U doc.entries).beyondSites] else [] := by
  unfold added readScan
  simp only [List.append_assoc]
  refine List.drop_left' ?_
  rw [List.length_map, List.length_take]

theorem added_calm {doc : CodeScanDoc} {note : GoString} (h : note ∈ added doc (readScan U doc)) :
    Strings.contains note "label" = false := by
  refine Calm.not_label ?_
  rw [added_readScan] at h
  simp only [List.mem_append] at h
  rcases h with ((h | h) | h) | h
  · split_ifs at h
    · rw [List.mem_singleton.mp h]
      exact calm_limitsNote _
    · cases h
  · split_ifs at h
    · rw [List.mem_singleton.mp h]
      exact calm_unnamedNote _ _
    · cases h
  · split_ifs at h
    · rw [List.mem_singleton.mp h]
      exact calm_notIDNote _ _
    · cases h
  · split_ifs at h
    · rw [List.mem_singleton.mp h]
      exact calm_beyondNote _ _
    · cases h

/-! ### The whole scan -/

theorem providers_readScan (U : Unicode) (doc : CodeScanDoc) :
    (readScan U doc).providers = (carried U doc.entries).map fun p =>
      (p, ⟨sites (rowsOf U doc.entries p),
        dedupeSorted ((labels U (rowsOf U doc.entries p)).take maxLabels)⟩) := by
  unfold readScan
  dsimp only
  rw [(scanned_scanRows U doc.entries).providers, List.map_map]
  rfl

theorem mem_limits_of_added (doc : CodeScanDoc) {scan : CodeScan} {note : GoString}
    (h : note ∈ added doc scan) : note ∈ scan.limits := List.mem_of_mem_drop h

theorem accounted_readScan (U : Unicode) (doc : CodeScanDoc) : Accounted U doc (readScan U doc) := by
  have hscan := scanned_scanRows U doc.entries
  have hunnamed := Prod.mk.inj hscan.unnamed
  have hnotID := Prod.mk.inj hscan.notID
  have hbeyond := Prod.mk.inj hscan.beyond
  have hkeys : (readScan U doc).providers.map Prod.fst = carried U doc.entries := by
    rw [providers_readScan, List.map_map]
    exact List.map_id _
  refine ⟨?_, ?_, ?_, ?_, ?_, ?_, ?_, ?_, ?_⟩
  · rw [sites_eq U doc.entries, providers_readScan, List.map_map]
    rfl
  · intro h
    refine mem_limits_of_added doc ?_
    rw [added_readScan, hunnamed.1, hunnamed.2, if_pos (List.length_pos_of_ne_nil h)]
    simp
  · intro h
    refine mem_limits_of_added doc ?_
    rw [added_readScan, hnotID.1, hnotID.2, if_pos (List.length_pos_of_ne_nil h)]
    simp
  · intro h
    refine mem_limits_of_added doc ?_
    rw [added_readScan, hbeyond.1, hbeyond.2, if_pos (List.length_pos_of_ne_nil h)]
    simp
  · intro e he
    rw [hkeys, unnamedRows, notIDRows, beyondRows]
    simp only [List.mem_filter, he, true_and]
    by_cases hblank : e.id U = ""
    · simp [hblank]
    · by_cases hc : e.id U ∈ carried U doc.entries
      · exact Or.inl hc
      · cases validProviderID (e.id U) <;> simp [hblank, hc]
  · intro l hl
    by_cases hmany : maxScanLimits < doc.limits.length
    · right
      refine mem_limits_of_added doc ?_
      rw [added_readScan, if_pos hmany]
      simp
    · left
      unfold readScan
      simp only [List.mem_append, List.append_assoc]
      rw [List.take_of_length_le (not_lt.mp hmany)]
      exact Or.inl (List.mem_map_of_mem hl)
  · rw [← List.length_map (f := Prod.fst), hkeys]
    exact List.length_take_le _ _
  · intro row hrow
    exact validProviderID_of_mem_carried (hkeys ▸ List.mem_map_of_mem hrow)
  · intro row hrow
    rw [providers_readScan] at hrow
    obtain ⟨p, -, rfl⟩ := List.mem_map.mp hrow
    exact ⟨(length_dedupeSorted_le _).trans (List.length_take_le _ _), nodup_dedupeSorted _⟩

theorem nothingLost_readScan (U : Unicode) (doc : CodeScanDoc) :
    NothingLost U doc (readScan U doc) ↔ LabelsFit U doc := by
  constructor
  · intro h p hp l hl
    obtain ⟨e, hrow, hstored⟩ := List.mem_flatMap.mp hl
    obtain ⟨he, hid⟩ := List.mem_filter.mp hrow
    obtain rfl : e.id U = p := of_decide_eq_true hid
    have hentry : (e.id U, ⟨sites (rowsOf U doc.entries (e.id U)),
        dedupeSorted ((labels U (rowsOf U doc.entries (e.id U))).take maxLabels)⟩) ∈
          (readScan U doc).providers := by
      rw [providers_readScan]
      exact List.mem_map_of_mem hp
    rcases h.labels e he _ hentry l hstored with hkept | ⟨note, hnote, hsays⟩
    · exact mem_dedupeSorted.mp hkept
    · rw [added_calm hnote] at hsays
      cases hsays
  · intro h
    refine ⟨accounted_readScan U doc, ?_⟩
    intro e he entry hentry l hl
    rw [providers_readScan] at hentry
    obtain ⟨p, hp, heq⟩ := List.mem_map.mp hentry
    obtain ⟨rfl, rfl⟩ := Prod.mk.inj heq
    refine Or.inl (mem_dedupeSorted.mpr (h _ hp l ?_))
    exact List.mem_flatMap.mpr ⟨e, List.mem_filter.mpr ⟨he, by simp⟩, hl⟩

/-- **Nothing is lost in silence but labels.** In the scan of every document that is accepted the places
add up, the bounds hold, and each row, provider and limit is carried or counted in a limit; and nothing
at all is lost exactly when the labels fit. -/
theorem accounted_iff (U : Unicode) (unmarshal : GoString → Except GoString CodeScanDoc) (data : GoString)
    (scan : CodeScan) (h : parseCodeScan U unmarshal data = .ok scan) :
    ∃ doc, unmarshal data = .ok doc ∧ Accounted U doc scan ∧
      (NothingLost U doc scan ↔ LabelsFit U doc) := by
  unfold parseCodeScan at h
  split_ifs at h
  cases hdoc : unmarshal data with
  | error err =>
    rw [hdoc] at h
    cases h
  | ok doc =>
    rw [hdoc] at h
    dsimp only at h
    split_ifs at h
    obtain rfl := Except.ok.inj h
    exact ⟨doc, rfl, accounted_readScan U doc, nothingLost_readScan U doc⟩

/-- One provider under so many labels, `label 0`, `label 1`, and so on. -/
def manyLabels (n : Nat) : CodeScanDoc :=
  { schema := codeScanSchema, generatedAt := "", root := "/src", toolName := "qryx", toolVersion := "v0.4.0"
    entries := (List.range n).map fun i => ⟨"openai", "label " ++ Strconv.itoa i, [⟨"a.py", 1⟩]⟩
    limits := [] }

/-- Of two labels none is lost. -/
theorem accounted_twoLabels : ∃ doc, Except.ok (manyLabels 2) = Except.ok (ε := GoString) doc ∧
    Accounted Unicode.basic doc (readScan Unicode.basic (manyLabels 2)) ∧
      (NothingLost Unicode.basic doc (readScan Unicode.basic (manyLabels 2)) ↔
        LabelsFit Unicode.basic doc) :=
  accounted_iff Unicode.basic (fun _ => .ok (manyLabels 2)) "" (readScan Unicode.basic (manyLabels 2)) rfl

/-- The thirty-third is, and no limit says so. -/
theorem not_nothingLost_manyLabels :
    parseCodeScan Unicode.basic (fun _ => .ok (manyLabels 33)) "" =
      .ok (readScan Unicode.basic (manyLabels 33)) ∧
    (readScan Unicode.basic (manyLabels 33)).limits = [] ∧
    ¬ NothingLost Unicode.basic (manyLabels 33) (readScan Unicode.basic (manyLabels 33)) := by
  refine ⟨rfl, by decide +kernel, ?_⟩
  rw [nothingLost_readScan]
  intro h
  have hlast := h "openai" (by decide +kernel) "label 32" (by decide +kernel)
  exact absurd hlast (by decide +kernel)

end Idryx.AiUsage
