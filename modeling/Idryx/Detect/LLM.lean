import Idryx.Go.Search
import Idryx.Lib.Keyed

/-!
# The hosts of model APIs

`internal/detect/detectors/shadow_ai.go`: which provider a destination belongs to.

* `llmHosts`, `matchLLM`, `matchLLMHost`;
* `Under host h`: what it is to be of a registered host; **`under_unique`**: no host is of two, so the
  order in which they are tried does not matter; **`matchLLM_exact`**: the provider found is the
  only one, whatever order the map is ranged over in, and no name that only ends in the letters of a
  registered host is given its provider;
* `matchLLMHost_id`: the ids handed back are printable text in lower case.
-/

namespace Idryx

/-- A recognised model API: the registered id, and the name a person reads. -/
structure LLMProvider where
  id : GoString
  display : GoString

/-- The registered hosts. -/
def llmHosts : List (GoString × LLMProvider) :=
  [("api.openai.com", ⟨"openai", "OpenAI"⟩),
    ("api.anthropic.com", ⟨"anthropic", "Anthropic"⟩),
    ("generativelanguage.googleapis.com", ⟨"google", "Google Gemini"⟩),
    ("api.mistral.ai", ⟨"mistral", "Mistral"⟩),
    ("api.cohere.ai", ⟨"cohere", "Cohere"⟩),
    ("api.perplexity.ai", ⟨"perplexity", "Perplexity"⟩),
    ("api.groq.com", ⟨"groq", "Groq"⟩),
    ("api.together.xyz", ⟨"together", "Together"⟩),
    ("openrouter.ai", ⟨"openrouter", "OpenRouter"⟩),
    ("api.replicate.com", ⟨"replicate", "Replicate"⟩),
    ("openai.azure.com", ⟨"azure-openai", "Azure OpenAI"⟩),
    ("cognitiveservices.azure.com", ⟨"azure-openai", "Azure OpenAI"⟩),
    ("services.ai.azure.com", ⟨"azure-openai", "Azure AI Foundry"⟩),
    ("aiplatform.googleapis.com", ⟨"vertex", "Google Vertex AI"⟩)]

/-- The registered hosts that take a region in front, joined with a hyphen. -/
def regionalPrefixHosts : List GoString := ["aiplatform.googleapis.com"]

/-- What stands before the last colon. -/
def beforePort (dest : GoString) : GoString :=
  match Strings.lastIndexByte dest 0x3A with
  | some i => dest.take i
  | none => dest

/-- The host of a destination, without its port, trimmed and in lower case. -/
def llmHost (U : Unicode) (dest : GoString) : GoString :=
  Strings.toLower U (Strings.trimSpace (beforePort dest))

/-- The host is under the registered host `h`. -/
def suffixed (host h : GoString) : Bool :=
  Strings.hasSuffix host ("." ++ h) ||
    (regionalPrefixHosts.contains h && Strings.hasSuffix host ("-" ++ h))

/-- The provider of a destination: of its host, or of the first registered host it is under. -/
def matchLLM (U : Unicode) (dest : GoString) : Option LLMProvider :=
  let host := llmHost U dest
  match Keyed.lookup Prod.fst host llmHosts with
  | some row => some row.2
  | none => (llmHosts.find? fun row => suffixed host row.1).map Prod.snd

/-- The id of the provider of a destination. -/
def matchLLMHost (U : Unicode) (dest : GoString) : Option GoString :=
  (matchLLM U dest).map LLMProvider.id

/-! ## The order of the table -/

/-- The ends a host under `h` has one of. -/
def ends (h : GoString) : List GoString :=
  if h ∈ regionalPrefixHosts then ["." ++ h, "-" ++ h] else ["." ++ h]

theorem suffixed_iff {host h : GoString} : suffixed host h = true ↔ ∃ e ∈ ends h, e <:+ host := by
  unfold suffixed ends
  simp only [Bool.or_eq_true, Bool.and_eq_true, Strings.hasSuffix, List.isSuffixOf_iff_suffix,
    List.contains_iff_mem]
  split_ifs with h
  · simp [h]
  · simp [h]

/-! ## What a destination matches -/

/-- The host is the registered host `h`, something and a dot in front of it or, where a region may stand
in front, something and a hyphen. -/
def Under (host h : GoString) : Prop :=
  host = h ∨ (∃ x, host = x ++ "." ++ h) ∨ h ∈ regionalPrefixHosts ∧ ∃ x, host = x ++ "-" ++ h

theorem under_iff {host h : GoString} : Under host h ↔ host = h ∨ suffixed host h = true := by
  have hcut : ∀ e : GoString, (e ++ h <:+ host) ↔ ∃ x, host = x ++ e ++ h := by
    intro e
    simp only [List.IsSuffix, List.append_assoc, eq_comm]
  rw [Under, suffixed_iff, ends, ← hcut, ← hcut]
  split_ifs with h' <;> simp [h']

theorem eq_of_suffix_of_under {host h h' : GoString} (hh : h ∈ llmHosts.map Prod.fst)
    (hh' : h' ∈ llmHosts.map Prod.fst) (hs : h <:+ host) (hu : Under host h') : h = h' := by
  have htable : ∀ h ∈ llmHosts.map Prod.fst, ∀ h' ∈ llmHosts.map Prod.fst, ∀ e ∈ h' :: ends h',
      h <:+ e ∨ e <:+ h → h = h' := by decide +kernel
  have hend : ∃ e ∈ h' :: ends h', e <:+ host := by
    rcases under_iff.mp hu with rfl | hsuf
    · exact ⟨host, List.mem_cons_self, List.suffix_refl host⟩
    · obtain ⟨e, he, hsuf⟩ := suffixed_iff.mp hsuf
      exact ⟨e, List.mem_cons_of_mem _ he, hsuf⟩
  obtain ⟨e, he, hsuf⟩ := hend
  exact htable h hh h' hh' e he (List.suffix_or_suffix_of_suffix hs hsuf)

theorem suffix_of_under {host h : GoString} (hu : Under host h) : h <:+ host := by
  rcases hu with rfl | ⟨x, rfl⟩ | ⟨-, x, rfl⟩
  · exact List.suffix_refl host
  · exact List.suffix_append _ h
  · exact List.suffix_append _ h

/-- **A host is of one registered host at most.** -/
theorem under_unique {host h h' : GoString} (hh : h ∈ llmHosts.map Prod.fst)
    (hh' : h' ∈ llmHosts.map Prod.fst) (hu : Under host h) (hu' : Under host h') : h = h' :=
  eq_of_suffix_of_under hh hh' (suffix_of_under hu) hu'

/-- `matchLLM` where the map is ranged over in the order of `rows`. -/
def matchLLMIn (rows : List (GoString × LLMProvider)) (U : Unicode) (dest : GoString) :
    Option LLMProvider :=
  let host := llmHost U dest
  match Keyed.lookup Prod.fst host rows with
  | some row => some row.2
  | none => (rows.find? fun row => suffixed host row.1).map Prod.snd

theorem nodup_llmHosts : (llmHosts.map Prod.fst).Nodup := by decide +kernel

theorem matchLLMIn_eq_some {rows : List (GoString × LLMProvider)} (hrows : rows.Perm llmHosts)
    {U : Unicode} {dest : GoString} {p : LLMProvider} :
    matchLLMIn rows U dest = some p ↔ ∃ h, (h, p) ∈ llmHosts ∧ Under (llmHost U dest) h := by
  have hmem : ∀ {row : GoString × LLMProvider}, row ∈ rows → row.1 ∈ llmHosts.map Prod.fst :=
    fun hrow => List.mem_map_of_mem (hrows.mem_iff.mp hrow)
  have hnodup : (rows.map Prod.fst).Nodup := (hrows.map Prod.fst).nodup_iff.mpr nodup_llmHosts
  -- a row the search stops at is the only one the host is under
  have hfound : ∀ {row : GoString × LLMProvider}, row ∈ rows → Under (llmHost U dest) row.1 →
      (some row.2 = some p ↔ ∃ h, (h, p) ∈ llmHosts ∧ Under (llmHost U dest) h) := by
    intro row hrow hu
    rw [Option.some.injEq]
    constructor
    · rintro rfl
      exact ⟨row.1, hrows.mem_iff.mp hrow, hu⟩
    · rintro ⟨h, hhp, hu'⟩
      have hh : row.1 = h := under_unique (hmem hrow) (List.mem_map_of_mem hhp) hu hu'
      have hl := Keyed.lookup_of_mem hnodup hrow
      have hl' := Keyed.lookup_of_mem hnodup (hrows.mem_iff.mpr hhp)
      rw [hh, hl', Option.some.injEq] at hl
      rw [← hl]
  unfold matchLLMIn
  simp only
  cases hl : Keyed.lookup Prod.fst (llmHost U dest) rows with
  | some row =>
    exact hfound (Keyed.mem_of_lookup hl) (Or.inl (Keyed.lookup_key hl).symm)
  | none =>
    cases hf : rows.find? fun row => suffixed (llmHost U dest) row.1 with
    | some row =>
      have hsuf : suffixed (llmHost U dest) row.1 = true := by
        simpa only using List.find?_some hf
      exact hfound (List.mem_of_find?_eq_some hf) (under_iff.mpr (Or.inr hsuf))
    | none =>
      simp only [Option.map_none, reduceCtorEq, false_iff]
      rintro ⟨h, hhp, hu⟩
      have hrow := hrows.mem_iff.mpr hhp
      rcases under_iff.mp hu with heq | hsuf
      · exact Keyed.lookup_eq_none.mp hl (heq ▸ List.mem_map_of_mem hrow)
      · exact absurd hsuf (List.find?_eq_none.mp hf _ hrow)

/-- **Host matching is unambiguous and exact to the suffix.** No destination has two providers, the
order of the map does not matter, the provider is that of the registered host the destination is of,
and a name with another byte before the letters of a registered host is not given its provider. -/
theorem matchLLM_exact (U : Unicode) (dest : GoString) :
    (∀ h p h' p', (h, p) ∈ llmHosts → (h', p') ∈ llmHosts → Under (llmHost U dest) h →
      Under (llmHost U dest) h' → p = p') ∧
    (∀ rows, rows.Perm llmHosts → matchLLMIn rows U dest = matchLLM U dest) ∧
    (∀ p, matchLLM U dest = some p ↔ ∃ h, (h, p) ∈ llmHosts ∧ Under (llmHost U dest) h) ∧
    ∀ h p x c, (h, p) ∈ llmHosts → llmHost U dest = x ++ c :: h → c ≠ 0x2E →
      (h ∈ regionalPrefixHosts → c ≠ 0x2D) → matchLLM U dest ≠ some p := by
  have hmatch : ∀ p, matchLLM U dest = some p ↔ ∃ h, (h, p) ∈ llmHosts ∧ Under (llmHost U dest) h :=
    fun p => matchLLMIn_eq_some (List.Perm.refl llmHosts)
  refine ⟨?_, ?_, hmatch, ?_⟩
  · intro h p h' p' hp hp' hu hu'
    have hsome := (hmatch p).mpr ⟨h, hp, hu⟩
    rw [(hmatch p').mpr ⟨h', hp', hu'⟩, Option.some.injEq] at hsome
    exact hsome.symm
  · intro rows hrows
    apply Option.ext
    intro p
    rw [matchLLMIn_eq_some hrows, hmatch]
  · intro h p x c hp hhost hdot hhyphen hsome
    obtain ⟨h', hp', hu⟩ := (hmatch p).mp hsome
    have hsuf : h <:+ llmHost U dest := by
      rw [hhost, List.append_cons]
      exact List.suffix_append _ h
    obtain rfl : h = h' :=
      eq_of_suffix_of_under (List.mem_map_of_mem hp) (List.mem_map_of_mem hp') hsuf hu
    rw [hhost, List.append_cons] at hu
    rcases hu with heq | ⟨y, heq⟩ | ⟨hreg, y, heq⟩
    · have hlen := congrArg List.length heq
      simp only [List.length_append, List.length_singleton] at hlen
      omega
    · have hlast := List.append_inj_right' (List.append_cancel_right heq) rfl
      exact hdot (List.head_eq_of_cons_eq hlast)
    · have hlast := List.append_inj_right' (List.append_cancel_right heq) rfl
      exact hhyphen hreg (List.head_eq_of_cons_eq hlast)

/-! ## The ids -/

theorem mem_of_matchLLM {U : Unicode} {dest : GoString} {p : LLMProvider}
    (h : matchLLM U dest = some p) : ∃ host, (host, p) ∈ llmHosts := by
  unfold matchLLM at h
  cases hl : Keyed.lookup Prod.fst (llmHost U dest) llmHosts with
  | some row =>
    simp only [hl, Option.some.injEq] at h
    exact ⟨row.1, h ▸ Keyed.mem_of_lookup hl⟩
  | none =>
    simp only [hl] at h
    obtain ⟨row, hrow, rfl⟩ := Option.map_eq_some_iff.mp h
    exact ⟨row.1, List.mem_of_find?_eq_some hrow⟩

/-- **An id handed back** is printable text in lower case. -/
theorem matchLLMHost_id {U : Unicode} {dest id : GoString} (h : matchLLMHost U dest = some id) :
    id ≠ [] ∧ (∀ b ∈ id, Strings.Printable b) ∧ id.map Strings.lowerByte = id := by
  have htable : ∀ i ∈ llmHosts.map fun row => row.2.id,
      i ≠ [] ∧ i.all (fun b => decide (Strings.Printable b)) = true ∧
        i.map Strings.lowerByte = i := by decide +kernel
  obtain ⟨p, hp, rfl⟩ := Option.map_eq_some_iff.mp h
  obtain ⟨host, hmem⟩ := mem_of_matchLLM hp
  obtain ⟨hne, hprint, hlow⟩ := htable p.id (List.mem_map.mpr ⟨_, hmem, rfl⟩)
  exact ⟨hne, fun b hb => of_decide_eq_true (List.all_eq_true.mp hprint b hb), hlow⟩

end Idryx
