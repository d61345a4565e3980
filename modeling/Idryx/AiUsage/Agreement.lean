import Idryx.AiUsage.Build
import Idryx.Detect.UndeclaredLLM
import Idryx.Graph.Store

/-!
# The report and the detector

The model report names a gap where the undeclared-model detector raises an alert. Both read the same
declarations and the same events, each in its own way.

* `sighting_eq_observation`: they see the same providers on the same hosts;
* `declares_of_mem`: a provider the detector takes as declared the report does too;
* `Agreement`; **`alerted_iff_reported_iff`**: the declarations and observations on which both say the
  same;
* `padded_disagrees`: an agent on which they do not.
-/

namespace Idryx.AiUsage

variable {U : Unicode}

/-! ## What both see -/

theorem normalize_id {dest p : GoString} (h : matchLLMHost U dest = some p) :
    normalize U p = p ∧ p ≠ "" := by
  obtain ⟨hne, hprint, hlow⟩ := matchLLMHost_id h
  refine ⟨?_, hne⟩
  unfold normalize
  rw [Strings.trimSpace_printable hprint, Strings.toLower_ascii U, hlow]
  intro b hb
  exact UInt8.lt_trans (hprint b hb).2 (by decide)

/-- **Both see the same providers on the same hosts.** -/
theorem sighting_eq_observation : sighting U (matchLLMHost U) = observation U := by
  funext e
  unfold sighting observation
  by_cases htype : e.type = eventEgress
  · rw [if_pos htype, if_neg (not_not_intro htype)]
    cases hm : matchLLMHost U e.resource with
    | none => rfl
    | some p =>
      obtain ⟨hnorm, hne⟩ := normalize_id hm
      simp only [hnorm, if_neg hne]
      rfl
  · rw [if_neg htype, if_pos htype]

theorem matchLLMHost_of_mem {i : Identity} {o : GoString × GoString} (ho : o ∈ observations U i) :
    ∃ dest, matchLLMHost U dest = some o.1 := by
  obtain ⟨e, -, he⟩ := List.mem_filterMap.mp ho
  unfold observation at he
  split_ifs at he
  obtain ⟨p, hp, rfl⟩ := Option.map_eq_some_iff.mp he
  exact ⟨e.resource, hp⟩

/-! ## What each takes as declared -/

theorem declares_of_mem {ms : List DeclaredModel} {dest p : GoString}
    (hp : matchLLMHost U dest = some p) (h : p ∈ declaredProviders U ms) : Declares U ms p := by
  obtain ⟨m, hm, -, hlow⟩ := mem_declaredProviders.mp h
  have htrim : Strings.trimSpace m.provider = m.provider := by
    apply Strings.trimSpace_of_toLower (U := U)
    rw [hlow]
    exact (matchLLMHost_id hp).2.1
  have hnorm : normalize U m.provider = p := by
    unfold normalize
    rw [htrim, hlow]
  exact ⟨m, hm, hnorm ▸ (matchLLMHost_id hp).1, hnorm⟩

theorem mem_declaredHosts_of_declaresHost {ms : List DeclaredModel} {h : GoString}
    (hh : DeclaresHost U ms h) : h ∈ declaredHosts U ms := by
  obtain ⟨m, hm, -, hne, hhost⟩ := hh
  exact mem_declaredHosts.mpr ⟨m, hm, hne, hhost⟩

/-! ## When they say the same -/

section Conditions

variable (U : Unicode) (ms : List DeclaredModel) (o : GoString × GoString)

/-- Neither the provider, however it is padded, nor the host is declared. -/
def Undeclared : Prop := ¬ Declares U ms o.1 ∧ o.2 ∉ declaredHosts U ms

/-- The provider is only declared with white space around it, and the host is not. -/
def Padded : Prop :=
  Declares U ms o.1 ∧ o.1 ∉ declaredProviders U ms ∧ o.2 ∉ declaredHosts U ms

/-- The provider is not declared, and the host only for a blank provider. -/
def Blank : Prop :=
  ¬ Declares U ms o.1 ∧ o.2 ∈ declaredHosts U ms ∧ ¬ DeclaresHost U ms o.2

end Conditions

/-- The observations on which the detector and the report agree. Where every declared provider is
blank, each observed host is declared; else some observation is undeclared in both readings, or there
are a padded and a blank one, or neither. -/
def Agreement (U : Unicode) (i : Identity) : Prop :=
  ((∀ p, ¬ Declares U i.declaredModels p) →
    ∀ o ∈ observations U i, o.2 ∈ declaredHosts U i.declaredModels) ∧
  ((∃ p, Declares U i.declaredModels p) →
    (∃ o ∈ observations U i, Undeclared U i.declaredModels o) ∨
      ((∃ o ∈ observations U i, Padded U i.declaredModels o) ↔
        ∃ o ∈ observations U i, Blank U i.declaredModels o))

/-- The detector raises an alert on the identity. -/
def Alerted (U : Unicode) (s : Store) (now : Time) (i : Identity) : Prop :=
  ∃ al ∈ undeclaredLLM U s.identities now, al.identityID = i.id

/-- The report has a row of the identity that was seen and is not declared. -/
def Reported (U : Unicode) (s : Store) (scan : Option CodeScan) (i : Identity) : Prop :=
  ∃ row ∈ (build U (matchLLMHost U) s.identities scan).subjects,
    row.subject = i.id ∧ row.gap = .seenNotDeclared

instance (U : Unicode) (s : Store) (now : Time) (i : Identity) : Decidable (Alerted U s now i) :=
  inferInstanceAs (Decidable (∃ al ∈ undeclaredLLM U s.identities now, al.identityID = i.id))

instance (U : Unicode) (s : Store) (scan : Option CodeScan) (i : Identity) :
    Decidable (Reported U s scan i) :=
  inferInstanceAs (Decidable (∃ row ∈ (build U (matchLLMHost U) s.identities scan).subjects,
    row.subject = i.id ∧ row.gap = .seenNotDeclared))

section Store

variable {s : Store} {now : Time} {scan : Option CodeScan} {i : Identity}

theorem eq_of_id_eq {j : Identity} (hi : i ∈ s.identities) (hj : j ∈ s.identities)
    (h : j.id = i.id) : j = i :=
  List.inj_on_of_nodup_map s.nodup_identities hj hi h

theorem alerted_iff (hi : i ∈ s.identities) (hagent : i.isAgent = true) (hms : i.declaredModels ≠ []) :
    Alerted U s now i ↔ (∃ o ∈ observations U i, Padded U i.declaredModels o) ∨
      ∃ o ∈ observations U i, Undeclared U i.declaredModels o := by
  unfold Alerted Padded Undeclared
  rw [exists_undeclaredLLM]
  constructor
  · rintro ⟨j, hj, hid, -, -, o, ho, hp, hh⟩
    obtain rfl := eq_of_id_eq hi hj hid
    by_cases hd : Declares U j.declaredModels o.1
    · exact Or.inl ⟨o, ho, hd, hp, hh⟩
    · exact Or.inr ⟨o, ho, hd, hh⟩
  · rintro (⟨o, ho, -, hp, hh⟩ | ⟨o, ho, hd, hh⟩)
    · exact ⟨i, hi, rfl, hagent, hms, o, ho, hp, hh⟩
    · obtain ⟨dest, hdest⟩ := matchLLMHost_of_mem ho
      exact ⟨i, hi, rfl, hagent, hms, o, ho, mt (declares_of_mem hdest) hd, hh⟩

/-- The report has a gap on a blank observation and on an undeclared one, if some provider is declared
that is not blank. -/
theorem reported_iff (hi : i ∈ s.identities) : Reported U s scan i ↔
    (∃ p, Declares U i.declaredModels p) ∧ ((∃ o ∈ observations U i, Blank U i.declaredModels o) ∨
      ∃ o ∈ observations U i, Undeclared U i.declaredModels o) := by
  have hrows : Reported U s scan i ↔
      ∃ row ∈ subjectRows U (matchLLMHost U) scan i, row.gap = .seenNotDeclared := by
    constructor
    · rintro ⟨row, hrow, hsub, hgap⟩
      obtain ⟨j, hj, hmem⟩ := mem_buildSubjects.mp hrow
      obtain rfl := eq_of_id_eq hi hj ((subject_of_mem hmem).symm.trans hsub)
      exact ⟨row, hmem, hgap⟩
    · rintro ⟨row, hmem, hgap⟩
      exact ⟨row, mem_buildSubjects.mpr ⟨i, hi, hmem⟩, subject_of_mem hmem, hgap⟩
  rw [hrows, exists_seenNotDeclared, sighting_eq_observation]
  apply and_congr_right
  intro _
  unfold Blank Undeclared
  constructor
  · rintro ⟨o, ho, hd, hh⟩
    by_cases hhost : o.2 ∈ declaredHosts U i.declaredModels
    · exact Or.inl ⟨o, ho, hd, hhost, hh⟩
    · exact Or.inr ⟨o, ho, hd, hhost⟩
  · rintro (⟨o, ho, hd, -, hh⟩ | ⟨o, ho, hd, hhost⟩)
    · exact ⟨o, ho, hd, hh⟩
    · exact ⟨o, ho, hd, mt mem_declaredHosts_of_declaresHost hhost⟩

/-- **When the detector and the report agree** on an agent that declares models. -/
theorem alerted_iff_reported_iff (U : Unicode) (s : Store) (now : Time) (scan : Option CodeScan)
    {i : Identity} (hi : i ∈ s.identities) (hagent : i.isAgent = true)
    (hms : i.declaredModels ≠ []) :
    (Alerted U s now i ↔ Reported U s scan i) ↔ Agreement U i := by
  rw [alerted_iff hi hagent hms, reported_iff hi]
  unfold Agreement
  by_cases hsome : ∃ p, Declares U i.declaredModels p
  · have hnone : ¬ ∀ p, ¬ Declares U i.declaredModels p := not_forall_not.mpr hsome
    simp only [hsome, hnone, false_implies, true_and, true_implies]
    by_cases hundeclared : ∃ o ∈ observations U i, Undeclared U i.declaredModels o
    · simp only [hundeclared, or_true, true_or]
    · simp only [hundeclared, or_false, false_or]
  · -- the report is silent, and nothing is padded
    have hnone : ∀ p, ¬ Declares U i.declaredModels p := not_exists.mp hsome
    have hpadded : ¬ ∃ o ∈ observations U i, Padded U i.declaredModels o := by
      rintro ⟨o, -, hd, -⟩
      exact hnone o.1 hd
    have hundeclared : (∃ o ∈ observations U i, Undeclared U i.declaredModels o) ↔
        ¬ ∀ o ∈ observations U i, o.2 ∈ declaredHosts U i.declaredModels := by
      unfold Undeclared
      push Not
      simp only [hnone, not_false_eq_true, true_and]
    simp only [hsome, hpadded, hundeclared, false_and, false_implies, and_true, false_or, iff_false,
      not_not]
    exact ⟨fun h _ => h, fun h => h hnone⟩

end Store

/-! ## A padded declaration -/

/-- An agent whose Passport declares a model. -/
def declaringAgent (provider : GoString) : Identity :=
  { Identity.zero "agent://acme.example/bot" with
    type := identityAgent
    source := "passport"
    declaredModels := [⟨provider, "", ""⟩] }

/-- A request of that agent to a model API. -/
def openAIFlow : Event :=
  { (default : Event) with
    identityID := "agent://acme.example/bot"
    type := eventEgress
    resource := "api.openai.com:443" }

/-- The graph of the agent and its request. -/
def flowGraph (provider : GoString) : Store :=
  ((Store.new fun _ => false).addIdentity (declaringAgent provider)).addEvent openAIFlow

/-- The agent as the graph returns it. -/
def flowAgent (provider : GoString) : Identity :=
  { declaringAgent provider with events := [openAIFlow] }

/-- The provider the agent declares, and reaches: both are silent. -/
theorem alerted_iff_reported_iff_declared :
    (Alerted Unicode.basic (flowGraph "OpenAI") Time.zero (flowAgent "OpenAI") ↔
      Reported Unicode.basic (flowGraph "OpenAI") none (flowAgent "OpenAI")) ↔
    Agreement Unicode.basic (flowAgent "OpenAI") :=
  alerted_iff_reported_iff Unicode.basic (flowGraph "OpenAI") Time.zero none (by decide +kernel) rfl
    (by decide)

/-- **A padded declaration is an alert and no gap**: the report trims the provider and finds it
declared, the detector does not. -/
theorem padded_disagrees :
    ¬ ∀ (U : Unicode) (s : Store) (now : Time) (scan : Option CodeScan) (i : Identity),
      i ∈ s.identities → i.isAgent = true → i.declaredModels ≠ [] →
        (Alerted U s now i ↔ Reported U s scan i) := by
  intro h
  have hagree := h Unicode.basic (flowGraph " openai") Time.zero none (flowAgent " openai")
    (by decide +kernel) rfl (by decide)
  have halert : Alerted Unicode.basic (flowGraph " openai") Time.zero (flowAgent " openai") := by
    decide +kernel
  have hreport : ¬ Reported Unicode.basic (flowGraph " openai") none (flowAgent " openai") := by
    decide +kernel
  exact hreport (hagree.mp halert)

end Idryx.AiUsage
