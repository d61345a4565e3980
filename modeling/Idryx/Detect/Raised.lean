import Idryx.Detect.All
import Idryx.Graph.Mark
import Idryx.Lib.Embeds

/-!
# Findings that stay

What happens to the findings on a graph when the operator marks more of its identities as privileged.

* `Alert.AtLeast`: the same finding, no less severe; `Identity.mark`, `identities_markPrivileged`;
* detectors that do not read the flag find the same; those that do keep each finding: `keeps_detectors`;
* **`runDetectors_markPrivileged`**: whatever is marked, no detector loses a finding or lowers one.
-/

namespace Idryx

open Embedding

/-! ## More severe findings -/

/-- The same finding, no less severe. -/
structure Alert.AtLeast (a a' : Alert) : Prop where
  detector : a'.detector = a.detector
  identityID : a'.identityID = a.identityID
  time : a'.time = a.time
  severity : a.severity.rank ≤ a'.severity.rank

theorem Alert.AtLeast.refl (a : Alert) : a.AtLeast a := ⟨rfl, rfl, rfl, le_refl _⟩

/-- A mark on the identities that `p` says. -/
def Identity.mark (p : GoString → Bool) (i : Identity) : Identity :=
  { i with privileged := i.privileged || p i.id }

section Marks

variable (p : GoString → Bool) {now : Time} {U : Unicode} {W : World} (i : Identity) (ids : List Identity)

@[simp] theorem mark_id : (i.mark p).id = i.id := rfl

theorem privileged_mark {i : Identity} (h : i.privileged = true) : (i.mark p).privileged = true := by
  rw [Identity.mark, h, Bool.true_or]

theorem identities_markPrivileged (g : Store) :
    (g.markPrivileged p).identities = g.identities.map (Identity.mark p) := by
  have hnodes : (g.markPrivileged p).nodes.map Identity.chronological =
      (g.nodes.map Identity.chronological).map (Identity.mark p) := by
    rw [Store.markPrivileged, List.map_map, List.map_map]
    rfl
  let byID : Identity → Identity → Prop := fun a b => a.id ≤ b.id
  rw [Store.identities, Store.identities, hnodes]
  exact (List.map_insertionSort byID byID (Identity.mark p) _ fun _ _ _ _ => Iff.rfl).symm

/-! ## Who does not read the flag -/

theorem index_map {κ ν : Type} [DecidableEq κ] (give : Identity → Option (κ × ν)) :
    LastWrite.index give (ids.map (Identity.mark p)) = LastWrite.index (fun i => give (i.mark p)) ids :=
  List.foldl_map

theorem get_ofIdentities_mark (id : GoString) : (Index.ofIdentities (ids.map (Identity.mark p))).get id =
    ((Index.ofIdentities ids).get id).map (Identity.mark p) := by
  rw [Index.ofIdentities, ← List.map_reverse]
  exact Keyed.lookup_map (Identity.mark p) (fun _ => rfl) id ids.reverse

theorem walkDelegationChain_mark (start : GoString) :
    walkDelegationChain (Index.ofIdentities (ids.map (Identity.mark p))) start =
      walkDelegationChain (Index.ofIdentities ids) start := by
  have hsame : ∀ a, ((Index.ofIdentities (ids.map (Identity.mark p))).get a).map Identity.onBehalfOf =
      ((Index.ofIdentities ids).get a).map Identity.onBehalfOf := by
    intro a
    rw [get_ofIdentities_mark, Option.map_map]
    rfl
  have hlen : (Index.ofIdentities (ids.map (Identity.mark p))).length = (Index.ofIdentities ids).length := by
    simp [Index.ofIdentities]
  rw [walkDelegationChain, walkDelegationChain, hlen, walkFrom_congr hsame]

theorem blastRadius_mark (start : GoString) : blastRadius (Index.ofIdentities (ids.map (Identity.mark p))) start =
    blastRadius (Index.ofIdentities ids) start := by
  rw [blastRadius, blastRadius, walkDelegationChain_mark]
  congr 1
  funext out link
  rw [get_ofIdentities_mark]
  cases (Index.ofIdentities ids).get link <;> rfl

theorem excessiveAgency_mark : excessiveAgency (ids.map (Identity.mark p)) now = excessiveAgency ids now := by
  have hvia : ∀ chain, adminInChain (Index.ofIdentities (ids.map (Identity.mark p))) chain =
      adminInChain (Index.ofIdentities ids) chain := by
    intro chain
    unfold adminInChain
    congr 1
    funext link
    rw [get_ofIdentities_mark]
    cases (Index.ofIdentities ids).get link <;> rfl
  have halert : ∀ i : Identity, agencyAlert (Index.ofIdentities (ids.map (Identity.mark p))) now (i.mark p) =
      agencyAlert (Index.ofIdentities ids) now i := by
    intro i
    unfold agencyAlert
    dsimp only
    rw [mark_id, walkDelegationChain_mark, hvia]
    rfl
  rw [excessiveAgency, excessiveAgency, List.filterMap_map]
  exact List.filterMap_congr fun i _ => halert i

theorem shadowTools_mark : shadowTools (ids.map (Identity.mark p)) = shadowTools ids := by
  rw [shadowTools, List.foldl_map]
  rfl

theorem agentShadowTool_mark : agentShadowTool (ids.map (Identity.mark p)) now = agentShadowTool ids now := by
  rw [agentShadowTool, agentShadowTool, shadowTools_mark, List.filterMap_map]
  rfl

theorem unmanagedEgress_mark : unmanagedEgress U (ids.map (Identity.mark p)) now = unmanagedEgress U ids now := by
  rw [unmanagedEgress, List.filterMap_map]
  rfl

theorem beaconing_mark (D : Durations) : beaconing D U now (ids.map (Identity.mark p)) = beaconing D U now ids := by
  rw [beaconing, List.flatMap_map]
  rfl

theorem claimedAgentUnknown_mark :
    claimedAgentUnknown U (ids.map (Identity.mark p)) now = claimedAgentUnknown U ids now := by
  rw [claimedAgentUnknown, index_map, List.filterMap_map]
  rfl

theorem claimedAgentDrift_mark :
    claimedAgentDrift U (ids.map (Identity.mark p)) now = claimedAgentDrift U ids now := by
  rw [claimedAgentDrift, index_map, List.filterMap_map]
  rfl

theorem unroutedEgress_mark : unroutedEgress U (ids.map (Identity.mark p)) now = unroutedEgress U ids now := by
  have hgoverned : governedIn (ids.map (Identity.mark p)) = governedIn ids := by
    rw [governedIn, List.foldl_map]
    rfl
  have hsensor : carriesSensorEvidence (ids.map (Identity.mark p)) = carriesSensorEvidence ids := by
    rw [carriesSensorEvidence, List.any_map]
    rfl
  have hclaims : LastWrite.index claims (ids.map (Identity.mark p)) =
      (LastWrite.index claims ids).map (Prod.map id (Identity.mark p)) := by
    rw [index_map]
    refine LastWrite.index_map_values (fun i => ?_) ids
    unfold claims
    rw [mark_id]
    split_ifs <;> rfl
  have hanswer : ∀ agent gv, agentAlert U now ((LastWrite.index claims ids).map (Prod.map id (Identity.mark p)))
      agent gv = agentAlert U now (LastWrite.index claims ids) agent gv := by
    intro agent gv
    unfold agentAlert
    rw [LastWrite.stored_map_values]
    cases LastWrite.stored (LastWrite.index claims ids) agent <;> rfl
  unfold unroutedEgress
  simp only [hgoverned, hsensor, hclaims, hanswer]

/-! ## Who reads it -/

theorem rank_ite_le {p q : Prop} [Decidable p] [Decidable q] {s t : Severity} (hpq : p → q)
    (hst : t.rank ≤ s.rank) : (if p then s else t).rank ≤ (if q then s else t).rank := by
  split_ifs with hp hq
  · exact le_refl _
  · exact absurd (hpq hp) hq
  · exact hst
  · exact le_refl _

theorem or_hasAdmin_mark {i : Identity} (h : (i.privileged || i.hasAdmin) = true) :
    ((i.mark p).privileged || (i.mark p).hasAdmin) = true := by
  rw [Bool.or_eq_true] at h ⊢
  exact h.imp (privileged_mark p) id

theorem embeds_mark : Embeds (fun i i' => i' = Identity.mark p i) ids (ids.map (Identity.mark p)) :=
  embeds_map fun _ => rfl

theorem keeps_filterMap {f f' : Identity → Option Alert}
    (h : ∀ i a, f i = some a → ∃ a', f' (i.mark p) = some a' ∧ a.AtLeast a') :
    Embeds Alert.AtLeast (ids.filterMap f) ((ids.map (Identity.mark p)).filterMap f') :=
  embeds_filterMap (embeds_mark p ids) fun i _ hi a ha => hi ▸ h i a ha

theorem keeps_flatMap {f : Identity → List Alert} (h : ∀ i, Embeds Alert.AtLeast (f i) (f (i.mark p))) :
    Embeds Alert.AtLeast (ids.flatMap f) ((ids.map (Identity.mark p)).flatMap f) :=
  embeds_flatMap (embeds_mark p ids) fun i _ hi => hi ▸ h i

theorem forall₂_concat {as as' : List Alert} {a a' : Alert} (h : List.Forall₂ Alert.AtLeast as as')
    (ha : a.AtLeast a') : List.Forall₂ Alert.AtLeast (as ++ [a]) (as' ++ [a']) :=
  List.rel_append h (List.Forall₂.cons ha List.Forall₂.nil)

theorem travelReport_mark (G : Geo) (prev e : Event) :
    (travelReport G i prev e).AtLeast (travelReport G (i.mark p) prev e) :=
  ⟨rfl, rfl, rfl, rank_ite_le (privileged_mark p) (by decide)⟩

theorem travelAlerts_mark (G : Geo) : List.Forall₂ Alert.AtLeast (travelAlerts G i) (travelAlerts G (i.mark p)) := by
  have hloop : (i.events.foldl (travelStep G i) (none, [])).1 =
        (i.events.foldl (travelStep G (i.mark p)) (none, [])).1 ∧
      List.Forall₂ Alert.AtLeast (i.events.foldl (travelStep G i) (none, [])).2
        (i.events.foldl (travelStep G (i.mark p)) (none, [])).2 := by
    refine List.foldl_rel (r := fun st st' : Option Event × List Alert =>
      st.1 = st'.1 ∧ List.Forall₂ Alert.AtLeast st.2 st'.2) ⟨rfl, List.Forall₂.nil⟩ ?_
    rintro e - ⟨last, as⟩ ⟨last', as'⟩ ⟨hlast, has⟩
    obtain rfl : last = last' := hlast
    unfold travelStep
    split_ifs
    · exact ⟨rfl, has⟩
    · exact ⟨rfl, has⟩
    · cases last with
      | none => exact ⟨rfl, has⟩
      | some prev =>
        refine ⟨rfl, List.rel_append has ?_⟩
        rw [travelAlert_eq, travelAlert_eq]
        split_ifs
        · exact List.Forall₂.cons (travelReport_mark p i G prev e) List.Forall₂.nil
        · exact List.Forall₂.nil
  exact hloop.2

theorem anomalyReport_mark (score : ℕ) (e : Event) :
    (anomalyReport i score e).AtLeast (anomalyReport (i.mark p) score e) := by
  refine ⟨rfl, rfl, rfl, ?_⟩
  unfold anomalyReport
  dsimp only
  by_cases hi : i.privileged = true
  · rw [if_pos hi, if_pos (privileged_mark p hi)]
  · rw [if_neg hi]
    split_ifs <;> decide

theorem anomalyRun_mark : List.Forall₂ Alert.AtLeast (anomalyRun i).2 (anomalyRun (i.mark p)).2 := by
  have hloop : (anomalyRun i).1 = (anomalyRun (i.mark p)).1 ∧
      List.Forall₂ Alert.AtLeast (anomalyRun i).2 (anomalyRun (i.mark p)).2 := by
    refine List.foldl_rel (r := fun st st' : Profile × List Alert =>
      st.1 = st'.1 ∧ List.Forall₂ Alert.AtLeast st.2 st'.2) ⟨rfl, List.Forall₂.nil⟩ ?_
    rintro e - ⟨profile, as⟩ ⟨profile', as'⟩ ⟨hprofile, has⟩
    obtain rfl : profile = profile' := hprofile
    unfold anomalyStep
    split_ifs
    · exact ⟨rfl, has⟩
    · refine ⟨rfl, ?_⟩
      dsimp only
      split_ifs
      · exact has
      · exact forall₂_concat has (anomalyReport_mark p i _ e)
  exact hloop.2

theorem deviceAlerts_mark : Embeds Alert.AtLeast (deviceAlerts U i) (deviceAlerts U (i.mark p)) := by
  by_cases hi : i.privileged = true
  · have hsame : deviceAlerts U (i.mark p) = deviceAlerts U i := by
      rw [deviceAlerts, deviceAlerts, hi, privileged_mark p hi]
      rfl
    rw [hsame]
    exact embeds_refl Alert.AtLeast.refl _
  · rw [deviceAlerts, Bool.eq_false_iff.mpr hi]
    exact ⟨[], List.nil_subperm, List.Forall₂.nil⟩

theorem mfaFatigue_mark {out out' : List Alert} (h : mfaFatigue ids = some out)
    (h' : mfaFatigue (ids.map (Identity.mark p)) = some out') : Embeds Alert.AtLeast out out' := by
  obtain ⟨f, hrun, hf, -⟩ := mfaFatigue_eq_some ids
  obtain ⟨f', hrun', hf', -⟩ := mfaFatigue_eq_some (ids.map (Identity.mark p))
  obtain rfl : ids.filterMap f = out := Option.some.inj (hrun.symm.trans h)
  obtain rfl : (ids.map (Identity.mark p)).filterMap f' = out' := Option.some.inj (hrun'.symm.trans h')
  refine keeps_filterMap p ids fun i a ha => ?_
  have hscan : (scan i.challenges i.challenges 0 0).map (fun hit => hit.map (mfaReport i)) = some (some a) := by
    rw [← ha]
    exact hf i
  obtain ⟨hit, hfound, hhit⟩ := Option.map_eq_some_iff.mp hscan
  obtain ⟨last, rfl, rfl⟩ := Option.map_eq_some_iff.mp hhit
  refine ⟨mfaReport (i.mark p) last, ?_, rfl, rfl, rfl, rank_ite_le (privileged_mark p) (by decide)⟩
  have hmarked : mfaAlert (i.mark p) = some (some (mfaReport (i.mark p) last)) := by
    show (scan i.challenges i.challenges 0 0).map _ = _
    rw [hfound]
    rfl
  exact Option.some.inj ((hf' (i.mark p)).symm.trans hmarked)

theorem undeclaredLLM_mark :
    Embeds Alert.AtLeast (undeclaredLLM U ids now) (undeclaredLLM U (ids.map (Identity.mark p)) now) := by
  refine keeps_filterMap p ids fun i a ha => ?_
  obtain ⟨hagent, hmodels, hundeclared, rfl⟩ := undeclaredAlert_eq_some_iff.mp ha
  refine ⟨_, undeclaredAlert_eq_some_iff.mpr ⟨hagent, hmodels, hundeclared, rfl⟩, rfl, rfl, rfl, ?_⟩
  exact rank_ite_le (or_hasAdmin_mark p) (by decide)

theorem attestationMissing_mark :
    Embeds Alert.AtLeast (attestationMissing ids now) (attestationMissing (ids.map (Identity.mark p)) now) := by
  refine keeps_filterMap p ids fun i a ha => ?_
  unfold attestationAlert at ha ⊢
  split_ifs at ha with hagent hadmin hattested
  obtain rfl := Option.some.inj ha
  have hagent' : ¬ (!(i.mark p).isAgent) = true := hagent
  have hadmin' : ¬ (!((i.mark p).privileged || (i.mark p).hasAdmin)) = true := by
    rw [Bool.not_eq_true', Bool.not_eq_false] at hadmin ⊢
    exact or_hasAdmin_mark p hadmin
  have hattested' : ¬ ((i.mark p).attestation ≠ "" ∧ (i.mark p).attestation ≠ "none") := hattested
  rw [if_neg hagent', if_neg hadmin', if_neg hattested']
  exact ⟨_, rfl, Alert.AtLeast.refl _⟩

theorem blockAlert_mark (R : BlockRule) : Embeds Alert.AtLeast (ids.filterMap (blockAlert R now))
    ((ids.map (Identity.mark p)).filterMap (blockAlert R now)) := by
  refine keeps_filterMap p ids fun i a ha => ?_
  obtain ⟨hagent, hmany, rfl⟩ := blockAlert_eq_some_iff.mp ha
  have hcount : blockCount R now (i.mark p) = blockCount R now i := rfl
  refine ⟨_, blockAlert_eq_some_iff.mpr ⟨hagent, hmany, rfl⟩, rfl, rfl, rfl, rank_ite_le ?_ (by decide)⟩
  rw [hcount]
  exact Or.imp id (Or.imp (privileged_mark p) id)

theorem runawayFacts_mark (chain : List GoString) (blast : List Permission) :
    (runawayFacts i chain blast).length ≤ (runawayFacts (i.mark p) chain blast).length := by
  have hunattested : unattested (i.mark p) = unattested i := rfl
  have hprivileged : (if (i.privileged || i.hasAdmin) = true then [("privileged" : GoString)] else []).length ≤
      (if ((i.mark p).privileged || (i.mark p).hasAdmin) = true then [("privileged" : GoString)] else []).length := by
    by_cases hi : (i.privileged || i.hasAdmin) = true
    · rw [if_pos hi, if_pos (or_hasAdmin_mark p hi)]
    · rw [if_neg hi]
      exact Nat.zero_le _
  simp only [runawayFacts, List.length_append, hunattested]
  omega

theorem runawayAgent_mark :
    Embeds Alert.AtLeast (runawayAgent ids now) (runawayAgent (ids.map (Identity.mark p)) now) := by
  refine Embeds.perm ?_ (List.perm_insertionSort _ _) (List.perm_insertionSort _ _).symm
  refine keeps_filterMap p ids fun i a ha => ?_
  obtain ⟨hagent, hcounts, rfl⟩ := runawayAlert_eq_some_iff.mp ha
  refine ⟨_, runawayAlert_eq_some_iff.mpr ⟨hagent, hcounts, rfl⟩, rfl, rfl, rfl, ?_⟩
  rw [mark_id, walkDelegationChain_mark, blastRadius_mark]
  exact runawaySeverity_mono (runawayFacts_mark p i _ _) (le_refl _)

theorem established_binding_mark :
    established binding (i.mark p) = (established binding i).map (Prod.map id (Identity.mark p)) := by
  unfold established binding
  rw [mark_id]
  by_cases hclaimed : isClaimed i.id = true
  · rw [if_pos hclaimed, if_pos hclaimed]
    rfl
  · rw [if_neg hclaimed, if_neg hclaimed]
    by_cases hnone : i.attestation = "" ∨ i.attestation = "none"
    · have hnone' : (i.mark p).attestation = "" ∨ (i.mark p).attestation = "none" := hnone
      rw [if_pos hnone, if_pos hnone']
      rfl
    · have hnone' : ¬ ((i.mark p).attestation = "" ∨ (i.mark p).attestation = "none") := hnone
      rw [if_neg hnone, if_neg hnone']
      rfl

theorem unattestedAlert_mark {declared : List (GoString × Identity)} {a : Alert}
    (ha : unattestedAlert now declared i = some a) :
    ∃ a', unattestedAlert now (declared.map (Prod.map id (Identity.mark p))) (i.mark p) = some a' ∧ a.AtLeast a' := by
  unfold unattestedAlert at ha ⊢
  dsimp only at ha ⊢
  rw [mark_id, LastWrite.stored_map_values]
  by_cases hclaimed : (!isClaimed i.id) = true
  · rw [if_pos hclaimed] at ha
    cases ha
  rw [if_neg hclaimed] at ha ⊢
  cases hnode : LastWrite.stored declared (claimedName i.id) with
  | none =>
    rw [hnode] at ha
    cases ha
  | some node =>
    rw [hnode] at ha
    dsimp only [Option.map_some] at ha ⊢
    have hevents : (node.mark p).events = node.events := rfl
    rw [hevents]
    by_cases hspoken : 0 < node.events.length
    · rw [if_pos hspoken] at ha
      cases ha
    rw [if_neg hspoken] at ha ⊢
    obtain rfl := Option.some.inj ha
    exact ⟨_, rfl, rfl, rfl, rfl, rank_ite_le (or_hasAdmin_mark p) (by decide)⟩

theorem claimedAgentUnattested_mark : Embeds Alert.AtLeast (claimedAgentUnattested ids now)
    (claimedAgentUnattested (ids.map (Identity.mark p)) now) := by
  have hbus : carriesBusEvidence (ids.map (Identity.mark p)) = carriesBusEvidence ids := by
    rw [carriesBusEvidence, List.any_map]
    rfl
  have hbinding : LastWrite.index (established binding) (ids.map (Identity.mark p)) =
      (LastWrite.index (established binding) ids).map (Prod.map id (Identity.mark p)) := by
    rw [index_map]
    exact LastWrite.index_map_values (established_binding_mark p) ids
  unfold claimedAgentUnattested
  dsimp only
  rw [hbus, hbinding, List.isEmpty_map]
  split_ifs
  · exact embeds_refl Alert.AtLeast.refl []
  · exact embeds_refl Alert.AtLeast.refl []
  · refine Embeds.perm ?_ (List.perm_insertionSort _ _) (List.perm_insertionSort _ _).symm
    exact keeps_filterMap p ids fun i a ha => unattestedAlert_mark p i ha

/-! ## The whole run -/

/-- The detector keeps each finding, as severe as it was or more so, whatever identities are marked. -/
def Detector.Keeps (p : GoString → Bool) (d : Detector) : Prop :=
  ∀ ids, Embeds Alert.AtLeast (d.alerts ids) (d.alerts (ids.map (Identity.mark p)))

theorem keeps_detectors (W : World) : ∀ d ∈ detectors W, d.Keeps p := by
  have hblind : ∀ {name : GoString} {detect : List Identity → List Alert},
      (∀ ids, detect (ids.map (Identity.mark p)) = detect ids) →
      Detector.Keeps p ⟨name, fun ids => some (detect ids)⟩ := by
    intro name detect h ids
    show Embeds Alert.AtLeast (detect ids) (detect (ids.map (Identity.mark p)))
    rw [h ids]
    exact embeds_refl Alert.AtLeast.refl _
  have hfilter : ∀ {name : GoString} {f : Identity → Option Alert}, (∀ i : Identity, f (i.mark p) = f i) →
      Detector.Keeps p ⟨name, fun ids => some (ids.filterMap f)⟩ := by
    intro name f h
    refine hblind fun ids => ?_
    rw [List.filterMap_map]
    exact List.filterMap_congr fun i _ => h i
  have hkeeps : ∀ {name : GoString} {detect : List Identity → List Alert},
      (∀ ids, Embeds Alert.AtLeast (detect ids) (detect (ids.map (Identity.mark p)))) →
      Detector.Keeps p ⟨name, fun ids => some (detect ids)⟩ := fun h => h
  have hmfa : Detector.Keeps p ⟨"mfa_fatigue", mfaFatigue⟩ := by
    intro ids
    obtain ⟨f, hrun, -⟩ := mfaFatigue_eq_some ids
    obtain ⟨f', hrun', -⟩ := mfaFatigue_eq_some (ids.map (Identity.mark p))
    show Embeds Alert.AtLeast ((mfaFatigue ids).getD []) ((mfaFatigue (ids.map (Identity.mark p))).getD [])
    rw [hrun, hrun']
    exact mfaFatigue_mark p ids hrun hrun'
  unfold detectors
  simp only [List.forall_mem_cons]
  exact ⟨hkeeps fun ids => keeps_flatMap p ids fun i => embeds_of_forall₂ (travelAlerts_mark p i W.geo), hmfa,
    hkeeps fun ids => keeps_flatMap p ids (deviceAlerts_mark p),
    hkeeps fun ids => keeps_flatMap p ids fun i => embeds_of_forall₂ (anomalyRun_mark p i),
    hfilter fun _ => rfl, hfilter fun _ => rfl, hfilter fun _ => rfl, hblind fun ids => excessiveAgency_mark p ids,
    hfilter fun _ => rfl, hfilter fun _ => rfl, hblind fun _ => List.flatMap_map _ _ _, hfilter fun _ => rfl,
    hfilter fun _ => rfl, hblind fun ids => agentShadowTool_mark p ids, hkeeps fun ids => runawayAgent_mark p ids,
    hkeeps fun ids => attestationMissing_mark p ids, hfilter fun _ => rfl, hkeeps fun ids => blockAlert_mark p ids _,
    hkeeps fun ids => blockAlert_mark p ids _, hkeeps fun ids => blockAlert_mark p ids _,
    hblind fun ids => unmanagedEgress_mark p ids, hblind fun ids => beaconing_mark p ids _,
    hblind fun ids => claimedAgentUnknown_mark p ids, hblind fun ids => claimedAgentDrift_mark p ids,
    hkeeps fun ids => undeclaredLLM_mark p ids,
    hblind fun ids => unroutedEgress_mark p ids, hkeeps fun ids => claimedAgentUnattested_mark p ids,
    List.forall_mem_nil _⟩

end Marks

/-- **Whatever is marked, no finding is lost or lowered**: with any identities of the store marked privileged, the run
makes each alert it made before, on the same identity and for the same time, as severe as it was or more so, each
with an alert of its own. What the map of flags holds is all that counts, in whatever order it is ranged over. -/
theorem runDetectors_markPrivileged (W : World) (g : Store) (P : PrivilegedSet) :
    ∃ out out', runDetectors W g.identities = some out ∧ runDetectors W (g.markSet P).identities = some out' ∧
      Embeds Alert.AtLeast out out' := by
  refine ⟨_, _, runDetectors_eq W _, runDetectors_eq W _, ?_⟩
  rw [g.markSet_eq P, identities_markPrivileged]
  have hself : List.Forall₂ (fun d d' => d ∈ detectors W ∧ d' = d) (detectors W) (detectors W) :=
    List.forall₂_same.mpr fun d hd => ⟨hd, rfl⟩
  refine embeds_flatMap_of_forall₂ hself ?_
  rintro _ d ⟨hd, rfl⟩
  exact keeps_detectors P.get W d hd g.identities

end Idryx
