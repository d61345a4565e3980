import Idryx.Events.Sink

/-!
# What the journal leaves out

`Counts` of `internal/events/events.go`, over all calls of a run, and what `cmd/idryx/main.go` prints of it.

* `Sink.event`: what an alert is written as, if at all; `Sink.sendAll`: one call after the other;
* `Journaled`: what alerts add to a sink; **`journaled_sendAll`**: over a run;
* `AddsUp`: the counts and the journal together account for every alert, a call answers with an error exactly
  if one of its appends failed, and a failed append stops no other;
* **`addsUp_iff`**: the counts add up unless the append of a claimed finding failed;
* `silent_iff`: what it means that nothing is printed.
-/

namespace Idryx.Events

/-! ## A run -/

namespace Sink

variable (P : Passport)

/-- What an alert is written as, if it has a subject. -/
def event (s : Sink) (a : Alert) : Option WireEvent :=
  match s.trustedID P a.identityID with
  | some agentID => some (s.eventOf schema agentID a)
  | none => (s.claimedID P a.identityID).map fun agentID => s.eventOf schemaClaimed agentID a

/-- The finding rests on what a process said of itself. -/
def claims (s : Sink) (a : Alert) : Bool :=
  (s.trustedID P a.identityID).isNone && (s.claimedID P a.identityID).isSome

/-- The event that is written of an alert. -/
def written (s : Sink) (x : Alert × Bool) : Option WireEvent := if x.2 then s.event P x.1 else none

/-- There is an event, and its append fails. -/
def fails (s : Sink) (x : Alert × Bool) : Bool := !x.2 && (s.event P x.1).isSome

/-- One call of `Send` after the other, each with its error. -/
def sendAll (U : Unicode) (s : Sink) : List (List (Alert × Bool)) → Sink × List (Option GoString)
  | [] => (s, [])
  | alerts :: calls =>
    let (s, err) := s.send P U alerts
    let (s, errs) := s.sendAll U calls
    (s, err :: errs)

/-- What is printed of the journal when the run ends. -/
def journalSummary (s : Sink) : Option GoString :=
  if 0 < s.skipped ∨ 0 < s.claimed ∨ 0 < s.failed then
    some ("idryx: agent-event journal: " ++ Strconv.itoa s.skipped ++
      " finding(s) had no agent subject and were not written, " ++ Strconv.itoa s.claimed ++
      " were written about a self-declared (claimed:) identity under schema v0.3, " ++ Strconv.itoa s.failed ++
      " failed\n")
  else none

end Sink

/-- A sink as `New` opens it. -/
def opened (runID trustDomain : GoString) : Sink := ⟨[], runID, trustDomain, 0, 0, 0⟩

variable {P : Passport} {U : Unicode}

theorem new_opened {err : Option GoString} {path runID trustDomain : GoString} {s : Sink}
    (h : new P U err path runID trustDomain = .ok (some s)) : s = opened runID (Strings.trimSpace trustDomain) := by
  unfold new at h
  split_ifs at h
  · exact absurd h (by simp)
  · dsimp only at h
    split at h
    · exact absurd h (by rintro ⟨⟩)
    · split at h
      · exact absurd h (by rintro ⟨⟩)
      · exact (Option.some.inj (Except.ok.inj h)).symm

/-- What alerts add to a sink. -/
structure Journaled (P : Passport) (s t : Sink) (alerts : List (Alert × Bool)) : Prop where
  settings : t.trustDomain = s.trustDomain ∧ t.runID = s.runID
  journal : t.journal = s.journal ++ alerts.filterMap (s.written P)
  skipped : t.skipped = s.skipped + alerts.countP fun x => (s.event P x.1).isNone
  failed : t.failed = s.failed + alerts.countP (s.fails P)
  claimed : t.claimed = s.claimed + alerts.countP fun x => s.claims P x.1

theorem event_congr {s t : Sink} (h : t.trustDomain = s.trustDomain ∧ t.runID = s.runID) (a : Alert) :
    t.event P a = s.event P a ∧ t.claims P a = s.claims P a := by
  obtain ⟨journal, runID, domain, skipped, claimed, failed⟩ := s
  obtain ⟨journal', runID', domain', skipped', claimed', failed'⟩ := t
  obtain ⟨rfl, rfl⟩ := h
  exact ⟨rfl, rfl⟩

theorem Journaled.refl (s : Sink) : Journaled P s s [] :=
  ⟨⟨rfl, rfl⟩, (List.append_nil _).symm, rfl, rfl, rfl⟩

theorem Journaled.trans {s t u : Sink} {xs ys : List (Alert × Bool)} (h : Journaled P s t xs)
    (h' : Journaled P t u ys) : Journaled P s u (xs ++ ys) := by
  have hevent : ∀ a, t.event P a = s.event P a := fun a => (event_congr h.settings a).1
  have hclaims : ∀ a, t.claims P a = s.claims P a := fun a => (event_congr h.settings a).2
  have hwritten : t.written P = s.written P := by
    funext x
    rw [Sink.written, Sink.written, hevent]
  have hfails : t.fails P = s.fails P := by
    funext x
    rw [Sink.fails, Sink.fails, hevent]
  refine ⟨⟨h'.settings.1.trans h.settings.1, h'.settings.2.trans h.settings.2⟩, ?_, ?_, ?_, ?_⟩
  · rw [h'.journal, h.journal, List.filterMap_append, List.append_assoc, hwritten]
  · rw [h'.skipped, h.skipped, List.countP_append, Nat.add_assoc]
    simp only [hevent]
  · rw [h'.failed, h.failed, List.countP_append, Nat.add_assoc, hfails]
  · rw [h'.claimed, h.claimed, List.countP_append, Nat.add_assoc]
    simp only [hclaims]

theorem write_eq (s : Sink) (a : Alert) (ok : Bool) : s.write P a ok =
    match s.event P a with
    | none => ({ s with skipped := s.skipped + 1 }, .skippedNoAgentSubject)
    | some e => { s with claimed := s.claimed + if s.claims P a then 1 else 0 }.append e ok
        (if s.claims P a then .writtenClaimed else .written) := by
  unfold Sink.write Sink.event Sink.claims
  cases s.trustedID P a.identityID with
  | some agentID => rfl
  | none =>
    cases s.claimedID P a.identityID with
    | none => rfl
    | some agentID => rfl

theorem claims_of_event {s : Sink} {a : Alert} (h : s.event P a = none) : s.claims P a = false := by
  unfold Sink.event at h
  unfold Sink.claims
  cases htrusted : s.trustedID P a.identityID with
  | some agentID => rfl
  | none =>
    rw [htrusted, Option.map_eq_none_iff] at h
    rw [h]
    rfl

theorem journaled_write (s : Sink) (x : Alert × Bool) : Journaled P s (s.write P x.1 x.2).1 [x] ∧
    ((s.write P x.1 x.2).2 = .writeFailed ↔ s.fails P x = true) := by
  obtain ⟨a, ok⟩ := x
  rw [write_eq]
  cases hevent : s.event P a with
  | none =>
    have hclaims := claims_of_event hevent
    exact ⟨⟨⟨rfl, rfl⟩, by simp [Sink.written, hevent], by simp [hevent], by simp [Sink.fails, hevent],
      by simp [hclaims]⟩, by simp [Sink.fails, hevent]⟩
  | some e =>
    cases ok with
    | false =>
      exact ⟨⟨⟨rfl, rfl⟩, by simp [Sink.append, Sink.written], by simp [Sink.append, hevent],
        by simp [Sink.append, Sink.fails, hevent], by simp [Sink.append, List.countP_singleton]⟩,
        by simp [Sink.append, Sink.fails, hevent]⟩
    | true =>
      refine ⟨⟨⟨rfl, rfl⟩, by simp [Sink.append, Sink.written, hevent], by simp [Sink.append, hevent],
        by simp [Sink.append, Sink.fails], by simp [Sink.append, List.countP_singleton]⟩, ?_⟩
      simp only [Sink.append, Sink.fails, if_true, Bool.not_true, Bool.false_and, Bool.false_eq_true, iff_false]
      split_ifs <;> simp

theorem journaled_send (s : Sink) (alerts : List (Alert × Bool)) : Journaled P s (s.send P U alerts).1 alerts ∧
    ((s.send P U alerts).2 ≠ none ↔ ∃ x ∈ alerts, s.fails P x = true) := by
  unfold Sink.send
  induction alerts using List.reverseRecOn with
  | nil => exact ⟨Journaled.refl s, by simp⟩
  | append_singleton alerts x ih =>
    obtain ⟨hrun, herr⟩ := ih
    rw [List.foldl_append, List.foldl_cons, List.foldl_nil]
    generalize alerts.foldl (Sink.sendOne P U) (s, none) = st at hrun herr
    obtain ⟨hstep, hfails⟩ := journaled_write (P := P) st.1 x
    have hsame : st.1.fails P x = s.fails P x := by
      rw [Sink.fails, Sink.fails, (event_congr hrun.settings x.1).1]
    have hlast : (Sink.sendOne P U st x).2 ≠ none ↔ st.2 ≠ none ∨ (st.1.write P x.1 x.2).2 = .writeFailed := by
      unfold Sink.sendOne
      dsimp only
      cases st.2 <;> simp
    refine ⟨hrun.trans hstep, ?_⟩
    rw [hlast, herr, hfails, hsame]
    simp only [List.mem_append, List.mem_singleton, or_and_right, exists_or, exists_eq_left]

/-- **What a run adds**, and which of its calls answer with an error. -/
theorem journaled_sendAll (calls : List (List (Alert × Bool))) (s : Sink) :
    Journaled P s (s.sendAll P U calls).1 calls.flatten ∧
      List.Forall₂ (fun alerts err => err ≠ none ↔ ∃ x ∈ alerts, s.fails P x = true) calls (s.sendAll P U calls).2 := by
  induction calls generalizing s with
  | nil => exact ⟨Journaled.refl s, .nil⟩
  | cons alerts calls ih =>
    obtain ⟨hcall, herr⟩ := journaled_send (P := P) (U := U) s alerts
    obtain ⟨hrest, herrs⟩ := ih (s.send P U alerts).1
    have hsame : (s.send P U alerts).1.fails P = s.fails P := by
      funext x
      rw [Sink.fails, Sink.fails, (event_congr hcall.settings x.1).1]
    rw [hsame] at herrs
    rw [List.flatten_cons]
    exact ⟨hcall.trans hrest, .cons herr herrs⟩

/-! ## What the counts say -/

/-- The journal of a run and its counts. -/
structure AddsUp (P : Passport) (U : Unicode) (s : Sink) (calls : List (List (Alert × Bool))) : Prop where
  total : (s.sendAll P U calls).1.skipped + (s.sendAll P U calls).1.failed + (s.sendAll P U calls).1.journal.length =
    calls.flatten.length
  claimed : (s.sendAll P U calls).1.claimed = (s.sendAll P U calls).1.journal.countP (·.schema == schemaClaimed)
  errors : List.Forall₂ (fun alerts err => err ≠ none ↔ ∃ x ∈ alerts, s.fails P x = true) calls
    (s.sendAll P U calls).2
  independent : (s.sendAll P U calls).1.journal = calls.flatten.filterMap (s.written P)

theorem tally (s : Sink) (alerts : List (Alert × Bool)) : (alerts.countP fun x => (s.event P x.1).isNone) +
    alerts.countP (s.fails P) + (alerts.filterMap (s.written P)).length = alerts.length := by
  induction alerts with
  | nil => rfl
  | cons x alerts ih =>
    obtain ⟨a, ok⟩ := x
    rw [List.countP_cons, List.countP_cons, List.filterMap_cons, List.length_cons]
    cases hevent : s.event P a with
    | none => simp [Sink.fails, Sink.written, hevent]; omega
    | some e => cases ok <;> simp [Sink.fails, Sink.written, hevent] <;> omega

theorem schema_event {s : Sink} {a : Alert} {e : WireEvent} (h : s.event P a = some e) :
    (e.schema == schemaClaimed) = s.claims P a := by
  unfold Sink.event at h
  unfold Sink.claims
  cases htrusted : s.trustedID P a.identityID with
  | some agentID =>
    rw [htrusted, Option.some.injEq] at h
    rw [← h]
    exact beq_eq_false_iff_ne.mpr schema_ne_schemaClaimed
  | none =>
    rw [htrusted] at h
    obtain ⟨agentID, hclaimed, rfl⟩ := Option.map_eq_some_iff.mp h
    rw [hclaimed]
    exact beq_iff_eq.mpr rfl

theorem countP_written (s : Sink) (alerts : List (Alert × Bool)) :
    (alerts.filterMap (s.written P)).countP (·.schema == schemaClaimed) =
      alerts.countP fun x => s.claims P x.1 && x.2 := by
  induction alerts with
  | nil => rfl
  | cons x alerts ih =>
    obtain ⟨a, ok⟩ := x
    rw [List.filterMap_cons, List.countP_cons]
    cases hevent : s.event P a with
    | none => simp [Sink.written, hevent, claims_of_event hevent, ih]
    | some e => cases ok <;> simp [Sink.written, hevent, ih, List.countP_cons, schema_event hevent]

theorem countP_and_eq_iff {α : Type*} {p q : α → Bool} {l : List α} :
    l.countP p = l.countP (fun x => p x && q x) ↔ ∀ x ∈ l, p x = true → q x = true := by
  rw [List.countP_eq_countP_filter_add l p q, List.countP_filter, List.countP_filter, Nat.add_eq_left,
    List.countP_eq_zero]
  refine forall₂_congr fun x _ => ?_
  cases p x <;> cases q x <;> simp

/-- **The counts add up** exactly if no append of a claimed finding failed. -/
theorem addsUp_iff (P : Passport) (U : Unicode) (runID trustDomain : GoString) (calls : List (List (Alert × Bool))) :
    AddsUp P U (opened runID trustDomain) calls ↔
      ∀ x ∈ calls.flatten, (opened runID trustDomain).claims P x.1 = true → x.2 = true := by
  obtain ⟨hrun, herrors⟩ := journaled_sendAll (P := P) (U := U) calls (opened runID trustDomain)
  have hjournal : ((opened runID trustDomain).sendAll P U calls).1.journal =
      calls.flatten.filterMap ((opened runID trustDomain).written P) := hrun.journal.trans (List.nil_append _)
  have hclaimed : ((opened runID trustDomain).sendAll P U calls).1.claimed =
      calls.flatten.countP fun x => (opened runID trustDomain).claims P x.1 := hrun.claimed.trans (Nat.zero_add _)
  have hcounted := countP_written (P := P) (opened runID trustDomain) calls.flatten
  rw [← countP_and_eq_iff]
  constructor
  · intro h
    rw [← hclaimed, h.claimed, hjournal, hcounted]
  · intro h
    refine ⟨?_, ?_, herrors, hjournal⟩
    · have htally := tally (P := P) (opened runID trustDomain) calls.flatten
      have hskipped := hrun.skipped.trans (Nat.zero_add _)
      have hfailed := hrun.failed.trans (Nat.zero_add _)
      rw [hjournal, hskipped, hfailed, htally]
    · rw [hclaimed, h, hjournal, hcounted]

/-- **Silence**: nothing is printed exactly if every alert was written, and none of them about a claim. -/
theorem silent_iff (runID trustDomain : GoString) (calls : List (List (Alert × Bool))) :
    ((opened runID trustDomain).sendAll P U calls).1.journalSummary = none ↔
      ((opened runID trustDomain).sendAll P U calls).1.journal.length = calls.flatten.length ∧
        ∀ x ∈ calls.flatten, (opened runID trustDomain).claims P x.1 = false := by
  obtain ⟨hrun, -⟩ := journaled_sendAll (P := P) (U := U) calls (opened runID trustDomain)
  have htally := tally (P := P) (opened runID trustDomain) calls.flatten
  have hjournal := congrArg List.length (hrun.journal.trans (List.nil_append _))
  have hskipped := hrun.skipped.trans (Nat.zero_add _)
  have hfailed := hrun.failed.trans (Nat.zero_add _)
  have hclaimed := hrun.claimed.trans (Nat.zero_add _)
  have hnone : (∀ x ∈ calls.flatten, (opened runID trustDomain).claims P x.1 = false) ↔
      (calls.flatten.countP fun x => (opened runID trustDomain).claims P x.1) = 0 := by
    rw [List.countP_eq_zero]
    simp only [Bool.not_eq_true]
  unfold Sink.journalSummary
  rw [hnone, ite_eq_right_iff, hskipped, hfailed, hclaimed, hjournal]
  simp only [reduceCtorEq, imp_false, not_or, Nat.pos_iff_ne_zero, not_not]
  omega

/-- A finding about an agent that named itself. -/
def selfDeclared : Alert := ⟨"unmanaged_egress", "claimed:agent://acme.example/bot", .high, Time.zero, "egress"⟩

/-- **A claim that is not written** is counted as if it were: its append failed, and the journal is empty. -/
theorem selfDeclared_counted :
    ((opened "run-1" "acme.example").sendAll schemeOnly .basic [[(selfDeclared, false)]]).1.claimed = 1 ∧
    ((opened "run-1" "acme.example").sendAll schemeOnly .basic [[(selfDeclared, false)]]).1.journal = [] ∧
    ¬ AddsUp schemeOnly .basic (opened "run-1" "acme.example") [[(selfDeclared, false)]] := by
  have hclaimed : ((opened "run-1" "acme.example").sendAll schemeOnly .basic [[(selfDeclared, false)]]).1.claimed = 1 := by
    decide +kernel
  have hjournal : ((opened "run-1" "acme.example").sendAll schemeOnly .basic [[(selfDeclared, false)]]).1.journal = [] := by
    rfl
  refine ⟨hclaimed, hjournal, fun h => ?_⟩
  have hcount := h.claimed
  rw [hclaimed, hjournal] at hcount
  exact Nat.one_ne_zero hcount

end Idryx.Events
