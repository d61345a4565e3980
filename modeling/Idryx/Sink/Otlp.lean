import Idryx.Sink.Lines
import Idryx.Ingest.Egress
import Idryx.Lib.Joined

/-!
# The ids of spans

`internal/sink/otlp.go`: an alert as a span, with ids that are hashed from its fields.

* `spanText`, `traceText`: what is hashed; `otlpSpanID`, `otlpTraceID`, `alertSpan`, `otlpSpans`;
* `Same`: the fields of two alerts are the same; `ApartOn`, `AlertIDs`: other alerts have other ids;
* `alertParts`: the fields, cut at their bars and laid end to end; `SameCuts`: where the fields begin in them;
* **`alertIDs_iff`**: the ids tell alerts apart exactly if the same parts are never cut at different places.
-/

namespace Idryx

namespace Time

/-- The instant of January 1, 1970, in nanoseconds. -/
def unixEpoch : Int := 62135596800 * 1000000000

/-- `Time.UnixNano`, in an `int64`. -/
def unixNano (t : Time) : Int := (t.instant - unixEpoch).bmod (2 ^ 64)

end Time

namespace Sink

open Ingest (intText)

/-! ## What is hashed -/

/-- The fields of an alert as they are hashed. -/
def alertFields (a : Alert) : List GoString :=
  [a.detector, a.identityID, a.severity.string, intText a.time.unixNano, a.summary]

/-- `fmt.Sprintf("idryx-span|%s|%s|%s|%d|%s", …)`. -/
def spanText (a : Alert) : GoString :=
  ("idryx-span|" : GoString) ++ a.detector ++ ("|" : GoString) ++ a.identityID ++ ("|" : GoString) ++
    a.severity.string ++ ("|" : GoString) ++ intText a.time.unixNano ++ ("|" : GoString) ++ a.summary

/-- What is written to the hash of a trace. -/
def traceText (alerts : List Alert) : GoString :=
  ("idryx-trace" : GoString) ++ alerts.flatMap fun a => ("|" : GoString) ++ a.detector ++ ("|" : GoString) ++
    a.identityID ++ ("|" : GoString) ++ a.severity.string ++ ("|" : GoString) ++ intText a.time.unixNano ++
    ("|" : GoString) ++ a.summary

/-! ## Spans -/

/-- `hex.EncodeToString`. -/
def encodeToString (s : GoString) : GoString := s.flatMap fun b => Strconv.hex 2 b.toNat

variable (sha256 : GoString → GoString)

/-- The id of the trace of a batch. -/
def otlpTraceID (alerts : List Alert) : GoString := encodeToString ((sha256 (traceText alerts)).take 16)

/-- The id of the span of an alert. -/
def otlpSpanID (a : Alert) : GoString := encodeToString ((sha256 (spanText a)).take 8)

/-- A span as it is sent. -/
structure OtlpSpan where
  traceID : GoString
  spanID : GoString
  name : GoString
  kind : ℕ
  startTimeUnixNano : GoString
  endTimeUnixNano : GoString
  attributes : List (GoString × GoString)

/-- The span of an alert. -/
def alertSpan (a : Alert) (traceID : GoString) : OtlpSpan :=
  let nanos := intText a.time.unixNano
  { traceID := traceID
    spanID := otlpSpanID sha256 a
    name := a.detector
    kind := 1
    startTimeUnixNano := nanos
    endTimeUnixNano := nanos
    attributes := [("idryx.detector", a.detector), ("idryx.severity", a.severity.string),
      ("idryx.identity", a.identityID), ("idryx.summary", a.summary)] }

/-- The spans that `Send` posts, if it posts. -/
def otlpSpans (min : Severity) (alerts : List Alert) : Option (List OtlpSpan) :=
  let alerts := atLeast alerts min
  if alerts = [] then none
  else some (alerts.map fun a => alertSpan sha256 a (otlpTraceID sha256 alerts))

/-! ## Which ids differ -/

/-- No field tells the alerts apart. -/
def Same (a b : Alert) : Prop :=
  a.detector = b.detector ∧ a.identityID = b.identityID ∧ a.severity.string = b.severity.string ∧
    a.time.instant = b.time.instant ∧ a.summary = b.summary

/-- The hash gives no two of these texts the same first eight bytes. -/
def ApartOn (sha256 : GoString → GoString) (texts : List GoString) : Prop :=
  ∀ s ∈ texts, ∀ t ∈ texts, (sha256 s).take 8 = (sha256 t).take 8 → s = t

/-- Alerts that differ have different texts, lists that differ too, and where the hash gives no two of the texts
hashed the same eight bytes, the alerts have different span ids. -/
structure AlertIDs (l l' : List Alert) : Prop where
  spans : ∀ a ∈ l ++ l', ∀ b ∈ l ++ l', ¬ Same a b → spanText a ≠ spanText b
  traces : ¬ List.Forall₂ Same l l' → traceText l ≠ traceText l'
  ids : ∀ sha256 : GoString → GoString, ApartOn sha256 ((l ++ l').map spanText) →
    ∀ a ∈ l ++ l', ∀ b ∈ l ++ l', ¬ Same a b → otlpSpanID sha256 a ≠ otlpSpanID sha256 b

/-- The fields of an alert, each cut at its bars and laid end to end. -/
def alertParts (a : Alert) : List GoString := Joined.parts 0x7C (alertFields a)

/-- The parts of both alerts are cut at the same places, and the instants are one. -/
def SameCuts (a b : Alert) : Prop :=
  a.detector.count 0x7C = b.detector.count 0x7C ∧ a.identityID.count 0x7C = b.identityID.count 0x7C ∧
    a.summary.count 0x7C = b.summary.count 0x7C ∧ a.time.instant = b.time.instant

theorem spanText_eq (a : Alert) : spanText a = [0x7C].intercalate (("idryx-span" : GoString) :: alertFields a) := by
  have hhead : ("idryx-span|" : GoString) = ("idryx-span" : GoString) ++ [0x7C] := rfl
  have hbar : ("|" : GoString) = [0x7C] := rfl
  rw [spanText, hhead, hbar, alertFields]
  simp only [List.intercalate_cons_cons, List.intercalate_singleton, List.append_assoc]

theorem intercalate_append_flatMap (x : GoString) (xs : List GoString) :
    ([0x7C] : GoString).intercalate (x :: xs) = x ++ xs.flatMap fun y => 0x7C :: y := by
  induction xs generalizing x with
  | nil => rw [List.intercalate_singleton, List.flatMap_nil, List.append_nil]
  | cons y xs ih => rw [List.intercalate_cons_cons, ih, List.flatMap_cons, List.append_assoc]; rfl

theorem traceText_eq (alerts : List Alert) :
    traceText alerts = [0x7C].intercalate (("idryx-trace" : GoString) :: alerts.flatMap alertFields) := by
  have hbar : ("|" : GoString) = [0x7C] := rfl
  rw [traceText, hbar, intercalate_append_flatMap, List.flatMap_assoc]
  congr 1
  refine List.flatMap_congr fun a _ => ?_
  simp only [alertFields, List.flatMap_cons, List.flatMap_nil, List.append_assoc, List.append_nil]
  rfl

/-! ## Bars -/

/-- **Two spans hash one text** exactly if their alerts have the same parts. -/
theorem spanText_eq_iff {a b : Alert} : spanText a = spanText b ↔ alertParts a = alertParts b := by
  rw [spanText_eq, spanText_eq, Joined.intercalate_eq_iff 0x7C (List.cons_ne_nil _ _) (List.cons_ne_nil _ _),
    Joined.parts_cons, Joined.parts_cons, List.append_cancel_left_eq]
  rfl

theorem traceText_eq_iff {l l' : List Alert} :
    traceText l = traceText l' ↔ l.flatMap alertParts = l'.flatMap alertParts := by
  have hparts : ∀ alerts : List Alert, Joined.parts 0x7C (alerts.flatMap alertFields) = alerts.flatMap alertParts :=
    fun alerts => List.flatMap_assoc
  rw [traceText_eq, traceText_eq, Joined.intercalate_eq_iff 0x7C (List.cons_ne_nil _ _) (List.cons_ne_nil _ _),
    Joined.parts_cons, Joined.parts_cons, List.append_cancel_left_eq, hparts, hparts]

theorem no_bar_severity (s : Severity) : s.string.count 0x7C = 0 := by
  cases s <;> decide

theorem intText_cases (v : ℤ) : intText v = (if v < 0 then [0x2D] else []) ++ Strconv.itoa v.natAbs := by
  have hminus : ("-" : GoString) = [0x2D] := rfl
  rw [intText, hminus]
  split_ifs <;> rfl

theorem no_bar_intText (v : ℤ) : (intText v).count 0x7C = 0 := by
  rw [List.count_eq_zero, intText_cases]
  intro hmem
  rcases List.mem_append.mp hmem with hsign | hdigit
  · split_ifs at hsign
    · revert hsign
      decide
    · cases hsign
  · exact absurd (Strconv.digit_of_mem_itoa hdigit).2 (by decide)

theorem forall₂_fields {a b : Alert} (h : SameCuts a b) :
    List.Forall₂ (fun x y : GoString => x.count 0x7C = y.count 0x7C) (alertFields a) (alertFields b) := by
  obtain ⟨hdetector, hidentity, hsummary, -⟩ := h
  exact .cons hdetector (.cons hidentity (.cons (by rw [no_bar_severity, no_bar_severity])
    (.cons (by rw [no_bar_intText, no_bar_intText]) (.cons hsummary .nil))))

theorem same_of_parts {a b : Alert} (h : alertParts a = alertParts b) (hcuts : SameCuts a b) : Same a b := by
  have hfields := (Joined.parts_inj 0x7C (forall₂_fields hcuts)).mp h
  simp only [alertFields, List.cons.injEq, and_true] at hfields
  obtain ⟨hdetector, hidentity, hseverity, -, hsummary⟩ := hfields
  exact ⟨hdetector, hidentity, hseverity, hcuts.2.2.2, hsummary⟩

theorem Same.sameCuts {a b : Alert} (h : Same a b) : SameCuts a b := by
  obtain ⟨hdetector, hidentity, -, htime, hsummary⟩ := h
  exact ⟨by rw [hdetector], by rw [hidentity], by rw [hsummary], htime⟩

theorem same_of_flatMap_parts {l l' : List Alert} (hcuts : List.Forall₂ SameCuts l l')
    (h : l.flatMap alertParts = l'.flatMap alertParts) : List.Forall₂ Same l l' := by
  induction hcuts with
  | nil => exact .nil
  | @cons a b l l' hab _ ih =>
    have hlen : (alertParts a).length = (alertParts b).length := by
      unfold alertParts Joined.parts
      rw [List.length_flatMap, List.length_flatMap]
      congr 1
      have hcount : List.Forall₂ (fun x y : GoString => (x.splitOn 0x7C).length = (y.splitOn 0x7C).length)
          (alertFields a) (alertFields b) := (forall₂_fields hab).imp fun x y hxy => by
        rw [Joined.length_splitOn, Joined.length_splitOn, hxy]
      exact List.forall₂_eq_eq_eq ▸ List.forall₂_map_left_iff.mpr (List.forall₂_map_right_iff.mpr hcount)
    rw [List.flatMap_cons, List.flatMap_cons] at h
    obtain ⟨hhead, htail⟩ := List.append_inj h hlen
    exact .cons (same_of_parts hhead hab) (ih htail)

theorem encodeToString_injective : Function.Injective encodeToString := by
  intro s
  induction s with
  | nil =>
    intro t h
    cases t with
    | nil => rfl
    | cons c t => exact absurd h.symm (List.cons_ne_nil _ _)
  | cons b s ih =>
    intro t h
    cases t with
    | nil => exact absurd h (List.cons_ne_nil _ _)
    | cons c t =>
      unfold encodeToString at h
      rw [List.flatMap_cons, List.flatMap_cons] at h
      obtain ⟨hhead, htail⟩ := List.append_inj h (by rw [Strconv.length_hex, Strconv.length_hex])
      have hbyte : b.toNat = c.toNat := by
        rw [← Strconv.hexadecimal_hex (w := 2) b.toNat_lt, hhead, Strconv.hexadecimal_hex c.toNat_lt]
      rw [UInt8.toNat_inj.mp hbyte, ih htail]

/-- **Ids tell alerts apart** exactly if no two alerts have the same parts, cut at different places or at different
instants, and the lists do not either. -/
theorem alertIDs_iff (l l' : List Alert) : AlertIDs l l' ↔
    (∀ a ∈ l ++ l', ∀ b ∈ l ++ l', alertParts a = alertParts b → SameCuts a b) ∧
      (l.flatMap alertParts = l'.flatMap alertParts → List.Forall₂ SameCuts l l') := by
  constructor
  · intro h
    refine ⟨fun a ha b hb hparts => ?_, fun hparts => ?_⟩
    · by_contra hcuts
      exact h.spans a ha b hb (fun hsame => hcuts hsame.sameCuts) (spanText_eq_iff.mpr hparts)
    · by_contra hcuts
      exact h.traces (fun hsame => hcuts (hsame.imp fun _ _ => Same.sameCuts)) (traceText_eq_iff.mpr hparts)
  · rintro ⟨hpairs, hlists⟩
    have hspans : ∀ a ∈ l ++ l', ∀ b ∈ l ++ l', ¬ Same a b → spanText a ≠ spanText b := by
      intro a ha b hb hdiffer htext
      have hparts := spanText_eq_iff.mp htext
      exact hdiffer (same_of_parts hparts (hpairs a ha b hb hparts))
    refine ⟨hspans, fun hdiffer htext => ?_, fun sha256 hapart a ha b hb hdiffer hid => ?_⟩
    · have hparts := traceText_eq_iff.mp htext
      exact hdiffer (same_of_flatMap_parts (hlists hparts) hparts)
    · have htext := hapart _ (List.mem_map_of_mem ha) _ (List.mem_map_of_mem hb) (encodeToString_injective hid)
      exact hspans a ha b hb hdiffer htext

/-- A hash that tells two detectors apart meets the condition on the texts of their alerts. -/
example : ApartOn (fun s => s.drop 11) ([⟨"shadow_ai", "bot", .high, Time.zero, ""⟩,
    ⟨"beaconing", "bot", .high, Time.zero, ""⟩].map spanText) := by
  unfold ApartOn
  decide

/-- An alert whose summary reads like more fields. -/
def longSummary : Alert := ⟨"unmanaged_egress", "proc:curl", .high, { Time.zero with ext := 62135596800 }, "eu|low|0|sent"⟩

/-- An alert whose identity reads like more fields. -/
def longIdentity : Alert := ⟨"unmanaged_egress", "proc:curl|high|0|eu", .low, { Time.zero with ext := 62135596800 }, "sent"⟩

/-- **One span id for two alerts** of different severity, about different identities, whatever the hash. -/
theorem shared_span_id : ¬ Same longSummary longIdentity ∧ spanText longSummary = spanText longIdentity ∧
    (∀ sha256, otlpSpanID sha256 longSummary = otlpSpanID sha256 longIdentity) ∧
    ¬ AlertIDs [longSummary] [longIdentity] := by
  have hdiffer : ¬ Same longSummary longIdentity := fun h => absurd h.2.2.2.2 (by decide)
  have htext : spanText longSummary = spanText longIdentity := by decide +kernel
  refine ⟨hdiffer, htext, fun sha256 => by rw [otlpSpanID, otlpSpanID, htext], fun h => ?_⟩
  exact h.spans longSummary (by simp) longIdentity (by simp) hdiffer htext

end Sink
end Idryx
