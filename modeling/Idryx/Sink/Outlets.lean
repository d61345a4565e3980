import Idryx.Go.Calendar
import Idryx.Go.Json.Members
import Idryx.Sink.Otlp

/-!
# What is sent of an alert

`JSON` of `internal/report/report.go`, and the bodies `internal/sink` posts: an array of alerts, a message, and spans.

* `jsonAlert`, `reportJSON`, `webhookSend`, `slackPost`, `otlpSend`: the texts;
* `readAlerts`, `readMessage`, `readSpans`: what they say, read by the names of their members;
* `Alert.reread`: an alert with the invalid bytes of its texts replaced;
* **`outlets_agree`**: all of them say the same of the same alerts.
-/

namespace Idryx

/-- An alert with its texts as they are read back. -/
def Alert.reread (a : Alert) : Alert where
  detector := Utf8.replaceInvalid a.detector
  identityID := Utf8.replaceInvalid a.identityID
  severity := a.severity
  time := a.time
  summary := Utf8.replaceInvalid a.summary

namespace Sink

open Ingest (intText)
open Json (member asText elems textOf mapM_map_some Within)

/-! ## Texts -/

/-- `jsonAlert` of the report and `webhookAlert`, which are the same. -/
structure JsonAlert where
  detector : GoString
  identity : GoString
  severity : GoString
  time : GoString
  summary : GoString
  deriving DecidableEq

/-- The entry of an alert. -/
def jsonAlert (a : Alert) : JsonAlert := ⟨a.detector, a.identityID, a.severity.string, a.time.formatSeconds, a.summary⟩

/-- An entry as it is written. -/
def JsonAlert.json (a : JsonAlert) : Json :=
  .obj [("detector", .str a.detector), ("identity", .str a.identity), ("severity", .str a.severity),
    ("time", .str a.time), ("summary", .str a.summary)]

/-- The array of the entries. -/
def alertsArray (alerts : List Alert) : Json := .arr (alerts.map fun a => (jsonAlert a).json)

/-- `JSON`. -/
def reportJSON (alerts : List Alert) : GoString := Json.encode (alertsArray (sortAlerts alerts))

/-- `Webhook.Send`: the body it posts, if it posts. -/
def webhookSend (min : Severity) (alerts : List Alert) : Option GoString :=
  let alerts := atLeast alerts min
  if alerts = [] then none else some (Json.marshal (alertsArray alerts))

/-- A `slackPayload`. -/
def slackPayload (text : GoString) : Json := .obj [("text", .str text)]

/-- The body `Slack.Send` posts. -/
def slackPost (min : Severity) (alerts : List Alert) : Option GoString :=
  (slackSend min alerts).map fun text => Json.marshal (slackPayload text)

/-- `otlpAttr`. -/
def otlpAttr (p : GoString × GoString) : Json :=
  .obj [("key", .str p.1), ("value", .obj [("stringValue", .str p.2)])]

/-- A span as it is written. -/
def OtlpSpan.json (s : OtlpSpan) : Json :=
  .obj [("traceId", .str s.traceID), ("spanId", .str s.spanID), ("name", .str s.name),
    ("kind", .num (Strconv.itoa s.kind)), ("startTimeUnixNano", .str s.startTimeUnixNano),
    ("endTimeUnixNano", .str s.endTimeUnixNano), ("attributes", .arr (s.attributes.map otlpAttr))]

/-- An `otlpPayload`. -/
def otlpPayload (spans : List OtlpSpan) : Json :=
  .obj [("resourceSpans", .arr [.obj
    [("resource", .obj [("attributes", .arr [otlpAttr ("service.name", "idryx")])]),
      ("scopeSpans", .arr [.obj [("scope", .obj [("name", .str "idryx")]),
        ("spans", .arr (spans.map OtlpSpan.json))]])]])]

/-- `OTLP.Send`: the body it posts, if it posts. -/
def otlpSend (sha256 : GoString → GoString) (min : Severity) (alerts : List Alert) : Option GoString :=
  (otlpSpans sha256 min alerts).map fun spans => Json.marshal (otlpPayload spans)

/-! ## Readers -/

/-- An entry as it is read back. -/
def readAlert (j : Json) : Option JsonAlert := do
  let detector ← textOf "detector" j
  let identity ← textOf "identity" j
  let severity ← textOf "severity" j
  let time ← textOf "time" j
  let summary ← textOf "summary" j
  return ⟨detector, identity, severity, time, summary⟩

/-- The alerts of an array. -/
def readAlerts (data : GoString) : Option (List JsonAlert) := do
  let j ← Json.parse data
  (elems (some j)).mapM readAlert

/-- The text of a message. -/
def readMessage (data : GoString) : Option GoString := do
  let j ← Json.parse data
  textOf "text" j

/-- The value of an attribute. -/
def attributeOf (k : GoString) (j : Json) : Option GoString := do
  let a ← (elems (member "attributes" j)).find? fun a => textOf "key" a == some k
  let value ← member "value" a
  textOf "stringValue" value

/-- The alert of a span, with the nanoseconds of its time. -/
def readSpan (j : Json) : Option JsonAlert := do
  let detector ← attributeOf "idryx.detector" j
  let identity ← attributeOf "idryx.identity" j
  let severity ← attributeOf "idryx.severity" j
  let time ← textOf "startTimeUnixNano" j
  let summary ← attributeOf "idryx.summary" j
  return ⟨detector, identity, severity, time, summary⟩

/-- The alerts of the spans of a request. -/
def readSpans (data : GoString) : Option (List JsonAlert) := do
  let j ← Json.parse data
  let resource ← (elems (member "resourceSpans" j)).head?
  let scope ← (elems (member "scopeSpans" resource)).head?
  (elems (member "spans" scope)).mapM readSpan

/-- What a span says of an alert. -/
def spanAlert (a : Alert) : JsonAlert := { jsonAlert a with time := intText a.time.unixNano }

/-! ## What is written is read -/

section Read

open Utf8 (replaceInvalid replaceInvalid_ascii)

theorem replaceInvalid_severity (s : Severity) : replaceInvalid s.string = s.string := by
  cases s <;> decide

theorem ascii_intText (v : ℤ) : ∀ b ∈ intText v, b < 0x80 := by
  unfold intText
  split_ifs
  · exact List.forall_mem_append.mpr ⟨forall_mem_of_all (by decide), Strconv.ascii_itoa _⟩
  · exact Strconv.ascii_itoa _

theorem mapStr_jsonAlert (a : Alert) :
    Json.mapStr replaceInvalid (jsonAlert a).json = (jsonAlert a.reread).json := by
  have hkeys : replaceInvalid "detector" = "detector" ∧ replaceInvalid "identity" = "identity" ∧
      replaceInvalid "severity" = "severity" ∧ replaceInvalid "time" = "time" ∧
      replaceInvalid "summary" = "summary" := by decide
  have htime : replaceInvalid a.time.formatSeconds = a.time.formatSeconds :=
    replaceInvalid_ascii (Time.ascii_formatSeconds a.time)
  simp only [JsonAlert.json, jsonAlert, Json.mapStr_obj, Json.mapStr_str, List.map_cons, List.map_nil, hkeys, htime,
    replaceInvalid_severity, Alert.reread]

theorem within_alertsArray (N : GoString → Prop) (alerts : List Alert) :
    Within N Json.maxNestingDepth (alertsArray alerts) := by
  refine Within.mono (k := 2) (.arr ?_) (by decide)
  rw [List.forall_mem_map]
  intro a _
  refine .obj ?_
  simp only [List.forall_mem_cons]
  exact ⟨.str _, .str _, .str _, .str _, .str _, List.forall_mem_nil _⟩

theorem read_alertsArray {data : GoString} {alerts : List Alert}
    (h : Json.parse data = some (Json.mapStr replaceInvalid (alertsArray alerts))) :
    readAlerts data = some (alerts.map fun a => jsonAlert a.reread) := by
  have hread : ∀ a : JsonAlert, readAlert a.json = some a := fun a => rfl
  rw [readAlerts, h, alertsArray, Json.mapStr_arr, List.map_map]
  refine mapM_map_some fun a _ => ?_
  rw [Function.comp_apply, mapStr_jsonAlert, hread]

theorem readMessage_slackPayload (text : GoString) :
    readMessage (Json.marshal (slackPayload text)) = some (replaceInvalid text) := by
  have hwithin : Within Json.Numeric Json.maxNestingDepth (slackPayload text) :=
    Within.mono (k := 1) (.obj (List.forall_mem_singleton.mpr (.str text))) (by decide)
  have hkey : replaceInvalid "text" = "text" := by decide
  rw [readMessage, hwithin.parse_marshal, slackPayload, Json.mapStr_obj, List.map_singleton, hkey, Json.mapStr_str]
  rfl

theorem replaceInvalid_before {sep : GoString} (hvalid : Utf8.valid sep = true) (hne : sep ≠ [])
    (hhead : Utf8.isCont (sep.head hne) = false) (x z : GoString) :
    replaceInvalid (x ++ (sep ++ z)) = replaceInvalid x ++ (sep ++ replaceInvalid z) := by
  have hlead : ∀ b ∈ (sep ++ z).head?, Utf8.isCont b = false := by
    intro b hb
    rw [List.head?_append_of_ne_nil sep hne, List.head?_eq_some_head hne] at hb
    rw [← Option.some.inj hb]
    exact hhead
  rw [Utf8.replaceInvalid_append hlead, Utf8.replaceInvalid_valid_append hvalid]

theorem replaceInvalid_slackLine (a : Alert) (rest : GoString) :
    replaceInvalid (slackLine a ++ rest) = slackLine a.reread ++ replaceInvalid rest := by
  simp only [slackLine, slackRow, List.append_assoc]
  rw [Utf8.replaceInvalid_valid_append (by decide), replaceInvalid_before (by decide) (by decide) (by decide),
    replaceInvalid_before (by decide) (by decide) (by decide),
    replaceInvalid_before (by decide) (by decide) (by decide),
    replaceInvalid_before (by decide) (by decide) (by decide), replaceInvalid_severity]
  rfl

theorem replaceInvalid_slackSend (min : Severity) (alerts : List Alert) :
    (slackSend min alerts).map replaceInvalid = slackSend min (alerts.map Alert.reread) := by
  have hmin : atLeast (alerts.map Alert.reread) min = (atLeast alerts min).map Alert.reread := List.filter_map
  have hlines : ∀ l : List Alert, replaceInvalid (l.flatMap slackLine) = (l.map Alert.reread).flatMap slackLine := by
    intro l
    induction l with
    | nil => rfl
    | cons a l ih => rw [List.flatMap_cons, replaceInvalid_slackLine, ih, List.map_cons, List.flatMap_cons]
  have hheader : ∀ n, ∀ b ∈ slackHeader n ++ ("\n" : GoString), b < 0x80 := fun n =>
    List.forall_mem_append.mpr ⟨List.forall_mem_append.mpr ⟨List.forall_mem_append.mpr
      ⟨forall_mem_of_all (by decide), Strconv.ascii_itoa n⟩, forall_mem_of_all (by decide)⟩,
      forall_mem_of_all (by decide)⟩
  unfold slackSend
  simp only [hmin, List.map_eq_nil_iff, List.length_map]
  split_ifs
  · rfl
  · rw [Option.map_some, Utf8.replaceInvalid_ascii_append (hheader _), hlines]

/-! ### Spans -/

section Spans

variable (sha256 : GoString → GoString)

theorem within_otlpAttr (N : GoString → Prop) (p : GoString × GoString) : Within N 2 (otlpAttr p) := by
  refine .obj ?_
  rw [List.forall_mem_cons, List.forall_mem_singleton]
  exact ⟨.str _, .obj (List.forall_mem_singleton.mpr (.str _))⟩

theorem within_alertSpan (a : Alert) (traceID : GoString) : Within Json.Numeric 4 (alertSpan sha256 a traceID).json := by
  have hone : Strconv.itoa 1 = [0x31] := by decide
  have hkind : Json.Numeric (Strconv.itoa (alertSpan sha256 a traceID).kind) := hone.symm ▸ Json.numeric_one
  refine .obj ?_
  simp only [List.forall_mem_cons]
  refine ⟨.str _, .str _, .str _, .numeral hkind, .str _, .str _, .arr ?_, List.forall_mem_nil _⟩
  rw [List.forall_mem_map]
  exact fun p _ => within_otlpAttr _ p

theorem within_otlpPayload {spans : List OtlpSpan} (h : ∀ s ∈ spans, Within Json.Numeric 4 s.json) :
    Within Json.Numeric Json.maxNestingDepth (otlpPayload spans) := by
  have hresource : Within Json.Numeric 6 (.obj [("attributes", .arr [otlpAttr ("service.name", "idryx")])]) :=
    .obj (List.forall_mem_singleton.mpr
      (.arr (List.forall_mem_singleton.mpr ((within_otlpAttr _ _).mono (by decide)))))
  have hscope : Within Json.Numeric 6 (.obj [("scope", .obj [("name", .str "idryx")]),
      ("spans", .arr (spans.map OtlpSpan.json))]) := by
    refine .obj ?_
    rw [List.forall_mem_cons, List.forall_mem_singleton]
    refine ⟨.obj (List.forall_mem_singleton.mpr (.str _)), .arr (k := 4) ?_⟩
    rw [List.forall_mem_map]
    exact h
  refine Within.mono (k := 10) (.obj (List.forall_mem_singleton.mpr (.arr (List.forall_mem_singleton.mpr (.obj ?_)))))
    (by decide)
  rw [List.forall_mem_cons, List.forall_mem_singleton]
  exact ⟨hresource.mono (by decide), .arr (List.forall_mem_singleton.mpr hscope)⟩

/-- A span with its texts as they are read back. -/
def OtlpSpan.reread (s : OtlpSpan) : OtlpSpan where
  traceID := replaceInvalid s.traceID
  spanID := replaceInvalid s.spanID
  name := replaceInvalid s.name
  kind := s.kind
  startTimeUnixNano := replaceInvalid s.startTimeUnixNano
  endTimeUnixNano := replaceInvalid s.endTimeUnixNano
  attributes := s.attributes.map fun p => (replaceInvalid p.1, replaceInvalid p.2)

theorem mapStr_otlpAttr (p : GoString × GoString) :
    Json.mapStr replaceInvalid (otlpAttr p) = otlpAttr (replaceInvalid p.1, replaceInvalid p.2) := by
  have hkeys : replaceInvalid "key" = "key" ∧ replaceInvalid "value" = "value" ∧
      replaceInvalid "stringValue" = "stringValue" := by decide
  simp only [otlpAttr, Json.mapStr_obj, Json.mapStr_str, List.map_cons, List.map_nil, hkeys]

theorem mapStr_span (s : OtlpSpan) : Json.mapStr replaceInvalid s.json = s.reread.json := by
  have hkeys : ∀ k ∈ (["traceId", "spanId", "name", "kind", "startTimeUnixNano", "endTimeUnixNano",
      "attributes"] : List GoString), replaceInvalid k = k := by decide
  simp only [List.forall_mem_cons] at hkeys
  obtain ⟨h₁, h₂, h₃, h₄, h₅, h₆, h₇, -⟩ := hkeys
  simp only [OtlpSpan.json, OtlpSpan.reread, Json.mapStr_obj, Json.mapStr_str, Json.mapStr_num, Json.mapStr_arr,
    List.map_cons, List.map_nil, List.map_map, Function.comp_def, mapStr_otlpAttr, h₁, h₂, h₃, h₄, h₅, h₆, h₇]

theorem mapStr_otlpPayload (spans : List OtlpSpan) :
    Json.mapStr replaceInvalid (otlpPayload spans) = otlpPayload (spans.map OtlpSpan.reread) := by
  have hkeys : ∀ k ∈ (["resourceSpans", "resource", "attributes", "scopeSpans", "scope", "name", "idryx", "spans",
      "service.name"] : List GoString), replaceInvalid k = k := by decide
  simp only [List.forall_mem_cons] at hkeys
  obtain ⟨h₁, h₂, h₃, h₄, h₅, h₆, h₇, h₈, h₉, -⟩ := hkeys
  simp only [otlpPayload, Json.mapStr_obj, Json.mapStr_str, Json.mapStr_arr, List.map_cons, List.map_nil, List.map_map,
    Function.comp_def, mapStr_otlpAttr, mapStr_span, h₁, h₂, h₃, h₄, h₅, h₆, h₇, h₈, h₉]

theorem readSpan_alertSpan (a : Alert) (traceID : GoString) :
    readSpan (alertSpan sha256 a traceID).reread.json = some (spanAlert a.reread) := by
  have hkeys : replaceInvalid "idryx.detector" = "idryx.detector" ∧ replaceInvalid "idryx.severity" = "idryx.severity" ∧
      replaceInvalid "idryx.identity" = "idryx.identity" ∧ replaceInvalid "idryx.summary" = "idryx.summary" := by decide
  have hnanos : replaceInvalid (intText a.time.unixNano) = intText a.time.unixNano :=
    replaceInvalid_ascii (ascii_intText _)
  simp only [OtlpSpan.reread, alertSpan, List.map_cons, List.map_nil, hkeys, hnanos, replaceInvalid_severity]
  rfl

theorem readSpans_otlpPayload {spans : List OtlpSpan} (h : ∀ s ∈ spans, Within Json.Numeric 4 s.json) :
    readSpans (Json.marshal (otlpPayload spans)) = (spans.map fun s => s.reread.json).mapM readSpan := by
  rw [readSpans, (within_otlpPayload h).parse_marshal, mapStr_otlpPayload]
  change ((spans.map OtlpSpan.reread).map OtlpSpan.json).mapM readSpan = _
  rw [List.map_map]
  rfl

end Spans

end Read

/-! ## All outlets -/

section Outlets

variable (sha256 : GoString → GoString) {min : Severity} {alerts : List Alert}

theorem readAlerts_reportJSON (alerts : List Alert) :
    readAlerts (reportJSON alerts) = some ((sortAlerts alerts).map fun a => jsonAlert a.reread) :=
  read_alertsArray (within_alertsArray _ _).parse_encode

theorem webhookSend_reads (h : atLeast alerts min ≠ []) : ∃ body, webhookSend min alerts = some body ∧
    readAlerts body = some ((atLeast alerts min).map fun a => jsonAlert a.reread) :=
  ⟨_, if_neg h, read_alertsArray (within_alertsArray _ _).parse_marshal⟩

theorem otlpSend_reads (h : atLeast alerts min ≠ []) : ∃ body, otlpSend sha256 min alerts = some body ∧
    readSpans body = some ((atLeast alerts min).map fun a => spanAlert a.reread) := by
  have hspans : ∀ s ∈ (atLeast alerts min).map fun a => alertSpan sha256 a (otlpTraceID sha256 (atLeast alerts min)),
      Within Json.Numeric 4 s.json := by
    rw [List.forall_mem_map]
    exact fun a _ => within_alertSpan sha256 a _
  have hposted : otlpSpans sha256 min alerts =
      some ((atLeast alerts min).map fun a => alertSpan sha256 a (otlpTraceID sha256 (atLeast alerts min))) :=
    if_neg h
  refine ⟨_, congrArg _ hposted, ?_⟩
  rw [readSpans_otlpPayload hspans, List.map_map]
  exact mapM_map_some fun a _ => readSpan_alertSpan sha256 a _

theorem slackPost_reads (h : atLeast alerts min ≠ []) : ∃ body, slackPost min alerts = some body ∧
    readMessage body = slackSend min (alerts.map Alert.reread) := by
  obtain ⟨text, htext⟩ : ∃ text, slackSend min alerts = some text := ⟨_, if_neg h⟩
  refine ⟨_, congrArg _ htext, ?_⟩
  rw [readMessage_slackPayload, ← replaceInvalid_slackSend, htext, Option.map_some]

theorem sends_of_none (h : atLeast alerts min = []) :
    webhookSend min alerts = none ∧ otlpSend sha256 min alerts = none ∧ slackPost min alerts = none := by
  simp [webhookSend, otlpSend, otlpSpans, slackPost, slackSend, h]

/-- **All outlets say the same.** What the report prints and what is posted to each place is read back: the report has
every alert, in its order; the others have those at or above the threshold, in the order of the run, or are not posted
to; and each says of an alert what it would say of it with the invalid bytes of its texts replaced. -/
theorem outlets_agree (min : Severity) (alerts : List Alert) :
    readAlerts (reportJSON alerts) = some ((sortAlerts alerts).map fun a => jsonAlert a.reread) ∧
      (atLeast alerts min = [] → webhookSend min alerts = none ∧ otlpSend sha256 min alerts = none ∧
        slackPost min alerts = none) ∧
      (atLeast alerts min ≠ [] → ∃ webhook otlp slack, webhookSend min alerts = some webhook ∧
        otlpSend sha256 min alerts = some otlp ∧ slackPost min alerts = some slack ∧
        readAlerts webhook = some ((atLeast alerts min).map fun a => jsonAlert a.reread) ∧
        readSpans otlp = some ((atLeast alerts min).map fun a => spanAlert a.reread) ∧
        readMessage slack = slackSend min (alerts.map Alert.reread)) := by
  refine ⟨readAlerts_reportJSON alerts, sends_of_none sha256, fun h => ?_⟩
  obtain ⟨webhook, hwebhook, hread⟩ := webhookSend_reads h
  obtain ⟨otlp, hotlp, hspans⟩ := otlpSend_reads sha256 h
  obtain ⟨slack, hslack, hmessage⟩ := slackPost_reads h
  exact ⟨webhook, otlp, slack, hwebhook, hotlp, hslack, hread, hspans, hmessage⟩

end Outlets

end Sink

end Idryx
