import Idryx.Cmd.Headers
import Idryx.Detect.All
import Idryx.Events.Counts
import Idryx.Sink.Outlets

/-!
# A run of the detectors

`runDetect`, `cmd/idryx/main.go`, over a graph that was built: the report is printed, and the alerts go to every place
that is configured, one after another.

* `Config`, `Env`: the flags and the environment, and what answers;
* `Destination`, `effect`, `deliver`: one place, what comes of it, and the loop over them;
* `runDetect`: the run, how it ends and with which exit code;
* **`deliver_eq`**: no place depends on what came of another;
* **`detect_delivers`**: what each place is told, and when a run ends well.
-/

namespace Idryx.Cmd.Detect

open Headers (HeaderList)
open Sink

/-! ## Places -/

/-- A request that is posted. -/
structure Request where
  sink : GoString
  url : GoString
  headers : HeaderList
  body : GoString

/-- Where alerts can go. -/
inductive Destination where
  | slack (url : GoString)
  | webhook (url : GoString) (headers : HeaderList)
  | otlp (url : GoString)
  | journal (s : Events.Sink)

namespace Destination

/-- `Name`. -/
def name : Destination → GoString
  | slack _ => "slack"
  | webhook _ _ => "webhook"
  | otlp _ => "otlp"
  | journal _ => "agent-event"

/-- What is said of a status. -/
def said : Destination → GoString
  | slack _ => "slack webhook returned "
  | webhook _ _ => "webhook returned "
  | otlp _ => "otlp endpoint returned "
  | journal _ => ""

end Destination

/-- `NewOTLP`: the endpoint with the path of the traces. -/
def otlpURL (endpoint : GoString) : GoString :=
  let base := endpoint.rdropWhile (· == 0x2F)
  if Strings.hasSuffix base "/v1/traces" then base else base ++ "/v1/traces"

/-- What the run meets: the detectors' world, the hash, the validators, and what comes of a text that is written to the
standard output, answers a request, opens the journal, lands in it and closes it. -/
structure Env where
  world : World
  sha256 : GoString → GoString
  passport : Events.Passport
  stdout : GoString → Option GoString
  answer : Request → Except GoString ℕ
  opened : Option GoString
  lands : ℕ → Bool
  closed : Option GoString

/-- What comes of one place: what is posted, the journal if it is one, and the error. -/
structure Effect where
  request : Option Request
  journal : Option Events.Sink
  error : Option GoString

section Places

variable (E : Env) (min : Severity) (alerts : List Alert)

/-- What every post says of its body. -/
def jsonHeaders : HeaderList := LastWrite.Dict.empty.set "Content-Type" "application/json"

/-- What is posted to a place. -/
def Destination.request : Destination → Option Request
  | slack url => (slackPost min alerts).map fun body => ⟨"slack", url, jsonHeaders, body⟩
  | webhook url headers => (webhookSend min alerts).map fun body => ⟨"webhook", url, headers.over jsonHeaders, body⟩
  | otlp url => (otlpSend E.sha256 min alerts).map fun body => ⟨"otlp", url, jsonHeaders, body⟩
  | journal _ => none

/-- What becomes of a request. -/
def Destination.refusal (d : Destination) (r : Request) : Option GoString :=
  match E.answer r with
  | .error e => some e
  | .ok status => if 300 ≤ status then some (d.said ++ Strconv.itoa status) else none

/-- The alerts, each with what becomes of its append. -/
def appends : List (Alert × Bool) := alerts.mapIdx fun i a => (a, E.lands i)

/-- `Send`. -/
def Destination.effect (d : Destination) : Effect :=
  match d with
  | journal s =>
    let (s, error) := s.send E.passport E.world.unicode (appends E alerts)
    ⟨none, some s, error⟩
  | _ => ⟨d.request E min alerts, none, (d.request E min alerts).bind (d.refusal E)⟩

/-- The loop over the places. -/
structure Delivery where
  requests : List Request
  journal : Option Events.Sink
  stderr : List GoString
  failed : ℕ

/-- One turn of the loop. -/
def deliverTo (st : Delivery) (d : Destination) : Delivery :=
  let e := d.effect E min alerts
  { requests := st.requests ++ e.request.toList
    journal := e.journal.or st.journal
    stderr := st.stderr ++ (e.error.map fun err => "idryx: sink " ++ d.name ++ ": " ++ err ++ "\n").toList
    failed := st.failed + e.error.toList.length }

/-- All places in turn. -/
def deliver (ds : List Destination) : Delivery := ds.foldl (deliverTo E min alerts) ⟨[], none, [], 0⟩

end Places

/-! ## The command -/

/-- The flags and the environment, the headers as `webhookHeaders` read them. -/
structure Config where
  format : GoString
  minSeverity : GoString
  slack : GoString
  webhook : GoString
  headers : HeaderList
  otlp : GoString
  events : GoString
  trustDomain : GoString
  runID : GoString

/-- The threshold of `--min-severity`; another word is an error. -/
def parseSeverity (s : GoString) : Option Severity :=
  if s = "low" then some .low
  else if s = "medium" then some .medium
  else if s = "high" then some .high
  else if s = "critical" then some .critical
  else none

/-- What is handed to the standard output. -/
def reportText (format : GoString) (alerts : List Alert) : Option GoString :=
  if format = "human" then some (human alerts) else if format = "json" then some (reportJSON alerts) else none

/-- The error of the report: `JSON` returns that of its write, and `Human` drops its own. -/
def reportError (E : Env) (format text : GoString) : Option GoString := if format = "json" then E.stdout text else none

/-- The journal, if there is one. -/
def openJournal (E : Env) (cfg : Config) : Except GoString (Option Events.Sink) :=
  if cfg.events = "" then .ok none
  else if cfg.trustDomain = "" then
    .error ("IDRYX_EVENTS is set and IDRYX_TRUST_DOMAIN is not. The event envelope needs agent://<trust-domain>/<name> " ++
      "and only you can say the domain; inventing one would put every agent here under a name nobody chose. " ++
      "Set IDRYX_TRUST_DOMAIN=acme.example, or unset IDRYX_EVENTS")
  else Events.new E.passport E.world.unicode E.opened cfg.events cfg.runID cfg.trustDomain

/-- The places that page somebody. -/
def Config.pagers (cfg : Config) : List Destination :=
  List.flatten [if cfg.slack = "" then [] else [.slack cfg.slack],
    if cfg.webhook = "" then [] else [.webhook cfg.webhook cfg.headers],
    if cfg.otlp = "" then [] else [.otlp (otlpURL cfg.otlp)]]

/-- How a run ends. -/
inductive Ending where
  | done
  | refused (err : GoString)
  | undelivered (failed total : ℕ)
  deriving DecidableEq

namespace Ending

/-- The exit code. -/
def code : Ending → ℕ
  | done => 0
  | refused _ => 1
  | undelivered _ _ => 3

/-- What `main` says. -/
def text : Ending → Option GoString
  | done => none
  | refused err => some ("idryx: " ++ err ++ "\n")
  | undelivered failed total => some ("idryx: " ++ Strconv.itoa failed ++ " of " ++ Strconv.itoa total ++
      " alert sink(s) failed to deliver: one or more alert sinks failed to deliver\n")

end Ending

/-- What a run leaves; `stdout` is what it hands to the standard output. -/
structure Run where
  stdout : GoString
  requests : List Request
  journal : Option Events.Sink
  stderr : List GoString
  ending : Ending

/-- A run that ends before anything is sent. -/
def refuse (stdout err : GoString) : Run := ⟨stdout, [], none, [], .refused err⟩

/-- What is said of the journal when the run ends. -/
def closeJournal (E : Env) (s : Events.Sink) : List GoString :=
  s.journalSummary.toList ++
    (E.closed.map fun err => ("idryx: closing the agent-event journal: " : GoString) ++ err ++ "\n").toList

/-- `runDetect`, from the alerts on. -/
def report (E : Env) (cfg : Config) (alerts : List Alert) : Run :=
  match reportText cfg.format alerts with
  | none => refuse "" ("unknown format " ++ Strconv.quote E.world.unicode cfg.format)
  | some stdout =>
    match reportError E cfg.format stdout with
    | some err => refuse stdout err
    | none =>
      match parseSeverity cfg.minSeverity with
      | none => refuse stdout ("invalid --min-severity " ++ Strconv.quote E.world.unicode cfg.minSeverity)
      | some min =>
        match openJournal E cfg with
        | .error err => refuse stdout err
        | .ok bus =>
          let sinks := cfg.pagers ++ bus.toList.map .journal
          let d := deliver E min alerts sinks
          { stdout := stdout
            requests := d.requests
            journal := d.journal
            stderr := d.stderr ++ d.journal.toList.flatMap (closeJournal E)
            ending := if d.failed = 0 then .done else .undelivered d.failed sinks.length }

/-- `runDetect`, over the graph that was built. -/
def runDetect (E : Env) (cfg : Config) (g : Store) : Option Run :=
  (runDetectors E.world g.identities).map (report E cfg)

/-! ## The loop -/

section Loop

variable (E : Env) (min : Severity) (alerts : List Alert)

/-- What is said of a place that failed. -/
def Destination.complaint (d : Destination) : Option GoString :=
  (d.effect E min alerts).error.map fun err => "idryx: sink " ++ d.name ++ ": " ++ err ++ "\n"

/-- **No place depends on what came of another**: after the loop there is what each of them makes by itself. -/
theorem deliver_eq (ds : List Destination) : deliver E min alerts ds =
    { requests := ds.filterMap fun d => (d.effect E min alerts).request
      journal := (ds.filterMap fun d => (d.effect E min alerts).journal).getLast?
      stderr := ds.filterMap (Destination.complaint E min alerts)
      failed := ds.countP fun d => (d.effect E min alerts).error.isSome } := by
  induction ds using List.reverseRecOn with
  | nil => rfl
  | append_singleton ds d ih =>
    have hstep : deliver E min alerts (ds ++ [d]) = deliverTo E min alerts (deliver E min alerts ds) d := by
      rw [deliver, List.foldl_append]
      rfl
    rw [hstep, ih, deliverTo]
    simp only [Delivery.mk.injEq, List.filterMap_append, List.countP_append, List.getLast?_append]
    refine ⟨?_, ?_, ?_, ?_⟩
    · cases hrequest : (d.effect E min alerts).request <;> simp [hrequest]
    · cases hjournal : (d.effect E min alerts).journal <;> simp [hjournal]
    · rw [← Destination.complaint]
      cases hcomplaint : d.complaint E min alerts <;> simp [hcomplaint]
    · cases herror : (d.effect E min alerts).error <;> simp [herror]

end Loop

/-- A collector that is down, and a webhook that is not. -/
def halfDown : Env where
  world := .still
  sha256 s := s
  passport := Events.schemeOnly
  stdout _ := none
  answer r := if r.sink = "otlp" then .ok 503 else .ok 200
  opened := none
  lands _ := true
  closed := none

@[inherit_doc halfDown]
def halfDelivered : Delivery :=
  deliver halfDown .high [⟨"shadow_ai", "bot", .high, .seconds 7, "asked a model"⟩]
    [.otlp (otlpURL "http://localhost:4318/"), .webhook "http://siem" LastWrite.Dict.empty]

example : halfDelivered.requests.map Request.sink = ["otlp", "webhook"] ∧ halfDelivered.failed = 1 := by
  decide +kernel

/-! ## The places that page somebody -/

/-- The request was answered, and not with an error. -/
def Request.Accepted (E : Env) (q : Request) : Prop := ∃ status, E.answer q = .ok status ∧ status < 300

/-- The request goes to the place of its name, and says of the alerts at or above the threshold what they are. -/
def Request.Tells (cfg : Config) (min : Severity) (alerts : List Alert) (q : Request) : Prop :=
  (q.sink = "slack" ∧ q.url = cfg.slack ∧ readMessage q.body = slackSend min (alerts.map Alert.reread)) ∨
    (q.sink = "webhook" ∧ q.url = cfg.webhook ∧ q.headers = cfg.headers.over jsonHeaders ∧
      readAlerts q.body = some ((atLeast alerts min).map fun a => jsonAlert a.reread)) ∨
    q.sink = "otlp" ∧ q.url = otlpURL cfg.otlp ∧
      readSpans q.body = some ((atLeast alerts min).map fun a => spanAlert a.reread)

section Pagers

variable {E : Env} {cfg : Config} {min : Severity} {alerts : List Alert} {d : Destination}

theorem mem_pagers : d ∈ cfg.pagers ↔ (cfg.slack ≠ "" ∧ d = .slack cfg.slack) ∨
    (cfg.webhook ≠ "" ∧ d = .webhook cfg.webhook cfg.headers) ∨ cfg.otlp ≠ "" ∧ d = .otlp (otlpURL cfg.otlp) := by
  unfold Config.pagers
  simp only [List.flatten_cons, List.flatten_nil, List.append_nil, List.mem_append, ne_eq]
  refine or_congr ?_ (or_congr ?_ ?_) <;> split_ifs with h <;> simp [h]

theorem effect_pager (hd : d ∈ cfg.pagers) : d.effect E min alerts =
    ⟨d.request E min alerts, none, (d.request E min alerts).bind (d.refusal E)⟩ := by
  rcases mem_pagers.mp hd with ⟨-, rfl⟩ | ⟨-, rfl⟩ | ⟨-, rfl⟩ <;> rfl

theorem request_of_none (h : atLeast alerts min = []) (d : Destination) : d.request E min alerts = none := by
  obtain ⟨hwebhook, hotlp, hslack⟩ := sends_of_none E.sha256 h
  cases d with
  | slack url => rw [Destination.request, hslack, Option.map_none]
  | webhook url headers => rw [Destination.request, hwebhook, Option.map_none]
  | otlp url => rw [Destination.request, hotlp, Option.map_none]
  | journal s => rfl

theorem request_pager (h : atLeast alerts min ≠ []) (hd : d ∈ cfg.pagers) :
    ∃ q, d.request E min alerts = some q ∧ q.sink = d.name ∧ q.Tells cfg min alerts := by
  rcases mem_pagers.mp hd with ⟨-, rfl⟩ | ⟨-, rfl⟩ | ⟨-, rfl⟩
  · obtain ⟨body, hbody, hread⟩ := slackPost_reads h
    exact ⟨⟨"slack", cfg.slack, jsonHeaders, body⟩, congrArg (Option.map _) hbody, rfl, Or.inl ⟨rfl, rfl, hread⟩⟩
  · obtain ⟨body, hbody, hread⟩ := webhookSend_reads h
    exact ⟨⟨"webhook", cfg.webhook, cfg.headers.over jsonHeaders, body⟩, congrArg (Option.map _) hbody, rfl,
      Or.inr (Or.inl ⟨rfl, rfl, rfl, hread⟩)⟩
  · obtain ⟨body, hbody, hread⟩ := otlpSend_reads E.sha256 h
    exact ⟨⟨"otlp", otlpURL cfg.otlp, jsonHeaders, body⟩, congrArg (Option.map _) hbody, rfl,
      Or.inr (Or.inr ⟨rfl, rfl, hread⟩)⟩

theorem refusal_eq_none_iff {q : Request} : d.refusal E q = none ↔ q.Accepted E := by
  unfold Destination.refusal Request.Accepted
  cases E.answer q with
  | error e => simp
  | ok status => simp

end Pagers

/-! ## The run -/

/-- The run gets as far as the places: its format is one of two, a JSON report is written without an error, its
threshold is one, and its journal opens. -/
def Config.Runs (E : Env) (cfg : Config) (alerts : List Alert) : Prop :=
  (cfg.format = "human" ∨ cfg.format = "json" ∧ E.stdout (reportJSON alerts) = none) ∧
    (∃ min, parseSeverity cfg.minSeverity = some min) ∧ ∃ bus, openJournal E cfg = .ok bus

theorem exists_report_iff {E : Env} {format : GoString} {alerts : List Alert} :
    (∃ stdout, reportText format alerts = some stdout ∧ reportError E format stdout = none) ↔
      format = "human" ∨ format = "json" ∧ E.stdout (reportJSON alerts) = none := by
  unfold reportText reportError
  by_cases hhuman : format = "human"
  · subst hhuman
    exact iff_of_true ⟨_, rfl, rfl⟩ (Or.inl rfl)
  · rw [if_neg hhuman]
    have hne : ("json" : GoString) ≠ "human" := by decide
    by_cases hjson : format = "json" <;> simp [hhuman, hjson, hne]

/-- What a run that gets there leaves. -/
structure Delivered (E : Env) (cfg : Config) (min : Severity) (alerts : List Alert) (bus : Option Events.Sink)
    (r : Run) : Prop where
  stdout : reportText cfg.format alerts = some r.stdout
  printed : cfg.format = "json" → readAlerts r.stdout = some ((sortAlerts alerts).map fun a => jsonAlert a.reread)
  quiet : atLeast alerts min = [] → r.requests = []
  posted : atLeast alerts min ≠ [] → r.requests.map Request.sink = cfg.pagers.map Destination.name
  tells : ∀ q ∈ r.requests, q.Tells cfg min alerts
  journal : Option.Rel (fun s t => Events.Journaled E.passport s t (appends E alerts)) bus r.journal
  handed : ∀ t, r.journal = some t → t.skipped + t.failed + t.journal.length = alerts.length
  ending : r.ending = .done ↔ (∀ q ∈ r.requests, q.Accepted E) ∧
    ∀ s, bus = some s → ∀ x ∈ appends E alerts, s.fails E.passport x = false
  code : r.ending ≠ .done → r.ending.code = 3

section Run

variable {E : Env} {cfg : Config} {min : Severity} {alerts : List Alert} {bus : Option Events.Sink}

/-- The places of a run. -/
def Config.sinks (cfg : Config) (bus : Option Events.Sink) : List Destination := cfg.pagers ++ bus.toList.map .journal

theorem requests_deliver : (deliver E min alerts (cfg.sinks bus)).requests =
    cfg.pagers.filterMap (Destination.request E min alerts) := by
  have hpagers : cfg.pagers.filterMap (fun d => (d.effect E min alerts).request) =
      cfg.pagers.filterMap (Destination.request E min alerts) :=
    List.filterMap_congr fun d hd => by rw [effect_pager hd]
  have hbus : (bus.toList.map Destination.journal).filterMap (fun d => (d.effect E min alerts).request) = [] := by
    cases bus <;> rfl
  rw [deliver_eq, Config.sinks]
  dsimp only
  rw [List.filterMap_append, hpagers, hbus, List.append_nil]

theorem journal_deliver : (deliver E min alerts (cfg.sinks bus)).journal =
    bus.map fun s => (s.send E.passport E.world.unicode (appends E alerts)).1 := by
  have hpagers : cfg.pagers.filterMap (fun d => (d.effect E min alerts).journal) = [] := by
    rw [List.filterMap_eq_nil_iff]
    intro d hd
    rw [effect_pager hd]
  rw [deliver_eq, Config.sinks]
  dsimp only
  rw [List.filterMap_append, hpagers, List.nil_append]
  cases bus <;> rfl

theorem failed_deliver : (deliver E min alerts (cfg.sinks bus)).failed = 0 ↔
    (∀ q ∈ cfg.pagers.filterMap (Destination.request E min alerts), q.Accepted E) ∧
      ∀ s, bus = some s → ∀ x ∈ appends E alerts, s.fails E.passport x = false := by
  rw [deliver_eq, Config.sinks]
  dsimp only
  rw [List.countP_append, Nat.add_eq_zero_iff, List.countP_eq_zero, List.countP_eq_zero]
  refine and_congr ?_ ?_
  · simp only [List.mem_filterMap]
    constructor
    · rintro h q ⟨d, hd, hq⟩
      have herror := h d hd
      rw [effect_pager hd, hq, Option.bind_some, Option.not_isSome_iff_eq_none] at herror
      exact refusal_eq_none_iff.mp herror
    · intro h d hd
      rw [effect_pager hd, Option.not_isSome_iff_eq_none]
      cases hq : d.request E min alerts with
      | none => rfl
      | some q => exact refusal_eq_none_iff.mpr (h q ⟨d, hd, hq⟩)
  · cases bus with
    | none => simp
    | some s =>
      obtain ⟨-, herror⟩ := Events.journaled_send (P := E.passport) (U := E.world.unicode) s (appends E alerts)
      have heffect : ((Destination.journal s).effect E min alerts).error =
          (s.send E.passport E.world.unicode (appends E alerts)).2 := rfl
      simp only [Option.toList_some, List.map_cons, List.map_nil, List.mem_singleton, forall_eq, heffect,
        Option.not_isSome_iff_eq_none, Option.some.injEq, forall_eq']
      rw [← not_iff_not, ← ne_eq, herror]
      simp only [not_forall, Bool.not_eq_false, exists_prop]

theorem openJournal_eq {s : Events.Sink} (h : openJournal E cfg = .ok (some s)) :
    s = Events.opened cfg.runID (Strings.trimSpace cfg.trustDomain) := by
  unfold openJournal at h
  split_ifs at h
  · exact absurd h (by simp)
  · exact Events.new_opened h

theorem report_eq {stdout : GoString} (hstdout : reportText cfg.format alerts = some stdout)
    (herror : reportError E cfg.format stdout = none) (hmin : parseSeverity cfg.minSeverity = some min)
    (hbus : openJournal E cfg = .ok bus) : report E cfg alerts =
      { stdout := stdout
        requests := (deliver E min alerts (cfg.sinks bus)).requests
        journal := (deliver E min alerts (cfg.sinks bus)).journal
        stderr := (deliver E min alerts (cfg.sinks bus)).stderr ++
          (deliver E min alerts (cfg.sinks bus)).journal.toList.flatMap (closeJournal E)
        ending := if (deliver E min alerts (cfg.sinks bus)).failed = 0 then .done
          else .undelivered (deliver E min alerts (cfg.sinks bus)).failed (cfg.sinks bus).length } := by
  unfold report
  rw [hstdout]
  dsimp only
  rw [herror]
  dsimp only
  rw [hmin]
  dsimp only
  rw [hbus]
  rfl

/-- **The journal accounts for every alert.** -/
theorem handed_send {s : Events.Sink} (hbus : openJournal E cfg = .ok (some s)) :
    (s.send E.passport E.world.unicode (appends E alerts)).1.skipped +
      (s.send E.passport E.world.unicode (appends E alerts)).1.failed +
      (s.send E.passport E.world.unicode (appends E alerts)).1.journal.length = alerts.length := by
  obtain ⟨hadds, -⟩ := Events.journaled_send (P := E.passport) (U := E.world.unicode) s (appends E alerts)
  have htally := Events.tally (P := E.passport) s (appends E alerts)
  have hempty : s.skipped = 0 ∧ s.failed = 0 ∧ s.journal = [] := by
    rw [openJournal_eq hbus]
    exact ⟨rfl, rfl, rfl⟩
  rw [hadds.skipped, hadds.failed, hadds.journal, hempty.1, hempty.2.1, hempty.2.2, Nat.zero_add, Nat.zero_add,
    List.nil_append, htally, appends, List.length_mapIdx]

theorem report_delivered {stdout : GoString} (hstdout : reportText cfg.format alerts = some stdout)
    (herror : reportError E cfg.format stdout = none) (hmin : parseSeverity cfg.minSeverity = some min)
    (hbus : openJournal E cfg = .ok bus) : Delivered E cfg min alerts bus (report E cfg alerts) := by
  rw [report_eq hstdout herror hmin hbus, requests_deliver, journal_deliver]
  refine ⟨hstdout, fun hjson => ?_, fun h => ?_, fun h => ?_, fun q hq => ?_, ?_, fun t ht => ?_, ?_, fun h => ?_⟩
  · have hjsonText : reportText cfg.format alerts = some (reportJSON alerts) := by
      rw [hjson]
      rfl
    rw [← Option.some.inj (hjsonText.symm.trans hstdout)]
    exact readAlerts_reportJSON alerts
  · exact List.filterMap_eq_nil_iff.mpr fun d _ => request_of_none h d
  · dsimp only
    rw [List.map_filterMap, ← List.filterMap_eq_map]
    refine List.filterMap_congr fun d hd => ?_
    obtain ⟨q, hq, hsink, -⟩ := request_pager (E := E) h hd
    rw [hq, Option.map_some, hsink]
    rfl
  · obtain ⟨d, hd, hq⟩ := List.mem_filterMap.mp hq
    by_cases h : atLeast alerts min = []
    · rw [request_of_none h] at hq
      cases hq
    · obtain ⟨q', hq', -, htells⟩ := request_pager (E := E) h hd
      exact Option.some.inj (hq'.symm.trans hq) ▸ htells
  · cases bus with
    | none => exact .none
    | some s => exact .some (Events.journaled_send (P := E.passport) (U := E.world.unicode) s (appends E alerts)).1
  · obtain ⟨s, rfl, rfl⟩ := Option.map_eq_some_iff.mp ht
    exact handed_send hbus
  · dsimp only
    have hfailed : (deliver E min alerts (cfg.sinks bus)).failed = 0 ↔ _ := failed_deliver
    rw [← hfailed]
    split_ifs with h <;> simp [h]
  · dsimp only at h ⊢
    split_ifs at h ⊢ with hfailed
    · exact absurd rfl h
    · rfl

end Run

/-- **What a run delivers.** A run whose flags, report and journal are in order prints the report; where there are
alerts at or above the threshold it posts to every place that is configured, whatever becomes of the others, what says
of each of them what it is, and else to none; and every alert goes to the journal, which writes it, skips it or fails
to. It ends well exactly if every request was accepted and no append failed, and else with a code of its own. Any other
run sends nothing at all. -/
theorem detect_delivers (E : Env) (cfg : Config) (g : Store) :
    ∃ alerts r, runDetectors E.world g.identities = some alerts ∧ runDetect E cfg g = some r ∧
      (cfg.Runs E alerts → ∃ min bus, parseSeverity cfg.minSeverity = some min ∧ openJournal E cfg = .ok bus ∧
        Delivered E cfg min alerts bus r) ∧
      (¬ cfg.Runs E alerts → r.requests = [] ∧ r.journal = none ∧ r.ending.code = 1) := by
  obtain ⟨alerts, hrun⟩ := exists_runDetectors E.world g.identities
  refine ⟨alerts, report E cfg alerts, hrun, congrArg _ hrun, ?_, fun hnot => ?_⟩
  · rintro ⟨hformat, ⟨min, hmin⟩, bus, hbus⟩
    obtain ⟨stdout, hstdout, herror⟩ := exists_report_iff.mpr hformat
    exact ⟨min, bus, hmin, hbus, report_delivered hstdout herror hmin hbus⟩
  · unfold report
    cases hstdout : reportText cfg.format alerts with
    | none => exact ⟨rfl, rfl, rfl⟩
    | some stdout =>
      dsimp only
      cases herror : reportError E cfg.format stdout with
      | some err => exact ⟨rfl, rfl, rfl⟩
      | none =>
        cases hmin : parseSeverity cfg.minSeverity with
        | none => exact ⟨rfl, rfl, rfl⟩
        | some min =>
          cases hbus : openJournal E cfg with
          | error err => exact ⟨rfl, rfl, rfl⟩
          | ok bus => exact absurd ⟨exists_report_iff.mp ⟨stdout, hstdout, herror⟩, ⟨min, hmin⟩, bus, hbus⟩ hnot

end Idryx.Cmd.Detect
