import Idryx.Ingest.Logs
import Idryx.Aws.Document
import Idryx.Go.Numerals
import Idryx.Go.Json.Write

/-!
# The text of an egress log

`internal/ingest/egress.go`: what `encoding/json` stores of a log, before its flows are read.

* `storeInt64`, `storeFlow`, `unmarshalEgressLog`, `egressText`;
* `FlowRecord.json`, `logJson`; **`unmarshal_logJson`**: the flows of a log are stored as they are;
* `egress_of_stamps`: the events of flows whose times can be read.
-/

namespace Idryx.Ingest

open Aws (storeString)

/-! ## What is stored -/

/-- A flow with all that the log says of it. -/
structure FlowRecord extends EgressFlow where
  bytes : ℤ

/-- `strconv.ParseInt(text, 10, 64)` of the text of a number. -/
def parseInt64 (text : GoString) : Option ℤ :=
  let negative := text.head? = some 0x2D
  let digits := if negative then text.tail else text
  let v := Strconv.decimal digits
  if digits = [] ∨ digits.all Json.isDigit = false then none
  else if negative then if v ≤ 0x8000000000000000 then some (-v) else none
  else if v < 0x8000000000000000 then some v else none

/-- What is stored in an `int64`; a null leaves it. -/
def storeInt64 (held : ℤ) : Json → Option ℤ
  | .num text => parseInt64 text
  | .null => some held
  | _ => none

/-- What a member of a flow stores; a member of another name is skipped. -/
def storeFlowMember (f : FlowRecord) (m : GoString × Json) : Option FlowRecord :=
  if Aws.named m.1 "time" then (storeString f.time m.2).map fun s => { f with time := s }
  else if Aws.named m.1 "identity" then (storeString f.identity m.2).map fun s => { f with identity := s }
  else if Aws.named m.1 "destination" then (storeString f.destination m.2).map fun s => { f with destination := s }
  else if Aws.named m.1 "bytes" then (storeInt64 f.bytes m.2).map fun b => { f with bytes := b }
  else some f

/-- A value is decoded into a flow. -/
def storeFlow (held : FlowRecord) : Json → Option FlowRecord
  | .obj ms => ms.foldlM storeFlowMember held
  | .null => some held
  | _ => none

/-- A flow of which nothing is said. -/
def FlowRecord.zero : FlowRecord := ⟨⟨"", "", ""⟩, 0⟩

/-- The elements of an array, each stored in what the slice holds at its place. -/
def storeFlowElems : List FlowRecord → List Json → Option (List FlowRecord)
  | _, [] => some []
  | held, x :: xs =>
    (storeFlow (held.headD .zero) x).bind fun f => (storeFlowElems held.tail xs).map (f :: ·)

/-- What is stored in the slice of flows. The second list is what it holds past its length. -/
def storeFlows (held : List FlowRecord × List FlowRecord) :
    Json → Option (List FlowRecord × List FlowRecord)
  | .null => some ([], [])
  | .arr [] => some ([], [])
  | .arr xs => (storeFlowElems (held.1 ++ held.2) xs).map fun fs => (fs, (held.1 ++ held.2).drop xs.length)
  | _ => none

/-- A member of a log is decoded into it. -/
def storeLog (held : List FlowRecord × List FlowRecord) (m : GoString × Json) :
    Option (List FlowRecord × List FlowRecord) :=
  if Aws.named m.1 "flows" then storeFlows held m.2 else some held

/-- `json.Unmarshal` into an `egressLog`. -/
def unmarshalEgressLog (data : GoString) : Option (List FlowRecord) :=
  match Json.parse data with
  | some (.obj ms) => (ms.foldlM storeLog ([], [])).map Prod.fst
  | some .null => some []
  | _ => none

/-- `Egress`; `none` for its error. -/
def egressText (P : Time.Parser) (data : GoString) (allocated : ℕ) : Option (List Event × Report × ℕ) :=
  (unmarshalEgressLog data).map fun flows => egress P (flows.map FlowRecord.toEgressFlow) allocated

/-! ## A log as a value -/

/-- The text of an `int64`. -/
def intText (v : ℤ) : GoString :=
  if v < 0 then ("-" : GoString) ++ Strconv.itoa v.natAbs else Strconv.itoa v.natAbs

/-- A flow as it is written. -/
def FlowRecord.json (f : FlowRecord) : Json :=
  .obj [("time", .str f.time), ("identity", .str f.identity), ("destination", .str f.destination),
    ("bytes", .num (intText f.bytes))]

/-- A log as it is written. -/
def logJson (flows : List FlowRecord) : Json := .obj [("flows", .arr (flows.map FlowRecord.json))]

/-- A flow that says nothing of its bytes. -/
def EgressFlow.record (f : EgressFlow) : FlowRecord := ⟨f, 0⟩

theorem storeFlow_json (f : EgressFlow) : storeFlow .zero f.record.json = some f.record := by
  have htime : Aws.named "time" "time" = true := by decide
  have hidentity : Aws.named "identity" "time" = false ∧ Aws.named "identity" "identity" = true := by decide
  have hdestination : Aws.named "destination" "time" = false ∧ Aws.named "destination" "identity" = false ∧
      Aws.named "destination" "destination" = true := by decide
  have hbytes : Aws.named "bytes" "time" = false ∧ Aws.named "bytes" "identity" = false ∧
      Aws.named "bytes" "destination" = false ∧ Aws.named "bytes" "bytes" = true := by decide
  have hzero : parseInt64 (intText 0) = some 0 := by decide
  simp only [FlowRecord.json, EgressFlow.record, storeFlow, List.foldlM_cons, List.foldlM_nil, storeFlowMember,
    htime, hidentity, hdestination, hbytes, storeString, storeInt64, hzero, if_true, Bool.false_eq_true, if_false,
    Option.map_some, Option.bind_eq_bind, Option.bind_some]
  rfl

theorem storeFlowElems_json (fs : List EgressFlow) :
    storeFlowElems [] (fs.map fun f => f.record.json) = some (fs.map EgressFlow.record) := by
  induction fs with
  | nil => rfl
  | cons f fs ih =>
    rw [List.map_cons, storeFlowElems, List.headD_nil, storeFlow_json, Option.bind_some, List.tail_nil, ih]
    rfl

/-- **The flows of a log are stored as they are.** -/
theorem unmarshal_logJson {data : GoString} {fs : List EgressFlow}
    (h : Json.parse data = some (logJson (fs.map EgressFlow.record))) :
    unmarshalEgressLog data = some (fs.map EgressFlow.record) := by
  have hname : Aws.named "flows" "flows" = true := by decide
  have hmap : (fs.map EgressFlow.record).map FlowRecord.json = fs.map fun f => f.record.json := by
    rw [List.map_map]
    rfl
  have hstore : storeFlows ([], []) (.arr (fs.map fun f => f.record.json)) = some (fs.map EgressFlow.record, []) := by
    cases fs with
    | nil => rfl
    | cons f fs =>
      have helems := storeFlowElems_json (f :: fs)
      rw [List.map_cons] at helems ⊢
      rw [storeFlows, List.nil_append, helems]
      · rfl
      · exact fun hnil => absurd hnil (List.cons_ne_nil _ _)
  rw [unmarshalEgressLog, h, logJson, hmap]
  simp only [List.foldlM_cons, List.foldlM_nil, storeLog, hname, if_true, hstore, Option.bind_eq_bind,
    Option.bind_some]
  rfl

/-! ## A log as text -/

/-- The flow with the bytes of its strings replaced that are no UTF-8. -/
def EgressFlow.replaceInvalid (f : EgressFlow) : EgressFlow :=
  ⟨Utf8.replaceInvalid f.time, Utf8.replaceInvalid f.identity, Utf8.replaceInvalid f.destination⟩

theorem mapStr_logJson (fs : List EgressFlow) :
    Json.mapStr Utf8.replaceInvalid (logJson (fs.map EgressFlow.record)) =
      logJson ((fs.map EgressFlow.replaceInvalid).map EgressFlow.record) := by
  have hnames : Utf8.replaceInvalid "time" = "time" ∧ Utf8.replaceInvalid "identity" = "identity" ∧
      Utf8.replaceInvalid "destination" = "destination" ∧ Utf8.replaceInvalid "bytes" = "bytes" ∧
      Utf8.replaceInvalid "flows" = "flows" := by decide
  have hflow (f : EgressFlow) :
      Json.mapStr Utf8.replaceInvalid f.record.json = f.replaceInvalid.record.json := by
    simp only [FlowRecord.json, EgressFlow.record, EgressFlow.replaceInvalid, Json.mapStr, Json.mapMembers, hnames]
  simp only [logJson, Json.mapStr, Json.mapMembers, Json.mapElems_eq, hnames, List.map_map]
  refine congrArg (fun xs => Json.obj [(("flows" : GoString), .arr xs)]) (List.map_congr_left fun f _ => ?_)
  exact hflow f

theorem depth_logJson (fs : List EgressFlow) : Json.depth (logJson (fs.map EgressFlow.record)) ≤ 3 := by
  have hflow : ∀ x ∈ (fs.map EgressFlow.record).map FlowRecord.json, Json.depth x ≤ 1 := by
    simp only [List.forall_mem_map]
    exact fun f _ => by simp [FlowRecord.json, Json.depth, Json.memberDepth]
  have helems := Json.elemDepth_le hflow
  simp only [logJson, Json.depth, Json.memberDepth]
  omega

theorem numeral_logJson {fs : List EgressFlow} {text : GoString}
    (h : Json.Token.num text ∈ Json.tokens (logJson (fs.map EgressFlow.record))) : Json.Numeral text := by
  have hzero : intText 0 = [0x30] := by decide
  have hflow (f : EgressFlow) (h : Json.Token.num text ∈ Json.tokens f.record.json) : Json.Numeral text := by
    have htext : text = intText 0 := by
      simpa [FlowRecord.json, EgressFlow.record, Json.tokens, Json.memberTokens] using h
    rw [htext, hzero]
    exact Json.numeral_zero
  rw [logJson, Json.tokens, Json.memberTokens, Json.tokens] at h
  simp only [List.mem_cons, List.mem_append, reduceCtorEq, false_or, List.not_mem_nil, or_false] at h
  rcases Json.mem_elemTokens h with hcomma | ⟨x, hx, h⟩
  · cases hcomma
  · rw [List.map_map] at hx
    obtain ⟨f, -, rfl⟩ := List.mem_map.mp hx
    exact hflow f h

/-- **What is stored of a log that was written**: its flows, with the invalid bytes of their strings
replaced. -/
theorem unmarshal_encode (fs : List EgressFlow) :
    unmarshalEgressLog (Json.encode (logJson (fs.map EgressFlow.record))) =
      some ((fs.map EgressFlow.replaceInvalid).map EgressFlow.record) := by
  refine unmarshal_logJson ?_
  rw [Json.parse_encode ((depth_logJson fs).trans (by decide)) fun text => numeral_logJson, mapStr_logJson]

/-! ## The events of a log -/

theorem egress_of_stamps {P : Time.Parser} {fs : List EgressFlow} {ts : List Time}
    (h : List.Forall₂ (fun f t => P.stamp f.time = some ⟨t.wall, t.ext, none⟩ ∧ t.loc = none) fs ts)
    (allocated : ℕ) :
    egress P fs allocated = (List.zipWith EgressFlow.toEvent fs ts, ⟨fs.length, 0⟩, allocated) := by
  unfold egress
  induction h with
  | nil => rfl
  | @cons f t fs ts ht _ ih =>
    obtain ⟨wall, ext, loc⟩ := t
    obtain ⟨hstamp, rfl⟩ := ht
    have hparse : P.parse allocated f.time = (some ⟨wall, ext, none⟩, allocated) := by
      rw [Time.Parser.parse, hstamp]
      rfl
    rw [parseLog, hparse]
    dsimp only
    rw [ih]
    rfl

end Idryx.Ingest
