import Idryx.Cmd.Load
import Idryx.Ingest.Gcp

/-!
# What a command reads

`inputArg`, `checkUsageFlags`, `withUsagePaths`, `populate` and `buildGraph`, `cmd/idryx/main.go`: a command
reads its graph from a database, from one or more `--load` sources, or from one file, and may be given a
usage log for the AWS and for the GCP inventory.

* `LoadList.set`, `inputArg`, `checkUsageFlags`, `withUsagePaths`, `parse`, `buildGraph`, `graphOf`;
* `Outside`: the files, the database and the parsers;
* **`mem_loads`**, **`inputArg_ok`**, **`checkUsageFlags_ok`**: what a command line comes to;
* **`usage_logs_applied`**: a usage log that is accepted is applied to every source it is about, and no
  grant it shows used is asked back.
-/

namespace Idryx.Cmd

/-! ## The command line -/

/-- One source to ingest. -/
structure LoadSpec where
  source : GoString
  path : GoString
  ctPath : GoString
  auditPath : GoString
  deriving DecidableEq

/-- `loadList.Set`: one more `--load source:path`. -/
def LoadList.set (U : Unicode) (l : List LoadSpec) (v : GoString) : Except GoString (List LoadSpec) :=
  match Strings.cut v 0x3A with
  | some (src, path) =>
    if src = "" ∨ path = "" then .error ("--load expects source:path, got " ++ Strconv.quote U v)
    else .ok (l ++ [⟨src, path, "", ""⟩])
  | none => .error ("--load expects source:path, got " ++ Strconv.quote U v)

/-- The flags of a command that reads a graph, and what is left of its arguments. -/
structure CommandLine where
  source : GoString
  privileged : GoString
  db : GoString
  cloudtrail : GoString
  gcpAudit : GoString
  passports : GoString
  load : List GoString
  args : List GoString

/-- Exactly one of a database, one or more sources to stitch, and a file. -/
def inputArg (args : List GoString) (db : GoString) (loads : List LoadSpec) : Except GoString GoString :=
  if loads ≠ [] then
    if db ≠ "" ∨ args ≠ [] then .error "use --load on its own, not with --db or a positional file"
    else .ok ""
  else if db ≠ "" then
    if args = [] then .ok "" else .error "provide either --db or a file, not both"
  else
    match args with
    | [path] => .ok path
    | _ => .error "provide exactly one input file, --db, or --load source:path"

/-- A usage-log flag, and the source it enriches. -/
structure Usage where
  flag : GoString
  source : GoString
  deriving DecidableEq

/-- The flags of the usage logs, each with the source whose grants it enriches. -/
def cloudtrailUsage : Usage := ⟨"--cloudtrail", "aws_iam"⟩

@[inherit_doc cloudtrailUsage]
def gcpAuditUsage : Usage := ⟨"--gcp-audit", "gcp_iam"⟩

@[inherit_doc cloudtrailUsage]
def usageEnrichment : List Usage := [cloudtrailUsage, gcpAuditUsage]

/-- The log a flag is given. -/
def given (ctPath auditPath : GoString) (u : Usage) : GoString :=
  if u.flag = "--gcp-audit" then auditPath else ctPath

/-- The sources the run reads. -/
def present (source db : GoString) (loads : List LoadSpec) : List GoString :=
  if loads ≠ [] then loads.map LoadSpec.source else if db = "" then [source] else []

/-- Refuse a usage log that has nothing to enrich. -/
def checkUsageFlags (source db ctPath auditPath : GoString) (loads : List LoadSpec) : Except GoString Unit :=
  usageEnrichment.forM fun u =>
    if given ctPath auditPath u = "" ∨ u.source ∈ present source db loads then .ok ()
    else if db ≠ "" then
      .error (u.flag ++ " enriches " ++ u.source ++ " at ingest time and does nothing with --db: run " ++
        "\x60idryx load --db --source " ++ u.source ++ " --" ++ Strings.trimPrefix u.flag "--" ++
        " ...\x60 to persist the usage, or drop the flag")
    else
      .error (u.flag ++ " enriches the " ++ u.source ++ " source, which this run does not read: add --source " ++
        u.source ++ " or --load " ++ u.source ++ ":<path>, or drop the flag")

/-- The usage logs of the run, where they apply to the source. -/
def withUsagePaths (spec : LoadSpec) (ctPath auditPath : GoString) : LoadSpec :=
  let spec := if spec.source = "aws_iam" ∧ spec.ctPath = "" then { spec with ctPath := ctPath } else spec
  if spec.source = "gcp_iam" ∧ spec.auditPath = "" then { spec with auditPath := auditPath } else spec

/-! ## The sources -/

/-- The files, the database, and what the connectors make of a text. -/
structure Outside where
  reader : Aws.Reader
  readFile : GoString → Except GoString GoString
  openPg : GoString → Except GoString Store
  authDetails : GoString → Except GoString Aws.AuthDetails
  ctRecords : GoString → Except GoString (List Aws.CTRecord)
  gcpInventory : GoString → Except GoString Gcp.Inventory
  gcpAuditEntries : GoString → Except GoString (List Gcp.AuditEntry)
  azure : GoString → Except GoString (List Identity)
  agents : GoString → Except GoString (List Identity)
  mcp : GoString → Except GoString (List Identity)
  okta : GoString → Except GoString (List Event)
  entra : GoString → Except GoString (List Event)
  cloudtrail : GoString → Except GoString (List Event)
  egress : GoString → Except GoString (List Event)
  loadAgentBus : GoString → Except GoString (List Identity × List Event)
  loadPassports : GoString → Except GoString (List PassportDoc)

/-- An error with more said before it. -/
def wrap {α : Type} (text : GoString) (r : Except GoString α) : Except GoString α := r.mapError (text ++ ·)

/-- The names that read the agent-event bus. -/
def agentBusSources : List GoString := ["tokenfuse", "wardryx", "mockryx", "verdryx", "scopyx"]

section Sources

variable (O : Outside)

/-- `ingest.AWSSIAMWithUsage`. -/
def awsIAMWithUsage (data ctData : GoString) : Except GoString (List Identity) := do
  let d ← O.authDetails data
  let records ← O.ctRecords ctData
  return Aws.awsIAMWithUsage O.reader d records

/-- `ingest.GCPIAMWithUsage`. -/
def gcpIAMWithUsage (data auditData : GoString) : Except GoString (List Identity) := do
  let inv ← O.gcpInventory data
  let entries ← O.gcpAuditEntries auditData
  return Gcp.gcpIAMWithUsage O.reader.unicode inv entries

/-- The identities of an inventory; `none` if the source is not one. -/
def parseInventory (source data : GoString) : Except GoString (Option (List Identity)) :=
  let wrapParse (r : Except GoString (List Identity)) := (wrap ("parse " ++ source ++ ": ") r).map some
  if source = "aws_iam" then wrapParse ((O.authDetails data).map (Aws.awsIAM O.reader))
  else if source = "gcp_iam" then wrapParse ((O.gcpInventory data).map (Gcp.gcpIAM O.reader.unicode))
  else if source = "azure" then wrapParse (O.azure data)
  else if source = "agents" then wrapParse (O.agents data)
  else if source = "mcp" then wrapParse (O.mcp data)
  else .ok none

/-- The events of a log. -/
def parseSource (source data : GoString) : Except GoString (List Event) :=
  if source = "okta" then O.okta data
  else if source = "entra" then O.entra data
  else if source = "cloudtrail" then O.cloudtrail data
  else if source = "egress" then O.egress data
  else .error ("unknown source " ++ Strconv.quote O.reader.unicode source)

/-- What `populate` is given by the connector of a source. -/
def parse (spec : LoadSpec) : Except GoString Parsed :=
  if spec.source ∈ agentBusSources then do
    let r ← wrap ("parse " ++ spec.source ++ ": ") (O.loadAgentBus spec.path)
    return .agentBus r.1 r.2
  else do
    let data ← O.readFile spec.path
    if spec.source = "aws_iam" ∧ spec.ctPath ≠ "" then
      let ctData ← wrap "read cloudtrail file: " (O.readFile spec.ctPath)
      return .inventory (← wrap "parse aws_iam+cloudtrail: " (awsIAMWithUsage O data ctData))
    else if spec.source = "gcp_iam" ∧ spec.auditPath ≠ "" then
      let auditData ← wrap "read gcp audit file: " (O.readFile spec.auditPath)
      return .inventory (← wrap "parse gcp_iam+audit: " (gcpIAMWithUsage O data auditData))
    else
      match ← parseInventory O spec.source data with
      | some ids => return .inventory ids
      | none => return .log (← wrap ("parse " ++ spec.source ++ " log: ") (parseSource O spec.source data))

/-- The Passports of a directory; nothing where no directory is given. -/
def passportDocs (dir : GoString) : Except GoString (Option (List PassportDoc)) :=
  if dir = "" then .ok none else (wrap "load passports: " (O.loadPassports dir)).map some

/-- The graph of one of the three. -/
def buildGraph (source privileged path db ctPath auditPath passports : GoString) (loads : List LoadSpec) :
    Except GoString Store := do
  checkUsageFlags source db ctPath auditPath loads
  if db ≠ "" then
    let snap ← O.openPg db
    let docs ← passportDocs O passports
    return (snap.markSet (privilegedSet privileged)).run (Idryx.loadPassports docs)
  else
    let specs := if loads ≠ [] then loads.map (withUsagePaths · ctPath auditPath)
      else [⟨source, path, ctPath, auditPath⟩]
    let parsed ← specs.mapM (parse O)
    let docs ← passportDocs O passports
    return (Store.new (privilegedSet privileged).get).run (parsed.flatMap populate ++ Idryx.loadPassports docs)

/-- What `detect`, `serve` and `remediate` do before they have a graph. -/
def graphOf (cl : CommandLine) : Except GoString Store := do
  let loads ← cl.load.foldlM (LoadList.set O.reader.unicode) []
  let path ← inputArg cl.args cl.db loads
  buildGraph O cl.source cl.privileged path cl.db cl.cloudtrail cl.gcpAudit cl.passports loads

end Sources

/-! ## What came before a result -/

section Inversion

variable {ε α β : Type}

theorem bind_ok {x : Except ε α} {f : α → Except ε β} {b : β} :
    (x >>= f) = .ok b ↔ ∃ a, x = .ok a ∧ f a = .ok b := by
  cases x with
  | error e => simp [bind, Except.bind]
  | ok a => simp [bind, Except.bind]

theorem wrap_ok {text : GoString} {r : Except GoString α} {a : α} : wrap text r = .ok a ↔ r = .ok a := by
  cases r <;> simp [wrap, Except.mapError]

theorem forM_ok {f : α → Except ε Unit} {xs : List α} : xs.forM f = .ok () ↔ ∀ x ∈ xs, f x = .ok () := by
  induction xs with
  | nil => exact iff_of_true rfl fun x hx => absurd hx List.not_mem_nil
  | cons x xs ih =>
    change (f x >>= fun _ => xs.forM f) = .ok () ↔ _
    rw [bind_ok, List.forall_mem_cons, ← ih]
    exact ⟨fun ⟨_, hx, hxs⟩ => ⟨hx, hxs⟩, fun ⟨hx, hxs⟩ => ⟨(), hx, hxs⟩⟩

theorem exists_of_mapM {f : α → Except ε β} {xs : List α} {ys : List β} (h : xs.mapM f = .ok ys) :
    ∀ x ∈ xs, ∃ y ∈ ys, f x = .ok y := by
  induction xs generalizing ys with
  | nil => exact fun x hx => absurd hx List.not_mem_nil
  | cons x xs ih =>
    rw [List.mapM_cons, bind_ok] at h
    obtain ⟨y, hy, h⟩ := h
    obtain ⟨zs, hzs, hys⟩ := bind_ok.mp h
    obtain rfl : y :: zs = ys := Except.ok.inj hys
    refine List.forall_mem_cons.mpr ⟨⟨y, List.mem_cons_self, hy⟩, fun x' hx' => ?_⟩
    obtain ⟨z, hz, hfz⟩ := ih hzs x' hx'
    exact ⟨z, List.mem_cons_of_mem _ hz, hfz⟩

end Inversion

theorem set_ok {U : Unicode} {l l' : List LoadSpec} {v : GoString} (h : LoadList.set U l v = .ok l') :
    ∃ src path, Strings.cut v 0x3A = some (src, path) ∧ l' = l ++ [⟨src, path, "", ""⟩] := by
  unfold LoadList.set at h
  cases hcut : Strings.cut v 0x3A with
  | none =>
    rw [hcut] at h
    cases h
  | some sp =>
    rw [hcut] at h
    dsimp only at h
    split_ifs at h with hempty
    exact ⟨sp.1, sp.2, rfl, (Except.ok.inj h).symm⟩

/-- **The loads of a command line** are what its flags say, one by one, and carry no usage log. -/
theorem mem_loads {U : Unicode} {vs : List GoString} {loads : List LoadSpec}
    (h : vs.foldlM (LoadList.set U) [] = .ok loads) : (loads = [] ↔ vs = []) ∧
      ∀ spec, spec ∈ loads ↔ spec.ctPath = "" ∧ spec.auditPath = "" ∧
        ∃ v ∈ vs, Strings.cut v 0x3A = some (spec.source, spec.path) := by
  have hrun : ∀ (vs : List GoString) (l loads : List LoadSpec), vs.foldlM (LoadList.set U) l = .ok loads →
      loads.length = l.length + vs.length ∧
        ∀ spec, spec ∈ loads ↔ spec ∈ l ∨ spec.ctPath = "" ∧ spec.auditPath = "" ∧
          ∃ v ∈ vs, Strings.cut v 0x3A = some (spec.source, spec.path) := by
    intro vs
    induction vs with
    | nil =>
      intro l loads h
      obtain rfl : l = loads := Except.ok.inj h
      simp
    | cons v vs ih =>
      intro l loads h
      rw [List.foldlM_cons] at h
      obtain ⟨l', hl', h⟩ := bind_ok.mp h
      obtain ⟨src, path, hcut, rfl⟩ := set_ok hl'
      obtain ⟨hlen, hmem⟩ := ih _ _ h
      refine ⟨?_, fun spec => ?_⟩
      · rw [hlen, List.length_append, List.length_singleton, List.length_cons]
        omega
      · rw [hmem, List.mem_append, List.mem_singleton, List.exists_mem_cons_iff, hcut]
        obtain ⟨source, path', ctPath, auditPath⟩ := spec
        simp only [LoadSpec.mk.injEq, Option.some.injEq, Prod.mk.injEq]
        grind
  obtain ⟨hlen, hmem⟩ := hrun vs [] loads h
  refine ⟨?_, fun spec => (hmem spec).trans (or_iff_right List.not_mem_nil)⟩
  rw [← List.length_eq_zero_iff, ← List.length_eq_zero_iff, hlen, List.length_nil, Nat.zero_add]

/-- **A run reads from exactly one of the three.** -/
theorem inputArg_ok {args : List GoString} {db path : GoString} {loads : List LoadSpec} :
    inputArg args db loads = .ok path ↔
      (loads ≠ [] ∧ db = "" ∧ args = [] ∧ path = "") ∨ (loads = [] ∧ db ≠ "" ∧ args = [] ∧ path = "") ∨
        loads = [] ∧ db = "" ∧ args = [path] := by
  unfold inputArg
  by_cases hload : loads = []
  · by_cases hdb : db = ""
    · rcases args with - | ⟨a, - | ⟨b, as⟩⟩ <;> simp [hload, hdb]
    · by_cases hargs : args = [] <;> simp [hload, hdb, hargs, eq_comm]
  · by_cases hdb : db = "" <;> by_cases hargs : args = [] <;> simp [hload, hdb, hargs, eq_comm]

theorem given_withUsagePaths {u : Usage} (hu : u ∈ usageEnrichment) (spec : LoadSpec) (ctPath auditPath : GoString)
    (hsource : spec.source = u.source) (hct : spec.ctPath = "") (haudit : spec.auditPath = "") :
    (withUsagePaths spec ctPath auditPath).source = u.source ∧
      (withUsagePaths spec ctPath auditPath).path = spec.path ∧
        given (withUsagePaths spec ctPath auditPath).ctPath (withUsagePaths spec ctPath auditPath).auditPath u =
          given ctPath auditPath u := by
  obtain ⟨source, path, _, _⟩ := spec
  subst hct haudit hsource
  rcases List.mem_pair.mp hu with rfl | rfl <;> exact ⟨rfl, rfl, rfl⟩

section Applied

variable {O : Outside}

/-- `ingest.AWSSIAMWithUsage` or `ingest.GCPIAMWithUsage`. -/
def enriched (O : Outside) (u : Usage) (data log : GoString) : Except GoString (List Identity) :=
  if u.flag = "--gcp-audit" then gcpIAMWithUsage O data log else awsIAMWithUsage O data log

theorem parse_enriched {u : Usage} (hu : u ∈ usageEnrichment) {spec : LoadSpec} (hsource : spec.source = u.source)
    (hgiven : given spec.ctPath spec.auditPath u ≠ "") {p : Parsed} (h : parse O spec = .ok p) :
    ∃ data log ids, O.readFile spec.path = .ok data ∧
      O.readFile (given spec.ctPath spec.auditPath u) = .ok log ∧ enriched O u data log = .ok ids ∧
        p = .inventory ids := by
  have hbus : ∀ u ∈ usageEnrichment, u.source ∉ agentBusSources := by decide
  unfold parse at h
  rw [if_neg (hsource ▸ hbus u hu)] at h
  obtain ⟨data, hdata, h⟩ := bind_ok.mp h
  refine ⟨data, ?_⟩
  rcases List.mem_pair.mp hu with rfl | rfl
  · have hct : spec.ctPath ≠ "" := hgiven
    rw [if_pos ⟨hsource, hct⟩] at h
    obtain ⟨log, hlog, h⟩ := bind_ok.mp h
    obtain ⟨ids, hids, h⟩ := bind_ok.mp h
    exact ⟨log, ids, hdata, wrap_ok.mp hlog, wrap_ok.mp hids, (Except.ok.inj h).symm⟩
  · have haudit : spec.auditPath ≠ "" := hgiven
    have hne : ¬ (spec.source = "aws_iam" ∧ spec.ctPath ≠ "") := by
      rintro ⟨haws, -⟩
      rw [hsource] at haws
      exact absurd haws (by decide)
    rw [if_neg hne, if_pos ⟨hsource, haudit⟩] at h
    obtain ⟨log, hlog, h⟩ := bind_ok.mp h
    obtain ⟨ids, hids, h⟩ := bind_ok.mp h
    exact ⟨log, ids, hdata, wrap_ok.mp hlog, wrap_ok.mp hids, (Except.ok.inj h).symm⟩

/-- The command line names a source with a path. -/
def CommandLine.Names (cl : CommandLine) (source path : GoString) : Prop :=
  (∃ v ∈ cl.load, Strings.cut v 0x3A = some (source, path)) ∨
    cl.load = [] ∧ cl.source = source ∧ cl.args = [path]

/-- The identity holds the grant, which is marked used and is not on the list of what is to be revoked from it. -/
structure NotAskedBack (g : Store) (id name : GoString) : Prop where
  held : g.Grants id fun q => q.name = name ∧ q.used = true
  alert : ∀ now, ∀ al ∈ leastPrivilege g.identities now, al.identityID = id →
    ∃ j ∈ g.identities, j.id = id ∧ leastPrivilegeAlert now j = some al ∧ name ∉ (audit j).unused

theorem notAskedBack_of_mem {privileged : GoString → Bool} {parsed : List Parsed} {ids : List Identity}
    {docs : List Op} (h : .inventory ids ∈ parsed) {i : Identity} (hi : i ∈ ids) {p : Permission}
    (hp : p ∈ i.permissions) (hused : p.used = true) :
    NotAskedBack ((Store.new privileged).run (parsed.flatMap populate ++ docs)) i.id p.name := by
  have hmem : i ∈ Op.identities (parsed.flatMap populate ++ docs) := by
    rw [Op.identities_append]
    refine List.mem_append_left _ (List.mem_filterMap.mpr ⟨.identity i, ?_, rfl⟩)
    exact List.mem_flatMap.mpr ⟨_, h, List.mem_map_of_mem hi⟩
  exact ⟨Store.grants_used_run privileged hmem hp hused,
    fun now => (Aws.kept_of_used (U := .basic) hp hused).alert privileged _ now hmem⟩

/-- **When the usage logs of a run are accepted.** -/
theorem checkUsageFlags_ok {source db ctPath auditPath : GoString} {loads : List LoadSpec} :
    checkUsageFlags source db ctPath auditPath loads = .ok () ↔
      ∀ u ∈ usageEnrichment, given ctPath auditPath u = "" ∨ u.source ∈ present source db loads := by
  unfold checkUsageFlags
  rw [forM_ok]
  refine forall₂_congr fun u _ => ?_
  split_ifs with h <;> simp [h]

/-- With a database nothing is read that a log could go with. -/
theorem db_eq_of_present {args : List GoString} {source db path name : GoString} {loads : List LoadSpec}
    (hpath : inputArg args db loads = .ok path) (hpresent : name ∈ present source db loads) : db = "" := by
  by_contra hne
  have hnil : loads = [] := by
    rcases inputArg_ok.mp hpath with ⟨-, hdb, -⟩ | ⟨hload, -⟩ | ⟨hload, -⟩
    · exact absurd hdb hne
    · exact hload
    · exact hload
  rw [present, if_neg (not_not.mpr hnil), if_neg hne] at hpresent
  exact List.not_mem_nil hpresent

theorem applied_of_mem {u : Usage} (hu : u ∈ usageEnrichment) {specs : List LoadSpec} {parsed : List Parsed}
    (hparsed : specs.mapM (parse O) = .ok parsed) (privileged : GoString → Bool) (docs : List Op) {spec : LoadSpec}
    (hspec : spec ∈ specs) (hsource : spec.source = u.source) (hgiven : given spec.ctPath spec.auditPath u ≠ "") :
    ∃ data log ids, O.readFile spec.path = .ok data ∧ O.readFile (given spec.ctPath spec.auditPath u) = .ok log ∧
      enriched O u data log = .ok ids ∧ ∀ i ∈ ids, ∀ p ∈ i.permissions, p.used = true →
        NotAskedBack ((Store.new privileged).run (parsed.flatMap populate ++ docs)) i.id p.name := by
  obtain ⟨p, hp, hparse⟩ := exists_of_mapM hparsed spec hspec
  obtain ⟨data, log, ids, hdata, hlog, hids, rfl⟩ := parse_enriched hu hsource hgiven hparse
  exact ⟨data, log, ids, hdata, hlog, hids, fun i hi q hq hused => notAskedBack_of_mem hp hi hq hused⟩

/-- **A usage log that is accepted is applied.** In a command that reaches a graph the log of a flag is read
with every source of its kind on the command line, of which there is one, and every grant that it shows used
is in the graph, marked used, and is not asked back. -/
theorem usage_logs_applied {cl : CommandLine} {g : Store} (h : graphOf O cl = .ok g) {u : Usage}
    (hu : u ∈ usageEnrichment) (hgiven : given cl.cloudtrail cl.gcpAudit u ≠ "") :
    cl.db = "" ∧ (∃ path, cl.Names u.source path) ∧
      ∀ path, cl.Names u.source path → ∃ data log ids, O.readFile path = .ok data ∧
        O.readFile (given cl.cloudtrail cl.gcpAudit u) = .ok log ∧ enriched O u data log = .ok ids ∧
          ∀ i ∈ ids, ∀ p ∈ i.permissions, p.used = true → NotAskedBack g i.id p.name := by
  obtain ⟨loads, hloads, h⟩ := bind_ok.mp h
  obtain ⟨path, hpath, h⟩ := bind_ok.mp h
  obtain ⟨_, hcheck, h⟩ := bind_ok.mp h
  have hpresent := (checkUsageFlags_ok.mp hcheck u hu).resolve_left hgiven
  have hdb : cl.db = "" := db_eq_of_present hpath hpresent
  rw [if_neg (not_not.mpr hdb)] at h
  obtain ⟨parsed, hparsed, h⟩ := bind_ok.mp h
  obtain ⟨docs, -, h⟩ := bind_ok.mp h
  obtain rfl := Except.ok.inj h
  have hread : ∀ spec ∈ (if loads ≠ [] then loads.map (withUsagePaths · cl.cloudtrail cl.gcpAudit)
      else [⟨cl.source, path, cl.cloudtrail, cl.gcpAudit⟩]), spec.source = u.source →
      given spec.ctPath spec.auditPath u = given cl.cloudtrail cl.gcpAudit u →
      ∃ data log ids, O.readFile spec.path = .ok data ∧
        O.readFile (given cl.cloudtrail cl.gcpAudit u) = .ok log ∧ enriched O u data log = .ok ids ∧
          ∀ i ∈ ids, ∀ p ∈ i.permissions, p.used = true → NotAskedBack
            ((Store.new (privilegedSet cl.privileged).get).run (parsed.flatMap populate ++ loadPassports docs))
            i.id p.name := by
    intro spec hspec hsource hlog
    rw [← hlog]
    exact applied_of_mem hu hparsed _ _ hspec hsource (hlog ▸ hgiven)
  obtain ⟨hnil, hmem⟩ := mem_loads hloads
  refine ⟨hdb, ?_⟩
  by_cases hload : loads = []
  · -- one source, and the argument is its file
    have hargs : cl.args = [path] := by
      rcases inputArg_ok.mp hpath with ⟨hne, -⟩ | ⟨-, hne, -⟩ | ⟨-, -, hargs⟩
      · exact absurd hload hne
      · exact absurd hdb hne
      · exact hargs
    rw [if_neg (not_not.mpr hload)] at hread
    rw [present, if_neg (not_not.mpr hload), if_pos hdb, List.mem_singleton] at hpresent
    refine ⟨⟨path, Or.inr ⟨hnil.mp hload, hpresent.symm, hargs⟩⟩, fun path' hnames => ?_⟩
    rcases hnames with ⟨v, hv, -⟩ | ⟨-, hsource, hargs'⟩
    · rw [hnil.mp hload] at hv
      exact absurd hv List.not_mem_nil
    · obtain rfl := List.singleton_injective (hargs.symm.trans hargs')
      exact hread _ (List.mem_singleton.mpr rfl) hsource rfl
  · rw [if_pos hload] at hread
    rw [present, if_pos hload] at hpresent
    obtain ⟨spec, hspec, hsource⟩ := List.mem_map.mp hpresent
    obtain ⟨-, -, v, hv, hcut⟩ := (hmem spec).mp hspec
    refine ⟨⟨spec.path, Or.inl ⟨v, hv, hsource ▸ hcut⟩⟩, fun path' hnames => ?_⟩
    rcases hnames with ⟨v, hv, hcut⟩ | ⟨hempty, -⟩
    · have hspec' : (⟨u.source, path', "", ""⟩ : LoadSpec) ∈ loads := (hmem _).mpr ⟨rfl, rfl, v, hv, hcut⟩
      obtain ⟨h₁, h₂, h₃⟩ := given_withUsagePaths hu ⟨u.source, path', "", ""⟩ cl.cloudtrail cl.gcpAudit rfl rfl rfl
      have hspecs := hread _ (List.mem_map_of_mem hspec') h₁ h₃
      rw [h₂] at hspecs
      exact hspecs
    · exact absurd (hnil.mpr hempty) hload

end Applied

/-- The files of a project, with a build account that has two roles of which the log shows one. -/
def ciOutside : Outside where
  reader := ⟨.basic, fun _ => none, fun _ => none⟩
  readFile path := .ok path
  openPg _ := .error "refused"
  authDetails _ := .error "unexpected end of JSON input"
  ctRecords _ := .error "unexpected end of JSON input"
  gcpInventory data := if data = "iam.json" then .ok Gcp.ciProject else .error "unexpected end of JSON input"
  gcpAuditEntries data := if data = "audit.json" then .ok Gcp.ciLog else .error "unexpected end of JSON input"
  azure _ := .ok []
  agents _ := .ok []
  mcp _ := .ok []
  okta _ := .ok []
  entra _ := .ok []
  cloudtrail _ := .ok []
  egress _ := .ok []
  loadAgentBus _ := .ok ([], [])
  loadPassports _ := .ok []

@[inherit_doc ciOutside]
def ciCommand : CommandLine where
  source := "okta"
  privileged := ""
  db := ""
  cloudtrail := ""
  gcpAudit := "audit.json"
  passports := ""
  load := ["egress:flows.json", "gcp_iam:iam.json"]
  args := []

theorem usage_logs_applied_ci :
    ∃ g, graphOf ciOutside ciCommand = .ok g ∧ NotAskedBack g "gcp:ci@p" "roles/storage.objectViewer" := by
  have hok : (graphOf ciOutside ciCommand).toOption.isSome = true := by decide +kernel
  cases hg : graphOf ciOutside ciCommand with
  | error e =>
    rw [hg] at hok
    cases hok
  | ok g =>
    obtain ⟨-, -, hall⟩ := usage_logs_applied hg (u := gcpAuditUsage) (List.mem_of_elem_eq_true rfl) (by decide)
    obtain ⟨data, log, ids, hdata, hlog, hids, hkept⟩ :=
      hall "iam.json" (Or.inl ⟨_, List.mem_cons_of_mem _ List.mem_cons_self, by decide +kernel⟩)
    obtain rfl : data = "iam.json" := (Except.ok.inj hdata).symm
    obtain rfl : log = "audit.json" := (Except.ok.inj hlog).symm
    have hval : enriched ciOutside gcpAuditUsage "iam.json" "audit.json" =
      .ok (Gcp.gcpIAMWithUsage .basic Gcp.ciProject Gcp.ciLog) := by rfl
    obtain rfl := Except.ok.inj (hval.symm.trans hids)
    refine ⟨g, rfl, hkept _ List.mem_cons_self
      (Gcp.grantOf .basic Gcp.ciLog "gcp:ci@p" "roles/storage.objectViewer") ?_ ?_⟩
    · decide +kernel
    · decide +kernel

end Idryx.Cmd
