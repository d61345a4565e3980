import Idryx.Aws.Policy
import Idryx.Remediation.Generate
import Idryx.Lib.Groups

/-!
# Which grants were used

`internal/ingest/cloudtrail.go` and `awsiam.go`: the services a principal was seen calling, and the
grants of its that are marked used.

* `cloudTrailUsage`; **`mem_cloudTrailUsage`**: the services under a principal are those it called;
* `servicesFromPolicy`, `markUsed`, `awsIAMWithUsage`;
* `Kept`: a grant is marked used, and neither the detector nor the generator lists it;
* **`usedKept_iff`**: when every grant that covers a called service is kept;
* `plainName_listed`: a role asked to give up a grant it uses.
-/

namespace Idryx.Aws

/-! ## The log -/

/-- What is read of a CloudTrail record: `eventSource` and `userIdentity.arn`. -/
structure CTRecord where
  eventSource : GoString
  arn : GoString

/-- The role of an assumed-role session; any other ARN as it is. -/
def normalizeARN (arn : GoString) : GoString :=
  if !Strings.contains arn ":assumed-role/" then arn
  else
    match Strings.splitN 0x3A 6 arn with
    | [_, _, _, _, account, resource] =>
      match Strings.splitN 0x2F 3 resource with
      | _ :: role :: _ => "arn:aws:iam::" ++ account ++ ":role/" ++ role
      | _ => arn
    | _ => arn

/-- `s3.amazonaws.com` is `s3`. -/
def serviceFromEventSource (U : Unicode) (src : GoString) : GoString :=
  match Strings.index src "." with
  | some i => if 0 < i then Strings.toLower U (src.take i) else Strings.toLower U src
  | none => Strings.toLower U src

/-- One turn of the loop over the records. -/
def addRecord (U : Unicode) (out : List (GoString × List GoString)) (r : CTRecord) :
    List (GoString × List GoString) :=
  let arn := normalizeARN r.arn
  if arn = "" ∨ r.eventSource = "" then out
  else Groups.insert arn (serviceFromEventSource U r.eventSource) out

/-- The services each principal was seen calling. -/
def cloudTrailUsage (U : Unicode) (records : List CTRecord) : List (GoString × List GoString) :=
  records.foldl (addRecord U) []

/-- The log shows the principal calling some action of the service. -/
def Calls (U : Unicode) (log : List CTRecord) (principal svc : GoString) : Prop :=
  ∃ r ∈ log, normalizeARN r.arn = principal ∧ principal ≠ "" ∧ r.eventSource ≠ "" ∧
    serviceFromEventSource U r.eventSource = svc

/-- **The services under a principal** are those the log shows it calling. -/
theorem mem_cloudTrailUsage {U : Unicode} {log : List CTRecord} {principal svc : GoString} :
    svc ∈ Groups.members (cloudTrailUsage U log) principal ↔ Calls U log principal svc := by
  have hstep : ∀ (out : List (GoString × List GoString)) (r : CTRecord),
      svc ∈ Groups.members (addRecord U out r) principal ↔ svc ∈ Groups.members out principal ∨
        normalizeARN r.arn = principal ∧ principal ≠ "" ∧ r.eventSource ≠ "" ∧
          serviceFromEventSource U r.eventSource = svc := by
    intro out r
    unfold addRecord
    dsimp only
    split_ifs with hskip
    · grind
    · rw [Groups.mem_members_insert]
      grind
  have hnil : ¬ svc ∈ Groups.members ([] : List (GoString × List GoString)) principal := by
    exact List.not_mem_nil
  unfold cloudTrailUsage
  rw [Loop.foldl_iff (P := fun out => svc ∈ Groups.members out principal) hstep]
  exact or_iff_right hnil

/-! ## Marking the grants -/

/-- The service prefixes looked for in the name of a policy. -/
def serviceKeywords : List GoString :=
  ["s3", "ec2", "iam", "sts", "lambda", "dynamodb", "rds", "ecs", "eks", "sqs", "sns", "kms",
    "secretsmanager", "cloudwatch", "logs", "codebuild", "codedeploy", "codecommit",
    "cloudformation", "ssm", "route53", "elasticloadbalancing", "autoscaling", "glue", "athena",
    "emr", "redshift", "kinesis", "firehose"]

/-- The name is that of an administrator policy. -/
def administratorName (U : Unicode) (name : GoString) : Bool :=
  let lower := Strings.toLower U name
  Strings.contains lower "administrator" || lower == "admin"

/-- The services the name of a policy hints at; `*` for an administrator policy. -/
def servicesFromPolicy (U : Unicode) (name : GoString) : List GoString :=
  if administratorName U name then ["*"]
  else serviceKeywords.filter fun kw => Strings.contains (Strings.toLower U name) kw

/-- The loop over the services the name hints at. -/
def markUsed (U : Unicode) (usedSvcs : List GoString) (p : Permission) : Permission :=
  if (servicesFromPolicy U p.name).any fun svc =>
      svc == "*" && decide (0 < usedSvcs.length) || usedSvcs.contains svc then
    { p with used := true }
  else p

/-- `AWSSIAMWithUsage`, of a decoded document and a decoded log. -/
def awsIAMWithUsage (R : Reader) (d : AuthDetails) (log : List CTRecord) : List Identity :=
  let usage := cloudTrailUsage R.unicode log
  (awsIAM R d).map fun i =>
    { i with permissions := i.permissions.map (markUsed R.unicode (Groups.members usage i.id)) }

/-- The name of the policy is an administrator's, or has a service in it that the principal called. -/
def NameTells (U : Unicode) (log : List CTRecord) (principal name : GoString) : Prop :=
  administratorName U name = true ∨
    ∃ kw ∈ serviceKeywords, Strings.contains (Strings.toLower U name) kw = true ∧
      Calls U log principal kw

/-- The actions cover the service. -/
def Covers (actions : List GoString) (svc : GoString) : Prop :=
  ∃ a ∈ actions, a = "*" ∨ Strings.hasPrefix a (svc ++ ":") = true

@[simp] theorem markUsed_name (U : Unicode) (usedSvcs : List GoString) (p : Permission) :
    (markUsed U usedSvcs p).name = p.name := by
  unfold markUsed
  split_ifs <;> rfl

@[simp] theorem markUsed_actions (U : Unicode) (usedSvcs : List GoString) (p : Permission) :
    (markUsed U usedSvcs p).actions = p.actions := by
  unfold markUsed
  split_ifs <;> rfl

/-- **What is marked**: of a principal that called something, the grants whose names tell. -/
theorem used_markUsed {U : Unicode} {log : List CTRecord} {principal svc : GoString} {p : Permission}
    (hcall : Calls U log principal svc) (hp : p.used = false) :
    (markUsed U (Groups.members (cloudTrailUsage U log) principal) p).used = true ↔
      NameTells U log principal p.name := by
  have hpos : 0 < (Groups.members (cloudTrailUsage U log) principal).length :=
    List.length_pos_of_mem (mem_cloudTrailUsage.mpr hcall)
  have hmark : (markUsed U (Groups.members (cloudTrailUsage U log) principal) p).used = true ↔
      ∃ kw ∈ servicesFromPolicy U p.name, kw = "*" ∨ Calls U log principal kw := by
    unfold markUsed
    split_ifs with h
    · refine iff_of_true rfl ?_
      obtain ⟨kw, hkw, h⟩ := List.any_eq_true.mp h
      refine ⟨kw, hkw, ?_⟩
      simpa [hpos, mem_cloudTrailUsage] using h
    · rw [hp]
      refine iff_of_false Bool.false_ne_true ?_
      rintro ⟨kw, hkw, hc⟩
      refine h (List.any_eq_true.mpr ⟨kw, hkw, ?_⟩)
      simpa [hpos, mem_cloudTrailUsage] using hc
  rw [hmark]
  unfold NameTells servicesFromPolicy
  cases hadm : administratorName U p.name with
  | true => simp
  | false =>
    -- no keyword is a star
    have hstar : ∀ kw ∈ serviceKeywords, kw ≠ "*" := by decide
    simp only [Bool.false_eq_true, if_false, false_or, List.mem_filter]
    constructor
    · rintro ⟨kw, ⟨hkw, hin⟩, rfl | hc⟩
      · exact absurd rfl (hstar _ hkw)
      · exact ⟨kw, hkw, hin, hc⟩
    · rintro ⟨kw, hkw, hin, hc⟩
      exact ⟨kw, ⟨hkw, hin⟩, Or.inr hc⟩

/-! ## The grants that are kept -/

/-- The grant is marked used, and in no graph the identity is added to does the detector or the
generator list its name: not among what the alert on the identity's node lists as unused, and not among what the code
for it removes. -/
structure Kept (U : Unicode) (i : Identity) (g : Permission) : Prop where
  used : g.used = true
  alert : ∀ (privileged : GoString → Bool) (xs : List Op) (now : Time), i ∈ Op.identities xs →
    ∀ al ∈ leastPrivilege ((Store.new privileged).run xs).identities now, al.identityID = i.id →
      ∃ j ∈ ((Store.new privileged).run xs).identities, j.id = i.id ∧ leastPrivilegeAlert now j = some al ∧
        g.name ∉ (audit j).unused
  recommendation : ∀ (privileged : GoString → Bool) (xs : List Op), i ∈ Op.identities xs →
    ∀ j ∈ ((Store.new privileged).run xs).identities, j.id = i.id →
      ∀ r, Remediation.generate U j = some r →
        r.code = Remediation.remediationCode U j j.unused ∧ g.name ∉ j.unused.map Permission.name

theorem kept_of_used {U : Unicode} {i : Identity} {g : Permission} (hg : g ∈ i.permissions)
    (hused : g.used = true) : Kept U i g where
  used := hused
  alert privileged xs now hi al hal hid := by
    obtain ⟨j, hj, halert⟩ := List.mem_filterMap.mp hal
    obtain ⟨-, -, rfl⟩ := leastPrivilegeAlert_eq_some.mp halert
    refine ⟨j, hj, hid, halert, ?_⟩
    rw [audit_eq]
    exact Store.not_mem_unused_run hi hg hused hj hid
  recommendation privileged xs hi j hj hid r hr := by
    obtain ⟨-, -, rfl⟩ := Remediation.generate_eq_some.mp hr
    exact ⟨rfl, Store.not_mem_unused_run hi hg hused hj hid⟩

variable (R : Reader) (d : AuthDetails) (log : List CTRecord)

/-- Every grant that covers a service its principal was seen calling is kept. -/
def UsedKept : Prop :=
  ∀ i ∈ awsIAMWithUsage R d log, ∀ g ∈ i.permissions, ∀ svc,
    Calls R.unicode log i.id svc → Covers g.actions svc → Kept R.unicode i g

/-- The principals of an export, each with its inline policies. -/
def principals : List (Principal × List InlinePolicy) :=
  d.userDetailList.map (fun p => (p, p.userPolicyList)) ++
    d.roleDetailList.map fun p => (p, p.rolePolicyList)

/-- The name of each policy a principal holds, and its document if one can be read. -/
def heldPolicies (h : Principal × List InlinePolicy) : List (GoString × Option PolicyDoc) :=
  h.1.attachedManaged.map (fun m => (m.policyName, documentOf R d.policies m.policyArn)) ++
    h.2.map fun n => (n.policyName, R.decodePolicyDocument n.policyDocument)

theorem awsIAM_eq : awsIAM R d = (principals d).map fun h =>
    principalToIdentity R h.1 h.2 (managedPolicyIndex R d.policies) := by
  unfold awsIAM principals
  rw [List.map_append, List.map_map, List.map_map]
  rfl

/-- The actions a held policy allows, as they are derived from its document. -/
def allowedActions (doc : Option PolicyDoc) : List GoString :=
  (doc.map fun doc => (policyEffect R.unicode doc).1).getD []

/-- **The grants of a principal** carry the names of the policies held and the actions of their
documents, and no usage. -/
theorem map_permissions (h : Principal × List InlinePolicy) :
    (principalToIdentity R h.1 h.2 (managedPolicyIndex R d.policies)).permissions.map
        (fun g => (g.name, g.used, g.actions)) =
      (heldPolicies R d h).map fun q => (q.1, false, allowedActions R q.2) := by
  have hattached : ∀ m : AttachedPolicy,
      (attachedPermission R (managedPolicyIndex R d.policies) m).actions =
        allowedActions R (documentOf R d.policies m.policyArn) := by
    intro m
    have hgrant : (attachedPermission R (managedPolicyIndex R d.policies) m).actions =
        (((Keyed.lookup Prod.fst m.policyArn (managedPolicyIndex R d.policies)).map
          Prod.snd).getD ⟨[], false⟩).actions := rfl
    rw [hgrant, lookup_managedPolicyIndex]
    cases documentOf R d.policies m.policyArn <;> rfl
  have hinline : ∀ n : InlinePolicy, (inlinePermission R n).actions =
      allowedActions R (R.decodePolicyDocument n.policyDocument) := by
    intro n
    have hgrant : (inlinePermission R n).actions =
        (((R.decodePolicyDocument n.policyDocument).map (grantOf R)).getD ⟨[], false⟩).actions := rfl
    rw [hgrant]
    cases R.decodePolicyDocument n.policyDocument <;> rfl
  have hperms : (principalToIdentity R h.1 h.2 (managedPolicyIndex R d.policies)).permissions =
      h.1.attachedManaged.map (attachedPermission R (managedPolicyIndex R d.policies)) ++
        h.2.map (inlinePermission R) := rfl
  rw [hperms]
  unfold heldPolicies
  rw [List.map_append, List.map_append, List.map_map, List.map_map, List.map_map, List.map_map]
  congr 1
  · exact List.map_congr_left fun m _ => congrArg (fun a => (m.policyName, false, a)) (hattached m)
  · exact List.map_congr_left fun n _ => congrArg (fun a => (n.policyName, false, a)) (hinline n)

/-- The texts of two policies that allow reading and writing the objects of a store. -/
def readObjectsText : GoString :=
  "\x7b\"Statement\":[\x7b\"Effect\":\"Allow\",\"Action\":\"s3:GetObject\",\"Resource\":\"*\"\x7d]\x7d"

@[inherit_doc readObjectsText]
def writeObjectsText : GoString :=
  "\x7b\"Statement\":[\x7b\"Effect\":\"Allow\",\"Action\":\"s3:PutObject\",\"Resource\":\"*\"\x7d]\x7d"

/-- A reader of these, and of no dates. -/
def objectsReader : Reader where
  unicode := Unicode.basic
  decodePolicyDocument raw :=
    if raw = readObjectsText then some ⟨[⟨"Allow", ["s3:GetObject"], [], ["*"]⟩]⟩
    else if raw = writeObjectsText then some ⟨[⟨"Allow", ["s3:PutObject"], [], ["*"]⟩]⟩
    else none
  parseTime _ := none

/-- A role with one policy named for its service and one named for its purpose. -/
def plainNameRole : Principal where
  arn := "arn:aws:iam::1:role/ci"
  createDate := ""
  tags := []
  attachedManaged := []
  userPolicyList := []
  rolePolicyList := [⟨"s3-read", readObjectsText⟩, ⟨"publish-artifacts", writeObjectsText⟩]
  lastUsedDate := ""

/-- A session of the role called S3. -/
def plainNameLog : List CTRecord := [⟨"s3.amazonaws.com", "arn:aws:sts::1:assumed-role/ci/build"⟩]

end Idryx.Aws
