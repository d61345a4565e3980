import Idryx.Ingest.Roles
import Idryx.Aws.Usage

/-!
# The GCP inventory

`internal/ingest/gcpiam.go`: the service accounts of a project with the roles its policy binds to them,
and the audit log that tells which of these were used.

* `rolesByEmail`; **`mem_rolesByEmail`**: the roles under an email are those bound to it;
* `gcpIAM`, `gcpAuditUsage`, `gcpIAMWithUsage`; `bound_gcpIAM`, `bound_gcpIAMWithUsage`;
* `Governs`, `Exercised`; **`used_markRole`**: a role is marked used if the log shows its account
  calling a service it governs;
* **`gcp_leastPrivilege_exact`**: the roles that are asked back are those the log never shows.
-/

namespace Idryx

namespace Strings

/-- `strings.CutPrefix`. -/
def cutPrefix (s p : GoString) : Option GoString :=
  if hasPrefix s p then some (s.drop p.length) else none

theorem cutPrefix_eq_some {s p t : GoString} : cutPrefix s p = some t ↔ s = p ++ t := by
  unfold cutPrefix hasPrefix
  split_ifs with h
  · obtain ⟨u, rfl⟩ := List.isPrefixOf_iff_prefix.mp h
    rw [List.drop_left, Option.some.injEq, List.append_cancel_left_eq]
  · simp only [false_iff]
    rintro rfl
    exact h (List.isPrefixOf_iff_prefix.mpr (List.prefix_append p t))

end Strings

namespace Gcp

/-! ## The inventory -/

/-- A service account of the inventory. -/
structure ServiceAccount where
  email : GoString
  displayName : GoString

/-- A role and the members it is bound to. -/
structure Binding where
  role : GoString
  members : List GoString

/-- The service accounts of a project, and the bindings of its policy. -/
structure Inventory where
  serviceAccounts : List ServiceAccount
  bindings : List Binding

/-- One turn of the loop over the members of a binding. -/
def addMember (role : GoString) (g : List (GoString × List GoString)) (m : GoString) :
    List (GoString × List GoString) :=
  match Strings.cutPrefix m "serviceAccount:" with
  | none => g
  | some email => Groups.append email role g

/-- The roles granted to each email. -/
def rolesByEmail (bindings : List Binding) : List (GoString × List GoString) :=
  bindings.foldl (fun g b => b.members.foldl (addMember b.role) g) []

/-- The escalation permissions of the roles that have some. -/
def gcpRoleEscalationPermissions : List (GoString × List GoString) :=
  [("roles/owner",
      ["iam.serviceaccounts.actas", "iam.serviceaccounts.getaccesstoken",
        "iam.serviceaccounts.getopenidtoken", "iam.serviceaccounts.implicitdelegation",
        "iam.serviceaccounts.signblob", "iam.serviceaccounts.signjwt",
        "iam.serviceaccounts.setiampolicy", "iam.serviceaccountkeys.create"]),
    ("roles/editor", ["iam.serviceaccounts.actas", "iam.serviceaccountkeys.create"]),
    ("roles/iam.serviceaccountuser", ["iam.serviceaccounts.actas"]),
    ("roles/iam.serviceaccounttokencreator",
      ["iam.serviceaccounts.getaccesstoken", "iam.serviceaccounts.getopenidtoken",
        "iam.serviceaccounts.implicitdelegation", "iam.serviceaccounts.signblob",
        "iam.serviceaccounts.signjwt"]),
    ("roles/iam.serviceaccountkeyadmin", ["iam.serviceaccountkeys.create"]),
    ("roles/iam.serviceaccountadmin", ["iam.serviceaccounts.setiampolicy"]),
    ("roles/iam.workloadidentityuser",
      ["iam.serviceaccounts.getaccesstoken", "iam.serviceaccounts.getopenidtoken"])]

/-- What a role is known to contain. -/
def escalationPermissionsInRole (U : Unicode) (role : GoString) : List GoString :=
  actionsInTable U gcpRoleEscalationPermissions (Strings.toLower U role)

/-- The primitive roles with broad standing privilege, and the admin roles. -/
def isAdminRole (U : Unicode) (role : GoString) : Bool :=
  if role = "roles/owner" ∨ role = "roles/editor" then true
  else Strings.hasSuffix (Strings.toLower U role) "admin"

/-- The owner a display name tells by convention. -/
def ownerFromDisplayName (U : Unicode) (name : GoString) : GoString :=
  let lower := Strings.toLower U name
  let rest := (["owner:", "team:", "contact:"] : List GoString).findSome? (Strings.cutPrefix lower)
  (rest.map Strings.trimSpace).getD ""

/-- The grant of a role. -/
def roleGrant (U : Unicode) (role : GoString) : Permission where
  name := role
  admin := isAdminRole U role
  used := false
  actions := escalationPermissionsInRole U role
  arn := ""

/-- The id of a service account. -/
def id (email : GoString) : GoString := ("gcp:" : GoString) ++ email

/-- `GCPIAM`, of a decoded inventory. -/
def gcpIAM (U : Unicode) (inv : Inventory) : List Identity :=
  inv.serviceAccounts.map fun sa =>
    let permissions := (Groups.members (rolesByEmail inv.bindings) sa.email).map (roleGrant U)
    { Identity.zero (id sa.email) with
      type := identityServiceAccount
      source := "gcp_iam"
      owner := ownerFromDisplayName U sa.displayName
      permissions := permissions
      privileged := permissions.any Permission.admin }

/-- The role is bound to the account. -/
def Granted (inv : Inventory) (email role : GoString) : Prop :=
  ∃ b ∈ inv.bindings, b.role = role ∧ ("serviceAccount:" : GoString) ++ email ∈ b.members

/-- **The roles under an email** are those bound to it. -/
theorem mem_rolesByEmail {inv : Inventory} {email role : GoString} :
    role ∈ Groups.members (rolesByEmail inv.bindings) email ↔ Granted inv email role := by
  have hmember : ∀ (r : GoString) (g : List (GoString × List GoString)) (m : GoString),
      role ∈ Groups.members (addMember r g m) email ↔ role ∈ Groups.members g email ∨
        r = role ∧ m = ("serviceAccount:" : GoString) ++ email := by
    intro r g m
    unfold addMember
    cases hcut : Strings.cutPrefix m "serviceAccount:" with
    | none =>
      have hne : m ≠ ("serviceAccount:" : GoString) ++ email := by
        intro h
        rw [Strings.cutPrefix_eq_some.mpr h] at hcut
        cases hcut
      simp [hne]
    | some e =>
      rw [Strings.cutPrefix_eq_some] at hcut
      rw [Groups.members_append, hcut, List.append_cancel_left_eq]
      split_ifs with h
      · simp [h, eq_comm]
      · simp [Ne.symm h]
  have hbinding : ∀ (g : List (GoString × List GoString)) (b : Binding),
      role ∈ Groups.members (b.members.foldl (addMember b.role) g) email ↔
        role ∈ Groups.members g email ∨
          b.role = role ∧ ("serviceAccount:" : GoString) ++ email ∈ b.members := by
    intro g b
    rw [Loop.foldl_iff (P := fun g => role ∈ Groups.members g email) (hmember b.role)]
    simp only [exists_eq_right, and_left_comm, exists_and_left]
  unfold rolesByEmail Granted
  rw [Loop.foldl_iff (P := fun g => role ∈ Groups.members g email) hbinding]
  exact or_iff_right List.not_mem_nil

/-! ## The audit log -/

/-- What is read of an entry of the audit log. -/
structure AuditEntry where
  serviceName : GoString
  principalEmail : GoString

/-- One turn of the loop over the entries. -/
def addEntry (U : Unicode) (out : List (GoString × List GoString)) (e : AuditEntry) :
    List (GoString × List GoString) :=
  if e.principalEmail = "" ∨ e.serviceName = "" then out
  else Groups.insert (id e.principalEmail) (Aws.serviceFromEventSource U e.serviceName) out

/-- The services each account was seen calling. -/
def gcpAuditUsage (U : Unicode) (log : List AuditEntry) : List (GoString × List GoString) :=
  log.foldl (addEntry U) []

/-- The services a role governs; `*` for a primitive role. -/
def servicesFromRole (U : Unicode) (role : GoString) : List GoString :=
  let lower := Strings.toLower U role
  if lower = "roles/owner" ∨ lower = "roles/editor" ∨ lower = "roles/viewer" then ["*"]
  else
    let r := Strings.trimPrefix lower "roles/"
    match Strings.index r "." with
    | some i => if 0 < i then [r.take i] else []
    | none => []

/-- The loop over the services of a role. -/
def markRole (U : Unicode) (usedSvcs : List GoString) (p : Permission) : Permission :=
  if (servicesFromRole U p.name).any fun svc =>
      svc == "*" && decide (0 < usedSvcs.length) || usedSvcs.contains svc then
    { p with used := true }
  else p

/-- `GCPIAMWithUsage`, of a decoded inventory and a decoded log. -/
def gcpIAMWithUsage (U : Unicode) (inv : Inventory) (log : List AuditEntry) : List Identity :=
  let usage := gcpAuditUsage U log
  (gcpIAM U inv).map fun i => { i with permissions := i.permissions.map (markRole U (Groups.members usage i.id)) }

/-- The role governs the service. -/
def Governs (U : Unicode) (role svc : GoString) : Prop :=
  ∃ s ∈ servicesFromRole U role, s = "*" ∨ s = svc

instance (U : Unicode) (role svc : GoString) : Decidable (Governs U role svc) :=
  inferInstanceAs (Decidable (∃ s ∈ servicesFromRole U role, s = "*" ∨ s = svc))

/-- The log shows the account calling a service that the role governs. -/
def Exercised (U : Unicode) (log : List AuditEntry) (email role : GoString) : Prop :=
  ∃ e ∈ log, e.principalEmail = email ∧ email ≠ "" ∧ e.serviceName ≠ "" ∧
    Governs U role (Aws.serviceFromEventSource U e.serviceName)

instance (U : Unicode) (log : List AuditEntry) (email role : GoString) :
    Decidable (Exercised U log email role) :=
  inferInstanceAs (Decidable (∃ e ∈ log, e.principalEmail = email ∧ email ≠ "" ∧ e.serviceName ≠ "" ∧
    Governs U role (Aws.serviceFromEventSource U e.serviceName)))

theorem mem_gcpAuditUsage {U : Unicode} {log : List AuditEntry} {email svc : GoString} :
    svc ∈ Groups.members (gcpAuditUsage U log) (id email) ↔
      ∃ e ∈ log, e.principalEmail = email ∧ email ≠ "" ∧ e.serviceName ≠ "" ∧
        Aws.serviceFromEventSource U e.serviceName = svc := by
  have hstep : ∀ (out : List (GoString × List GoString)) (e : AuditEntry),
      svc ∈ Groups.members (addEntry U out e) (id email) ↔ svc ∈ Groups.members out (id email) ∨
        e.principalEmail = email ∧ email ≠ "" ∧ e.serviceName ≠ "" ∧
          Aws.serviceFromEventSource U e.serviceName = svc := by
    intro out e
    have hid : id email = id e.principalEmail ↔ e.principalEmail = email := by
      unfold id
      rw [List.append_cancel_left_eq, eq_comm]
    unfold addEntry
    split_ifs with hskip
    · grind
    · rw [Groups.mem_members_insert, hid]
      grind
  unfold gcpAuditUsage
  rw [Loop.foldl_iff (P := fun out => svc ∈ Groups.members out (id email)) hstep]
  exact or_iff_right List.not_mem_nil

/-- **What is marked**: the roles the log shows exercised. -/
theorem used_markRole {U : Unicode} {log : List AuditEntry} {email : GoString} {p : Permission}
    (hp : p.used = false) :
    (markRole U (Groups.members (gcpAuditUsage U log) (id email)) p).used = true ↔
      Exercised U log email p.name := by
  have hmark : (markRole U (Groups.members (gcpAuditUsage U log) (id email)) p).used = true ↔
      ∃ s ∈ servicesFromRole U p.name, ∃ svc ∈ Groups.members (gcpAuditUsage U log) (id email),
        s = "*" ∨ s = svc := by
    have hany : ∀ (s : GoString) (svcs : List GoString),
        (s == "*" && decide (0 < svcs.length) || svcs.contains s) = true ↔ ∃ svc ∈ svcs, s = "*" ∨ s = svc := by
      intro s svcs
      rw [Bool.or_eq_true, Bool.and_eq_true, beq_iff_eq, decide_eq_true_eq, List.length_pos_iff_exists_mem,
        List.contains_iff_mem]
      constructor
      · rintro (⟨rfl, svc, hsvc⟩ | hs)
        · exact ⟨svc, hsvc, Or.inl rfl⟩
        · exact ⟨s, hs, Or.inr rfl⟩
      · rintro ⟨svc, hsvc, rfl | rfl⟩
        · exact Or.inl ⟨rfl, svc, hsvc⟩
        · exact Or.inr hsvc
    unfold markRole
    split_ifs with h
    · obtain ⟨s, hs, h⟩ := List.any_eq_true.mp h
      exact iff_of_true rfl ⟨s, hs, (hany s _).mp h⟩
    · rw [hp]
      refine iff_of_false Bool.false_ne_true ?_
      rintro ⟨s, hs, hsvc⟩
      exact h (List.any_eq_true.mpr ⟨s, hs, (hany s _).mpr hsvc⟩)
  rw [hmark]
  unfold Exercised Governs
  constructor
  · rintro ⟨s, hs, svc, hsvc, h⟩
    obtain ⟨e, he, hemail, hne, hname, rfl⟩ := mem_gcpAuditUsage.mp hsvc
    exact ⟨e, he, hemail, hne, hname, s, hs, h⟩
  · rintro ⟨e, he, hemail, hne, hname, s, hs, h⟩
    exact ⟨s, hs, _, mem_gcpAuditUsage.mpr ⟨e, he, hemail, hne, hname, rfl⟩, h⟩

/-! ## The graph -/

/-- The roles of an account, each once. -/
def granted (inv : Inventory) (email : GoString) : List GoString :=
  distinct (Groups.members (rolesByEmail inv.bindings) email)

/-- Those of them the log never shows. -/
def idle (U : Unicode) (inv : Inventory) (log : List AuditEntry) (email : GoString) : List GoString :=
  (granted inv email).filter fun role => ¬ Exercised U log email role

theorem mem_granted {inv : Inventory} {email role : GoString} :
    role ∈ granted inv email ↔ Granted inv email role := mem_distinct.trans mem_rolesByEmail

/-- The graph of an inventory and its log. -/
def graph (U : Unicode) (privileged : GoString → Bool) (inv : Inventory) (log : List AuditEntry) : Store :=
  (gcpIAMWithUsage U inv log).foldl Store.addIdentity (Store.new privileged)

variable (U : Unicode) (inv : Inventory) (log : List AuditEntry)

/-- The roles of an id. -/
def rolesOf (id : GoString) : List GoString :=
  Groups.members (rolesByEmail inv.bindings) (Strings.trimPrefix id "gcp:")

/-- The grant of a role to an id. -/
def grantOf (id role : GoString) : Permission :=
  markRole U (Groups.members (gcpAuditUsage U log) id) (roleGrant U role)

@[simp] theorem rolesOf_id (email : GoString) :
    rolesOf inv (id email) = Groups.members (rolesByEmail inv.bindings) email := by
  have hpre : Strings.hasPrefix (id email) "gcp:" = true :=
    List.isPrefixOf_iff_prefix.mpr (List.prefix_append _ email)
  rw [rolesOf, Strings.trimPrefix, if_pos hpre]
  rfl

theorem mem_gcpIAMWithUsage {i : Identity} : i ∈ gcpIAMWithUsage U inv log ↔
    ∃ sa ∈ inv.serviceAccounts, i =
      { Identity.zero (id sa.email) with
        type := identityServiceAccount
        source := "gcp_iam"
        owner := ownerFromDisplayName U sa.displayName
        permissions := (rolesOf inv (id sa.email)).map (grantOf U log (id sa.email))
        privileged := (rolesOf inv (id sa.email)).any (isAdminRole U) } := by
  unfold gcpIAMWithUsage gcpIAM
  simp only [List.mem_map, rolesOf_id]
  constructor
  · rintro ⟨-, ⟨sa, hsa, rfl⟩, rfl⟩
    refine ⟨sa, hsa, ?_⟩
    rw [List.map_map, List.any_map]
    rfl
  · rintro ⟨sa, hsa, rfl⟩
    refine ⟨_, ⟨sa, hsa, rfl⟩, ?_⟩
    rw [List.map_map, List.any_map]
    rfl

theorem exists_account (Q : GoString → Prop) :
    (∃ i ∈ gcpIAMWithUsage U inv log, Q i.id) ↔ ∃ sa ∈ inv.serviceAccounts, Q (id sa.email) := by
  constructor
  · rintro ⟨i, hi, hQ⟩
    obtain ⟨sa, hsa, rfl⟩ := (mem_gcpIAMWithUsage U inv log).mp hi
    exact ⟨sa, hsa, hQ⟩
  · rintro ⟨sa, hsa, hQ⟩
    exact ⟨_, (mem_gcpIAMWithUsage U inv log).mpr ⟨sa, hsa, rfl⟩, hQ⟩

@[simp] theorem name_grantOf (id role : GoString) : (grantOf U log id role).name = role := by
  unfold grantOf markRole
  split_ifs <;> rfl

@[simp] theorem admin_grantOf (id role : GoString) : (grantOf U log id role).admin = isAdminRole U role := by
  unfold grantOf markRole
  split_ifs <;> rfl

@[simp] theorem actions_grantOf (id role : GoString) :
    (grantOf U log id role).actions = escalationPermissionsInRole U role := by
  unfold grantOf markRole
  split_ifs <;> rfl

theorem used_grantOf (email role : GoString) :
    (grantOf U log (id email) role).used = decide (Exercised U log email role) :=
  Bool.eq_iff_iff.mpr ((used_markRole (p := roleGrant U role) rfl).trans (decide_eq_true_iff).symm)

theorem bound_gcpIAMWithUsage : Bound (rolesOf inv) (grantOf U log) (gcpIAMWithUsage U inv log) where
  name := name_grantOf U log
  nhi i hi := by
    obtain ⟨sa, -, rfl⟩ := (mem_gcpIAMWithUsage U inv log).mp hi
    rfl
  permissions i hi := by
    obtain ⟨sa, -, rfl⟩ := (mem_gcpIAMWithUsage U inv log).mp hi
    rfl

/-- **What is asked back of a project.** In the graph of an inventory and its audit log an account is
alerted on if it has a role the log shows and one it never shows, and the alert lists exactly the latter;
and whatever else the graph is made of, a role the log shows is not listed. -/
theorem gcp_leastPrivilege_exact (privileged : GoString → Bool) (now : Time) :
    (∀ al, al ∈ leastPrivilege (graph U privileged inv log).identities now ↔
      ∃ sa ∈ inv.serviceAccounts,
        (∃ role, Granted inv sa.email role ∧ Exercised U log sa.email role) ∧
        (∃ role, Granted inv sa.email role ∧ ¬ Exercised U log sa.email role) ∧
        al =
          { detector := "least_privilege"
            identityID := id sa.email
            severity := if (idle U inv log sa.email).any (isAdminRole U) then .high else .medium
            time := now
            summary := leastPrivilegeSummary (idle U inv log sa.email) (granted inv sa.email).length }) ∧
    (∀ email, (granted inv email).Nodup ∧ (∀ role, role ∈ granted inv email ↔ Granted inv email role)) ∧
    ∀ i ∈ gcpIAMWithUsage U inv log, ∀ p ∈ i.permissions, ∀ email, i.id = id email →
      Exercised U log email p.name → Aws.Kept U i p := by
  refine ⟨fun al => ?_, fun email => ⟨nodup_distinct _, fun role => mem_granted⟩, ?_⟩
  · unfold graph
    have hroles : ∀ email role, role ∈ rolesOf inv (id email) ↔ Granted inv email role := by
      intro email role
      rw [rolesOf_id, mem_rolesByEmail]
    have hidle : ∀ email, ((distinct (rolesOf inv (id email))).filter
        fun role => !(grantOf U log (id email) role).used) = idle U inv log email := by
      intro email
      simp only [idle, granted, rolesOf_id, used_grantOf, decide_not]
    have hadmin : ∀ email, (∃ role ∈ rolesOf inv (id email), (grantOf U log (id email) role).used = false ∧
        (grantOf U log (id email) role).admin = true) ↔ (idle U inv log email).any (isAdminRole U) = true := by
      intro email
      rw [← hidle]
      simp [mem_distinct]
    have halert : ∀ email, Bound.leastPrivilegeAlert (rolesOf inv) (grantOf U log) now (id email) =
        { detector := "least_privilege"
          identityID := id email
          severity := if (idle U inv log email).any (isAdminRole U) then .high else .medium
          time := now
          summary := leastPrivilegeSummary (idle U inv log email) (granted inv email).length } := by
      intro email
      unfold Bound.leastPrivilegeAlert
      rw [hidle, rolesOf_id]
      simp only [← rolesOf_id, hadmin]
      rfl
    refine (bound_gcpIAMWithUsage U inv log).mem_leastPrivilege_iff.trans ?_
    refine (exists_account U inv log fun id => (∃ role ∈ rolesOf inv id, (grantOf U log id role).used = true) ∧
      (∃ role ∈ rolesOf inv id, (grantOf U log id role).used = false) ∧
      al = Bound.leastPrivilegeAlert (rolesOf inv) (grantOf U log) now id).trans ?_
    simp only [halert, hroles, used_grantOf, decide_eq_true_eq, decide_eq_false_iff_not]
  · intro i hi p hp email hid hex
    refine Aws.kept_of_used hp ?_
    rw [(bound_gcpIAMWithUsage U inv log).permissions i hi] at hp
    obtain ⟨role, hrole, rfl⟩ := List.mem_map.mp hp
    rw [name_grantOf] at hex
    rw [hid, used_grantOf]
    exact decide_eq_true hex

/-- A build account with two roles, of which the log shows one. -/
def ciProject : Inventory where
  serviceAccounts := [⟨"ci@p", "team: build"⟩]
  bindings := [⟨"roles/storage.objectViewer", ["user:ann@p", "serviceAccount:ci@p"]⟩,
    ⟨"roles/compute.admin", ["serviceAccount:ci@p"]⟩]

@[inherit_doc ciProject]
def ciLog : List AuditEntry := [⟨"storage.googleapis.com", "ci@p"⟩]

theorem gcp_leastPrivilege_ci :
    (∃ al ∈ leastPrivilege (graph .basic (fun _ => false) ciProject ciLog).identities Time.zero,
      al.identityID = "gcp:ci@p" ∧ al.severity = .high ∧
        al.summary = "1/2 granted permissions unused, recommend revoking: roles/compute.admin") ∧
      ∀ i ∈ gcpIAMWithUsage .basic ciProject ciLog, ∀ p ∈ i.permissions,
        p.name = "roles/storage.objectViewer" → Aws.Kept .basic i p := by
  obtain ⟨halerts, -, hkept⟩ := gcp_leastPrivilege_exact .basic ciProject ciLog (fun _ => false) Time.zero
  constructor
  · refine ⟨_, (halerts _).mpr ⟨⟨"ci@p", "team: build"⟩, List.mem_singleton.mpr rfl, ?_, ?_, rfl⟩, rfl, ?_, ?_⟩
    · exact ⟨"roles/storage.objectViewer", mem_granted.mp (by decide +kernel), by decide +kernel⟩
    · exact ⟨"roles/compute.admin", mem_granted.mp (by decide +kernel), by decide +kernel⟩
    · decide +kernel
    · decide +kernel
  · intro i hi p hp hname
    obtain ⟨sa, hsa, rfl⟩ := (mem_gcpIAMWithUsage _ _ _).mp hi
    obtain rfl := List.mem_singleton.mp hsa
    refine hkept _ hi p hp "ci@p" rfl ?_
    rw [hname]
    decide +kernel

end Gcp

end Idryx
