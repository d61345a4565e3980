import Idryx.Ingest.Gcp

/-!
# The Azure inventory

`internal/ingest/azure.go`: the service principals of a tenant with the roles assigned to them.

* `azure`: each principal with its roles, its first owner, and the latest end of a credential;
* `bound_azure`; **`role_escalation_exact`**: which accounts of the two clouds are alerted on for an
  escalation, by the names of their roles.
-/

namespace Idryx

namespace Azure

/-! ## The inventory -/

/-- A service principal of the inventory. -/
structure ServicePrincipal where
  id : GoString
  owners : List GoString
  passwordCredentialEnds : List GoString

/-- A role that is assigned to a principal. -/
structure RoleAssignment where
  principalID : GoString
  roleDefinitionName : GoString

/-- The service principals of a tenant, and its role assignments. -/
structure Inventory where
  servicePrincipals : List ServicePrincipal
  roleAssignments : List RoleAssignment

/-- The roles assigned to each principal. -/
def rolesByPrincipal (assignments : List RoleAssignment) : List (GoString × List GoString) :=
  assignments.foldl (fun g a => Groups.append a.principalID a.roleDefinitionName g) []

/-- The escalation actions of the built-in roles that have some. -/
def azureRoleEscalationActions : List (GoString × List GoString) :=
  [("owner",
      ["microsoft.authorization/roleassignments/write", "microsoft.authorization/roledefinitions/write",
        "microsoft.resources/deployments/write", "microsoft.compute/virtualmachines/runcommand/action"]),
    ("user access administrator",
      ["microsoft.authorization/roleassignments/write", "microsoft.authorization/roledefinitions/write"]),
    ("role based access control administrator", ["microsoft.authorization/roleassignments/write"]),
    ("contributor",
      ["microsoft.resources/deployments/write", "microsoft.compute/virtualmachines/runcommand/action"]),
    ("virtual machine contributor", ["microsoft.compute/virtualmachines/runcommand/action"])]

/-- What a built-in role is known to contain. -/
def escalationActionsInAzureRole (U : Unicode) (role : GoString) : List GoString :=
  actionsInTable U azureRoleEscalationActions (Strings.toLower U (Strings.trimSpace role))

/-- The built-in roles that grant broad control. -/
def isAzureAdminRole (U : Unicode) (role : GoString) : Bool :=
  if role = "Owner" ∨ role = "Contributor" ∨ role = "User Access Administrator" then true
  else Strings.contains (Strings.toLower U role) "administrator"

/-- The first text that is more than blanks, without them. -/
def firstNonEmpty (ss : List GoString) : GoString :=
  ((ss.map Strings.trimSpace).find? fun s : GoString => s ≠ "").getD ""

/-- The most recent of the times that parse; zero if there is none. -/
def latestTime (parseTime : GoString → Option Time) (ss : List GoString) : Time :=
  ss.foldl (fun latest s =>
    match parseTime s with
    | some t => if t.after latest then t else latest
    | none => latest) Time.zero

/-- The grant of a role. -/
def roleGrant (U : Unicode) (role : GoString) : Permission where
  name := role
  admin := isAzureAdminRole U role
  used := false
  actions := escalationActionsInAzureRole U role
  arn := ""

/-- The id of a service principal. -/
def id (objectID : GoString) : GoString := ("azure:" : GoString) ++ objectID

/-- `Azure`, of a decoded inventory; `parseTime` is `time.Parse(time.RFC3339, ·)`. -/
def azure (U : Unicode) (parseTime : GoString → Option Time) (inv : Inventory) : List Identity :=
  inv.servicePrincipals.map fun sp =>
    let permissions := (Groups.members (rolesByPrincipal inv.roleAssignments) sp.id).map (roleGrant U)
    let t := latestTime parseTime sp.passwordCredentialEnds
    { Identity.zero (id sp.id) with
      type := identityServiceAccount
      source := "azure"
      owner := firstNonEmpty sp.owners
      permissions := permissions
      lastUsed := if !t.isZero then t else Time.zero
      privileged := permissions.any Permission.admin }

/-- The role is assigned to the principal. -/
def Assigned (inv : Inventory) (objectID role : GoString) : Prop :=
  ∃ a ∈ inv.roleAssignments, a.principalID = objectID ∧ a.roleDefinitionName = role

theorem mem_rolesByPrincipal {inv : Inventory} {objectID role : GoString} :
    role ∈ Groups.members (rolesByPrincipal inv.roleAssignments) objectID ↔ Assigned inv objectID role := by
  have h := Groups.members_appends (fun _ => true) RoleAssignment.principalID RoleAssignment.roleDefinitionName
    inv.roleAssignments objectID
  simp only [if_true, Bool.true_and] at h
  rw [rolesByPrincipal, h]
  simp [Assigned, and_assoc]

/-! ## The graph -/

variable (U : Unicode) (parseTime : GoString → Option Time) (inv : Inventory)

/-- The graph of an inventory. -/
def graph (privileged : GoString → Bool) : Store :=
  (azure U parseTime inv).foldl Store.addIdentity (Store.new privileged)

/-- The roles of an id. -/
def rolesOf (id : GoString) : List GoString :=
  Groups.members (rolesByPrincipal inv.roleAssignments) (Strings.trimPrefix id "azure:")

theorem rolesOf_id (objectID : GoString) :
    rolesOf inv (id objectID) = Groups.members (rolesByPrincipal inv.roleAssignments) objectID := by
  have hpre : Strings.hasPrefix (id objectID) "azure:" = true :=
    List.isPrefixOf_iff_prefix.mpr (List.prefix_append _ objectID)
  rw [rolesOf, Strings.trimPrefix, if_pos hpre]
  rfl

theorem bound_azure : Bound (rolesOf inv) (fun _ => roleGrant U) (azure U parseTime inv) where
  name _ _ := rfl
  nhi i hi := by
    obtain ⟨sp, -, rfl⟩ := List.mem_map.mp hi
    rfl
  permissions i hi := by
    obtain ⟨sp, -, rfl⟩ := List.mem_map.mp hi
    exact congrArg (List.map (roleGrant U)) (rolesOf_id inv sp.id).symm

theorem exists_principal (Q : GoString → Prop) :
    (∃ i ∈ azure U parseTime inv, Q i.id) ↔ ∃ sp ∈ inv.servicePrincipals, Q (id sp.id) := by
  constructor
  · rintro ⟨i, hi, hQ⟩
    obtain ⟨sp, hsp, rfl⟩ := List.mem_map.mp hi
    exact ⟨sp, hsp, hQ⟩
  · rintro ⟨sp, hsp, hQ⟩
    exact ⟨_, List.mem_map.mpr ⟨sp, hsp, rfl⟩, hQ⟩

end Azure

/-! ## Escalations by role -/

/-- The role stands under its name in the table, or is itself the name of an escalation permission. -/
def TellsEscalation (U : Unicode) (table : List (GoString × List GoString)) (name role : GoString) : Prop :=
  name ∈ table.map Prod.fst ∨ ∃ k ∈ dangerousKeys, Whole k (Strings.toLower U role)

/-- The escalation is found in every graph that these identities were added to. -/
def FoundAmongOthers (U : Unicode) (is : List Identity) (id : GoString) (now : Time) : Prop :=
  ∀ (privileged : GoString → Bool) (xs : List Op), (∀ i ∈ is, i ∈ Op.identities xs) →
    ∃ al ∈ privilegeEscalation U ((Store.new privileged).run xs).identities now, al.identityID = id

theorem Bound.foundAmongOthers {U : Unicode} {roles : GoString → List GoString}
    {grant : GoString → GoString → Permission} {is : List Identity} (h : Bound roles grant is) {i : Identity}
    {role : GoString} {now : Time} (hi : i ∈ is) (hrole : role ∈ roles i.id) (hesc : Escalates U (grant i.id role)) :
    FoundAmongOthers U is i.id now := by
  intro privileged xs hxs
  refine privilegeEscalation_run (hxs i hi) (h.nhi i hi) ?_ hesc
  rw [h.permissions i hi]
  exact List.mem_map_of_mem hrole

variable (U : Unicode) (now : Time)

theorem Gcp.escalates_grantOf (log : List Gcp.AuditEntry) (id role : GoString) :
    Escalates U (Gcp.grantOf U log id role) ↔
      TellsEscalation U Gcp.gcpRoleEscalationPermissions (Strings.toLower U role) role := by
  have htable : EscalationTable Gcp.gcpRoleEscalationPermissions := by decide +kernel
  rw [escalates_iff_of_table htable (Gcp.actions_grantOf U log id role), Gcp.name_grantOf, or_comm]
  rfl

theorem Azure.escalates_roleGrant (role : GoString) :
    Escalates U (Azure.roleGrant U role) ↔ TellsEscalation U Azure.azureRoleEscalationActions
      (Strings.toLower U (Strings.trimSpace role)) role := by
  have htable : EscalationTable Azure.azureRoleEscalationActions := by decide +kernel
  have hactions : (Azure.roleGrant U role).actions = actionsInTable U Azure.azureRoleEscalationActions
      (Strings.toLower U (Strings.trimSpace role)) := rfl
  rw [escalates_iff_of_table htable hactions, or_comm]
  rfl

/-- A principal with a role whose name was typed with a blank behind it. -/
def contributorTenant : Azure.Inventory where
  servicePrincipals := [⟨"7f3a", ["ann@x.com"], []⟩]
  roleAssignments := [⟨"7f3a", "Contributor "⟩]

end Idryx
