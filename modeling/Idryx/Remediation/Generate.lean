import Idryx.Detect.LeastPrivilege

/-!
# Right-sizing

`internal/remediation/remediate.go`: the change proposed for an identity with grants it never exercised.

* `Recommendation`, `generate`, and the text for each source;
* **`generate_eq_some`**: when there is a recommendation, and for which grants.
-/

namespace Idryx.Remediation

/-- What is to be changed for an identity, and why. -/
structure Recommendation where
  identityID : GoString
  kind : GoString
  explanation : GoString
  code : GoString

/-! ## The text for each source -/

/-- `s` after the last `/`, or else after the last `:`. -/
def roleName (s : GoString) : GoString :=
  match Strings.lastIndexByte s 0x2F with
  | some i => s.drop (i + 1)
  | none =>
    match Strings.lastIndexByte s 0x3A with
    | some i => s.drop (i + 1)
    | none => s

/-- `fmt.Sprintf("revoke_unused_%d", i)`. -/
def resName (i : Nat) : GoString := "revoke_unused_" ++ Strconv.itoa i

/-- The ARN the grant carries, or else one made of its name. -/
def policyARN (p : Permission) : GoString :=
  if p.arn = "" then
    if !Strings.hasPrefix p.name "arn:" then "arn:aws:iam::aws:policy/" ++ p.name else p.name
  else p.arn

/-- The stanzas of the grants, numbered from zero. -/
def stanzas (stanza : Nat → Permission → GoString) (unused : List Permission) : GoString :=
  (unused.mapIdx stanza).flatten

/-- The Terraform that takes policies from a role. -/
def generateAWS (id : Identity) (unused : List Permission) : GoString :=
  Strings.trimSpace <|
    "# AWS IAM Least-Privilege Remediation\n" ++
      "# Revoke unused policy attachments from the IAM role\n\n" ++
      stanzas (fun i p =>
        "- resource \"aws_iam_role_policy_attachment\" \"" ++ resName i ++ "\" \x7b\n" ++
          "-   role       = \"" ++ roleName id.id ++ "\"\n" ++
          "-   policy_arn = \"" ++ policyARN p ++ "\"\n" ++ "- \x7d\n\n") unused

/-- The Terraform that takes roles from a service account. -/
def generateGCP (U : Unicode) (id : Identity) (unused : List Permission) : GoString :=
  Strings.trimSpace <|
    "# GCP IAM Least-Privilege Remediation\n" ++
      "# Remove unused role bindings from the Service Account\n\n" ++
      stanzas (fun i p =>
        let role := if !Strings.hasPrefix p.name "roles/" then
          ("roles/" : GoString) ++ Strings.toLower U p.name else p.name
        "- resource \"google_project_iam_member\" \"" ++ resName i ++ "\" \x7b\n" ++
          "-   project = \"my-gcp-project\"\n" ++ "-   role    = \"" ++ role ++ "\"\n" ++
          "-   member  = \"serviceAccount:" ++ Strings.trimPrefix id.id "gcp:" ++ "\"\n" ++
          "- \x7d\n\n") unused

/-- The Terraform that takes roles from a service principal. -/
def generateAzure (id : Identity) (unused : List Permission) : GoString :=
  let spName := match Strings.index id.id "@" with
    | some i => id.id.take i
    | none => id.id
  Strings.trimSpace <|
    "# Azure RBAC Least-Privilege Remediation\n" ++
      "# Revoke unused role assignments from the Service Principal\n\n" ++
      stanzas (fun i p =>
        "- resource \"azurerm_role_assignment\" \"" ++ resName i ++ "\" \x7b\n" ++
          "-   scope                = \"/subscriptions/00000000-0000-0000-0000-000000000000\"\n" ++
          "-   role_definition_name = \"" ++ p.name ++ "\"\n" ++
          "-   principal_id         = \"" ++ spName ++ "-object-id\"\n" ++ "- \x7d\n\n") unused

/-- The line of a tool in the list of an agent. -/
def keptTool (p : Permission) : GoString := "    - \"" ++ p.name ++ "\"\n"

@[inherit_doc keptTool]
def revokedTool (p : Permission) : GoString := "-   - \"" ++ p.name ++ "\"\n"

/-- The tools kept are written first, then those revoked. -/
def generateAgent (id : Identity) (unused : List Permission) : GoString :=
  Strings.trimSpace <|
    "# AI Agent MCP Configuration Remediation\n" ++
      "# Revoke unused tools from the agent's tool declaration list\n\n" ++ "  tools:\n" ++
      (id.permissions.filter Permission.used).flatMap keptTool ++ unused.flatMap revokedTool

/-- The line of a grant where the source is another. -/
def revokedLine (p : Permission) : GoString := "- " ++ p.name ++ "\n"

/-- The list of the grants to revoke. -/
def generateGeneric (id : Identity) (unused : List Permission) : GoString :=
  Strings.trimSpace <|
    "# Generic Remediation for " ++ id.id ++ " (" ++ id.source ++ ")\n" ++
      "# Revoke the following unused capabilities:\n\n" ++
      unused.flatMap revokedLine

/-- The switch over the source. -/
def remediationCode (U : Unicode) (id : Identity) (unused : List Permission) : GoString :=
  if id.source = "aws_iam" then generateAWS id unused
  else if id.source = "gcp_iam" then generateGCP U id unused
  else if id.source = "azure" then generateAzure id unused
  else if id.source = "agents" then generateAgent id unused
  else generateGeneric id unused

/-- Why the grants are to be revoked. -/
def explanation (unused granted : Nat) : GoString :=
  Strconv.itoa unused ++ " of " ++ Strconv.itoa granted ++
    " granted permissions have never been exercised by this identity. We recommend revoking these unused capabilities to enforce least-privilege."

/-! ## Generating -/

/-- One turn of the loop over the permissions: those unused so far, and whether one was used. -/
def sortOut (st : List Permission × Bool) (p : Permission) : List Permission × Bool :=
  if p.used then (st.1, true) else (st.1 ++ [p], st.2)

/-- `Generate`: nothing is recommended without unused grants, or without a grant that is known to be used. -/
def generate (U : Unicode) (id : Identity) : Option Recommendation :=
  if id.permissions.isEmpty then none
  else
    let (unused, hasUsage) := id.permissions.foldl sortOut ([], false)
    if !hasUsage || unused.isEmpty then none
    else some
      { identityID := id.id
        kind := "right_size"
        explanation := explanation unused.length id.permissions.length
        code := remediationCode U id unused }

theorem foldl_sortOut (ps : List Permission) (st : List Permission × Bool) : ps.foldl sortOut st =
    (st.1 ++ ps.filter (fun p => !p.used), st.2 || ps.any Permission.used) := by
  induction ps generalizing st with
  | nil => simp
  | cons p ps ih =>
    rw [List.foldl_cons, ih]
    unfold sortOut
    cases hp : p.used <;> simp [hp]

/-- **The recommendations**: to an identity with grants of both kinds, about those not marked used. -/
theorem generate_eq_some {U : Unicode} {i : Identity} {r : Recommendation} :
    generate U i = some r ↔ (∃ p ∈ i.permissions, p.used = true) ∧ i.unused ≠ [] ∧
      r = ⟨i.id, "right_size", explanation i.unused.length i.permissions.length,
        remediationCode U i i.unused⟩ := by
  have hloop : i.permissions.foldl sortOut ([], false) =
      (i.unused, i.permissions.any Permission.used) := foldl_sortOut i.permissions ([], false)
  rw [generate, hloop]
  exact Identity.bothKinds_eq_some

end Idryx.Remediation
