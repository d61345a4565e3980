import Idryx.Remediation.Generate

/-!
# Rotation

`internal/remediation/remediate.go`: the credentials that are due for rotation.

* `Ages`: the age of a credential in days; `generateRotation`, and the text for each source;
* **`generateRotation_eq_some`**: when there is a recommendation, and which.
-/

namespace Idryx.Remediation

/-- 90 days, in nanoseconds. -/
def rotationMaxAge : Int := 90 * 24 * 3600 * 1000000000

/-- The same, in days. -/
def maxDays : ℕ := 90

/-- `int(age.Hours() / 24)` of an age in nanoseconds. -/
abbrev Ages : Type := Int → ℕ

/-! ## The text for each source -/

/-- What is behind the last slash. -/
def lastSegment (s : GoString) : GoString := roleName s

/-- `name` up to an `@`. -/
def beforeAt (name : GoString) : GoString :=
  match Strings.index name "@" with
  | some i => name.take i
  | none => name

/-- The text for a user of AWS. -/
def rotateAWS (U : Unicode) (id : Identity) : GoString :=
  let name := lastSegment id.id
  Strings.trimSpace <|
    "# AWS IAM Access Key Rotation\n" ++
      "# Replace the long-lived access key for IAM user " ++ Strconv.quote U name ++ ".\n" ++
      "# terraform taint aws_iam_access_key." ++ name ++ "   # force re-creation on next apply\n\n" ++
      "resource \"aws_iam_access_key\" \"" ++ name ++ "\" \x7b\n" ++ "  user = \"" ++ name ++ "\"\n" ++ "\x7d\n"

/-- The text for a service account of GCP. -/
def rotateGCP (id : Identity) : GoString :=
  let email := Strings.trimPrefix id.id "gcp:"
  let name := beforeAt email
  Strings.trimSpace <|
    "# GCP Service Account Key Rotation\n" ++
      "# Replace the user-managed key for service account " ++ email ++ ".\n" ++
      "# terraform taint google_service_account_key." ++ name ++ "\n\n" ++
      "resource \"google_service_account_key\" \"" ++ name ++ "\" \x7b\n" ++
      "  service_account_id = \"" ++ email ++ "\"\n" ++ "\x7d\n"

/-- The text for a service principal of Azure. -/
def rotateAzure (U : Unicode) (id : Identity) : GoString :=
  let name := beforeAt id.id
  Strings.trimSpace <|
    "# Azure Service Principal Credential Rotation\n" ++
      "# Roll the client secret for service principal " ++ Strconv.quote U name ++ ".\n" ++
      "# terraform taint azuread_application_password." ++ name ++ "\n\n" ++
      "resource \"azuread_application_password\" \"" ++ name ++ "\" \x7b\n" ++
      "  application_id    = azuread_application." ++ name ++ ".id\n" ++
      "  end_date_relative = \"2160h\" # 90 days\n" ++ "\x7d\n"

/-- The text for an agent. -/
def rotateAgent (U : Unicode) (id : Identity) : GoString :=
  let name := lastSegment id.id
  Strings.trimSpace <|
    "# AI Agent Credential Rotation\n" ++
      "# Revoke and reissue the long-lived API token for agent " ++ Strconv.quote U id.id ++ ".\n" ++
      (match id.onBehalfOf.getLast? with
        | some immediate => ("# This agent delegates from " : GoString) ++ immediate ++
            "; rotating its token does not change that grant.\n"
        | none => "") ++
      "# 1. Issue a new token in the agent runtime/gateway for " ++ Strconv.quote U name ++ ".\n" ++
      "# 2. Update the agent's secret store, then revoke the previous token.\n\n" ++
      "resource \"vault_token\" \"" ++ name ++ "\" \x7b\n" ++ "  display_name = \"" ++ name ++ "\"\n" ++
      "  ttl          = \"2160h\" # 90 days\n" ++ "\x7d\n"

/-- The switch over the source; an AWS role and any other source have nothing to rotate. -/
def rotationCode (U : Unicode) (id : Identity) : Option GoString :=
  if id.source = "aws_iam" then
    if !Strings.contains id.id ":user/" then none else some (rotateAWS U id)
  else if id.source = "gcp_iam" then some (rotateGCP id)
  else if id.source = "azure" then some (rotateAzure U id)
  else if id.source = "agents" then some (rotateAgent U id)
  else none

/-- Why the credential is to be rotated. -/
def rotationExplanation (days : ℕ) : GoString :=
  "This identity's credential is " ++ Strconv.itoa days ++ " days old (rotation threshold " ++
    Strconv.itoa maxDays ++ " days). Rotate it to limit how long a leaked secret stays valid."

/-! ## Generating -/

/-- `GenerateRotation`, at this time of the package clock. -/
def generateRotation (U : Unicode) (days : Ages) (now : Time) (id : Identity) : Option Recommendation :=
  if !id.isNHI || id.created.isZero then none
  else
    let age := now.sub id.created
    if age < rotationMaxAge then none
    else
      match rotationCode U id with
      | none => none
      | some code => some
          { identityID := id.id
            kind := "rotation"
            explanation := rotationExplanation (days age)
            code := code }

/-- **The rotations**: for a non-human identity that is old enough and holds a secret that can be rotated. -/
theorem generateRotation_eq_some {U : Unicode} {days : Ages} {now : Time} {i : Identity} {r : Recommendation} :
    generateRotation U days now i = some r ↔ i.isNHI = true ∧ i.created.isZero = false ∧
      rotationMaxAge ≤ now.sub i.created ∧ ∃ code, rotationCode U i = some code ∧
        r = ⟨i.id, "rotation", rotationExplanation (days (now.sub i.created)), code⟩ := by
  unfold generateRotation
  by_cases hidentity : (!i.isNHI || i.created.isZero) = true
  · rw [if_pos hidentity]
    simp only [Bool.or_eq_true, Bool.not_eq_true'] at hidentity
    constructor
    · exact fun h => absurd h (by simp)
    · rintro ⟨hnhi, hzero, -⟩
      rw [hnhi, hzero] at hidentity
      exact absurd hidentity (by decide)
  · rw [if_neg hidentity]
    simp only [Bool.or_eq_true, Bool.not_eq_true', not_or, Bool.not_eq_true, Bool.not_eq_false] at hidentity
    dsimp only
    by_cases hage : now.sub i.created < rotationMaxAge
    · rw [if_pos hage]
      exact ⟨fun h => absurd h (by simp), fun h => absurd hage (not_lt.mpr h.2.2.1)⟩
    · rw [if_neg hage]
      cases hcode : rotationCode U i with
      | none => simp
      | some code =>
        simp only [Option.some.injEq, exists_eq_left', hidentity.1, hidentity.2, not_lt.mp hage, true_and]
        exact eq_comm

end Idryx.Remediation
