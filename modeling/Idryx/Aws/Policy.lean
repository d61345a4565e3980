import Idryx.Model
import Idryx.Lib.Keyed
import Idryx.Go.Search

/-!
# AWS policies and principals

`internal/ingest/awspolicy.go` and `awsiam.go`: what a decoded policy document grants, and the identity
made of a principal.

* `policyEffect`; `mem_policyEffect`, `admin_policyEffect`: the actions and the admin verdict, by the
  statements of the document;
* `managedPolicyIndex`; **`lookup_managedPolicyIndex`**: under an ARN stands the effect of the last
  policy of that ARN with a readable default version;
* `isAdminPolicy`, `principalToIdentity`, `awsIAM`.
-/

namespace Idryx.Aws

/-- One statement of a policy document; an `awsStringSet` is a list. -/
structure Statement where
  effect : GoString
  action : List GoString
  notAction : List GoString
  resource : List GoString

/-- The part of a policy document that is read. -/
structure PolicyDoc where
  statement : List Statement

/-- What the connector calls to read its input: the tables of `unicode`, `decodePolicyDocument`, and
`time.Parse(time.RFC3339, ·)`. -/
structure Reader where
  unicode : Unicode
  decodePolicyDocument : GoString → Option PolicyDoc
  parseTime : GoString → Option Time

/-! ## The effect of a document -/

/-- An action as the connector keeps it. -/
def normalizeAction (U : Unicode) (a : GoString) : GoString :=
  Strings.toLower U (Strings.trimSpace a)

namespace Statement

/-- The statement is an Allow. -/
def allows (st : Statement) : Bool := Strings.equalFold st.effect "Allow"

/-- One of its resources is `*`. -/
def everyResource (st : Statement) : Bool := st.resource.any fun r => Strings.trimSpace r == "*"

end Statement

/-- One turn of the loop over the actions of a statement; `seen` holds what `actions` does. -/
def addAction (U : Unicode) (everyResource : Bool) (acc : List GoString × Bool) (a : GoString) :
    List GoString × Bool :=
  let a := normalizeAction U a
  if a = [] then acc
  else
    (if acc.1.contains a then acc.1 else acc.1 ++ [a],
      if a = "*" ∧ everyResource = true then true else acc.2)

/-- One turn of the loop over the statements. -/
def addStatement (U : Unicode) (acc : List GoString × Bool) (st : Statement) :
    List GoString × Bool :=
  if !st.allows then acc
  else
    let acc := st.action.foldl (addAction U st.everyResource) acc
    (acc.1, if st.notAction ≠ [] ∧ st.everyResource = true then true else acc.2)

/-- The actions a document allows, and whether it is administrator-equivalent. -/
def policyEffect (U : Unicode) (doc : PolicyDoc) : List GoString × Bool :=
  doc.statement.foldl (addStatement U) ([], false)

section Effect

variable (U : Unicode)

theorem mem_foldl_addAction {every : Bool} {b : GoString} (as : List GoString)
    (acc : List GoString × Bool) : b ∈ (as.foldl (addAction U every) acc).1 ↔
      b ∈ acc.1 ∨ b ≠ [] ∧ ∃ a ∈ as, normalizeAction U a = b := by
  rw [Loop.foldl_iff (P := fun acc : List GoString × Bool => b ∈ acc.1)
    (Q := fun a => b ≠ [] ∧ normalizeAction U a = b)]
  · simp only [and_left_comm, exists_and_left]
  intro acc a
  unfold addAction
  by_cases hnil : normalizeAction U a = []
  · rw [if_pos hnil]
    constructor
    · exact Or.inl
    · rintro (h | ⟨hne, rfl⟩)
      · exact h
      · exact absurd hnil hne
  · rw [if_neg hnil]
    by_cases hmem : acc.1.contains (normalizeAction U a) = true
    · simp only [hmem, if_true]
      constructor
      · exact Or.inl
      · rintro (h | ⟨-, rfl⟩)
        · exact h
        · exact List.contains_iff_mem.mp hmem
    · simp only [hmem]
      rw [if_neg Bool.false_ne_true, List.mem_append, List.mem_singleton]
      constructor
      · rintro (h | rfl)
        · exact Or.inl h
        · exact Or.inr ⟨hnil, rfl⟩
      · rintro (h | ⟨-, rfl⟩)
        · exact Or.inl h
        · exact Or.inr rfl

theorem admin_foldl_addAction (every : Bool) (as : List GoString) (acc : List GoString × Bool) :
    (as.foldl (addAction U every) acc).2 = true ↔
      acc.2 = true ∨ every = true ∧ ∃ a ∈ as, normalizeAction U a = "*" := by
  rw [Loop.foldl_iff (P := fun acc : List GoString × Bool => acc.2 = true)
    (Q := fun a => every = true ∧ normalizeAction U a = "*")]
  · simp only [and_left_comm, exists_and_left]
  intro acc a
  unfold addAction
  by_cases hnil : normalizeAction U a = []
  · have hne : ¬ normalizeAction U a = "*" := by
      rw [hnil]
      decide
    rw [if_pos hnil]
    simp [hne]
  · rw [if_neg hnil]
    dsimp only
    split_ifs with h
    · simp [h.1, h.2]
    · have hno : ¬ (every = true ∧ normalizeAction U a = "*") := fun hh => h ⟨hh.2, hh.1⟩
      simp only [hno, or_false]

/-- The Allow statements of a document. -/
def PolicyDoc.Allows (doc : PolicyDoc) (st : Statement) : Prop :=
  st ∈ doc.statement ∧ st.allows = true

/-- **The actions of a document** are those its Allow statements list. -/
theorem mem_policyEffect {doc : PolicyDoc} {b : GoString} : b ∈ (policyEffect U doc).1 ↔
    b ≠ [] ∧ ∃ st, doc.Allows st ∧ ∃ a ∈ st.action, normalizeAction U a = b := by
  have hstep : ∀ (acc : List GoString × Bool) (st : Statement),
      b ∈ (addStatement U acc st).1 ↔ b ∈ acc.1 ∨
        b ≠ [] ∧ st.allows = true ∧ ∃ a ∈ st.action, normalizeAction U a = b := by
    intro acc st
    unfold addStatement
    cases hst : st.allows with
    | false => simp
    | true => simp [mem_foldl_addAction]
  rw [policyEffect, Loop.foldl_iff (P := fun acc : List GoString × Bool => b ∈ acc.1) hstep]
  simp only [List.not_mem_nil, false_or, PolicyDoc.Allows, and_assoc, and_left_comm, exists_and_left]

/-- **The admin verdict**: some Allow statement on every resource lists `*`, or has a `NotAction`. -/
theorem admin_policyEffect {doc : PolicyDoc} : (policyEffect U doc).2 = true ↔
    ∃ st, doc.Allows st ∧ st.everyResource = true ∧
      (st.notAction ≠ [] ∨ ∃ a ∈ st.action, normalizeAction U a = "*") := by
  have hstep : ∀ (acc : List GoString × Bool) (st : Statement),
      (addStatement U acc st).2 = true ↔ acc.2 = true ∨
        st.allows = true ∧ st.everyResource = true ∧
          (st.notAction ≠ [] ∨ ∃ a ∈ st.action, normalizeAction U a = "*") := by
    intro acc st
    unfold addStatement
    cases hst : st.allows with
    | false => simp
    | true =>
      have hloop := admin_foldl_addAction U st.everyResource st.action acc
      simp only [Bool.not_true, Bool.false_eq_true, if_false, true_and]
      by_cases hna : st.notAction ≠ [] ∧ st.everyResource = true
      · rw [if_pos hna]
        simp [hna.1, hna.2]
      · rw [if_neg hna, hloop]
        grind
  rw [policyEffect, Loop.foldl_iff (P := fun acc : List GoString × Bool => acc.2 = true) hstep]
  simp only [Bool.false_eq_true, false_or, PolicyDoc.Allows, and_assoc]

end Effect

/-! ## Managed policies -/

/-- A version of a managed policy. -/
structure PolicyVersion where
  document : GoString
  versionID : GoString
  isDefaultVersion : Bool

/-- A managed policy of an export. -/
structure ManagedPolicy where
  policyName : GoString
  arn : GoString
  defaultVersionID : GoString
  policyVersionList : List PolicyVersion

/-- What one managed policy allows. -/
structure ManagedPolicyGrant where
  actions : List GoString
  admin : Bool

variable (R : Reader)

/-- What a document grants. -/
def grantOf (doc : PolicyDoc) : ManagedPolicyGrant :=
  let effect := policyEffect R.unicode doc
  ⟨effect.1, effect.2⟩

/-- The version is the one in force. -/
def ManagedPolicy.inForce (p : ManagedPolicy) (v : PolicyVersion) : Bool :=
  v.isDefaultVersion || (p.defaultVersionID != "" && v.versionID == p.defaultVersionID)

/-- The first version in force whose document can be read. -/
def policyDocument (p : ManagedPolicy) : Option PolicyDoc :=
  p.policyVersionList.findSome? fun v =>
    if p.inForce v then R.decodePolicyDocument v.document else none

/-- One turn of the loop over the managed policies. -/
def indexPolicy (out : List (GoString × ManagedPolicyGrant)) (p : ManagedPolicy) :
    List (GoString × ManagedPolicyGrant) :=
  if p.arn = "" then out
  else
    match policyDocument R p with
    | none => out
    | some doc => Keyed.upsert Prod.fst p.arn (p.arn, grantOf R doc) (fun _ => (p.arn, grantOf R doc)) out

/-- The grants of the managed policies by ARN. -/
def managedPolicyIndex (policies : List ManagedPolicy) : List (GoString × ManagedPolicyGrant) :=
  policies.foldl (indexPolicy R) []

/-- The document of `p`, if it has the ARN and one can be read, or else `d`. -/
def laterDocument (arn : GoString) (d : Option PolicyDoc) (p : ManagedPolicy) : Option PolicyDoc :=
  if p.arn = arn ∧ arn ≠ "" then (policyDocument R p).or d else d

/-- The document in force under an ARN: that of the last policy of the ARN that has one. -/
def documentOf (policies : List ManagedPolicy) (arn : GoString) : Option PolicyDoc :=
  policies.foldl (laterDocument R arn) none

/-- **What stands under an ARN of the index.** -/
theorem lookup_managedPolicyIndex (policies : List ManagedPolicy) (arn : GoString) :
    Keyed.lookup Prod.fst arn (managedPolicyIndex R policies) =
      (documentOf R policies arn).map fun doc => (arn, grantOf R doc) := by
  have hrun : ∀ (out : List (GoString × ManagedPolicyGrant)) (d : Option PolicyDoc),
      Keyed.lookup Prod.fst arn out = d.map (fun doc => (arn, grantOf R doc)) →
      Keyed.lookup Prod.fst arn (policies.foldl (indexPolicy R) out) =
        (policies.foldl (laterDocument R arn) d).map fun doc => (arn, grantOf R doc) := by
    induction policies with
    | nil => exact fun out d h => h
    | cons p policies ih =>
      intro out d h
      refine ih _ _ ?_
      unfold indexPolicy laterDocument
      by_cases hnil : p.arn = ""
      · have hno : ¬ (p.arn = arn ∧ arn ≠ "") := fun hh => hh.2 (hh.1 ▸ hnil)
        rw [if_pos hnil, if_neg hno]
        exact h
      · rw [if_neg hnil]
        by_cases harn : p.arn = arn
        · subst harn
          rw [if_pos ⟨rfl, hnil⟩]
          cases policyDocument R p with
          | none => exact h
          | some doc =>
            rw [Keyed.lookup_put (by rfl)]
            rfl
        · rw [if_neg fun hh => harn hh.1]
          cases policyDocument R p with
          | none => exact h
          | some doc =>
            rw [Keyed.lookup_upsert_ne (by rfl) (by exact fun _ _ => rfl) (Ne.symm harn)]
            exact h
  exact hrun [] none rfl

/-! ## Principals -/

/-- A tag of a principal. -/
structure Tag where
  key : GoString
  value : GoString

/-- An attached managed policy. -/
structure AttachedPolicy where
  policyName : GoString
  policyArn : GoString

/-- An inline policy. -/
structure InlinePolicy where
  policyName : GoString
  policyDocument : GoString

/-- A user or a role of an export. -/
structure Principal where
  arn : GoString
  createDate : GoString
  tags : List Tag
  attachedManaged : List AttachedPolicy
  userPolicyList : List InlinePolicy
  rolePolicyList : List InlinePolicy
  lastUsedDate : GoString

/-- AWS-managed AdministratorAccess and obvious admin grants. -/
def isAdminPolicy (name arn : GoString) : Bool :=
  if arn = "arn:aws:iam::aws:policy/AdministratorAccess" then true
  else
    let n := Strings.toLower R.unicode name
    Strings.contains n "administratoraccess" || n == "admin"

/-- The value of the first tag that names an owner. -/
def ownerFromTags (tags : List Tag) : GoString :=
  ((tags.find? fun t => (["owner", "team", "contact"] : List GoString).contains
    (Strings.toLower R.unicode t.key)).map Tag.value).getD ""

/-- An IAM timestamp; the zero time if it is empty or invalid. -/
def parseAWSTime (s : GoString) : Time :=
  if s = "" then Time.zero else (R.parseTime s).getD Time.zero

/-- The grant of an attached managed policy. -/
def attachedPermission (managed : List (GoString × ManagedPolicyGrant)) (m : AttachedPolicy) :
    Permission :=
  let grant := ((Keyed.lookup Prod.fst m.policyArn managed).map Prod.snd).getD ⟨[], false⟩
  { name := m.policyName
    admin := isAdminPolicy R m.policyName m.policyArn || grant.admin
    used := false
    actions := grant.actions
    arn := m.policyArn }

/-- The grant of an inline policy, which has no ARN. -/
def inlinePermission (inl : InlinePolicy) : Permission :=
  let grant := ((R.decodePolicyDocument inl.policyDocument).map (grantOf R)).getD ⟨[], false⟩
  { name := inl.policyName
    admin := isAdminPolicy R inl.policyName "" || grant.admin
    used := false
    actions := grant.actions
    arn := "" }

/-- The identity of a principal: a grant for each policy attached to it, then one for each inline policy. -/
def principalToIdentity (p : Principal) (inl : List InlinePolicy)
    (managed : List (GoString × ManagedPolicyGrant)) : Identity :=
  let id : Identity :=
    { Identity.zero p.arn with
      type := identityServiceAccount
      source := "aws_iam"
      owner := ownerFromTags R p.tags
      created := parseAWSTime R p.createDate
      lastUsed := let t := parseAWSTime R p.lastUsedDate; if !t.isZero then t else Time.zero
      permissions := p.attachedManaged.map (attachedPermission R managed) ++
        inl.map (inlinePermission R) }
  { id with privileged := id.hasAdmin }

/-- The part of an account authorization details document that is read. -/
structure AuthDetails where
  userDetailList : List Principal
  roleDetailList : List Principal
  policies : List ManagedPolicy

/-- `AWSIAM`, of a decoded document. -/
def awsIAM (d : AuthDetails) : List Identity :=
  let managed := managedPolicyIndex R d.policies
  d.userDetailList.map (fun p => principalToIdentity R p p.userPolicyList managed) ++
    d.roleDetailList.map (fun p => principalToIdentity R p p.rolePolicyList managed)

end Idryx.Aws
