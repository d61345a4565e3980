import Idryx.Aws.Usage

/-!
# Sessions and their roles

`normalizeARN` of `internal/ingest/cloudtrail.go`, and the usage that is joined by it with the
identities of an export. The role it makes is in the partition `aws` and has no path.

* `Role.arn`, `Role.sessionARN`: a role and a session of it, in any partition;
* `ReadAsSession`; `normalizeARN_of_read`, **`normalizeARN_eq_self_iff`**: which ARNs are rewritten;
* `normalizeARN_session`, `normalizeARN_session_iff`: when a session is taken to its role;
* **`normalizeARN_exact`**: when the usage of a session is found under its role;
* `chinaRole_unused`: a role whose usage is not.
-/

namespace Idryx.Aws

/-! ## Roles -/

/-- A role: its name has no slash, and its path is empty or ends in one. -/
structure Role where
  partition : GoString
  account : GoString
  path : GoString
  name : GoString
  partition_fits : 0x3A ∉ partition
  account_fits : 0x3A ∉ account
  path_fits : path = [] ∨ ("/" : GoString) <:+ path
  name_fits : 0x2F ∉ name

namespace Role

/-- The role as IAM lists it. -/
def arn (r : Role) : GoString :=
  "arn:" ++ r.partition ++ ":iam::" ++ r.account ++ ":role/" ++ r.path ++ r.name

/-- A session of the role as CloudTrail records it; the path is not in it. -/
def sessionARN (r : Role) (session : GoString) : GoString :=
  "arn:" ++ r.partition ++ ":sts::" ++ r.account ++ ":assumed-role/" ++ r.name ++ "/" ++ session

/-- The first five fields of an ARN of the role's account. -/
def fields (r : Role) (service : GoString) : List GoString :=
  ["arn", r.partition, service, "", r.account]

theorem fields_fit (r : Role) {service : GoString} (hs : 0x3A ∉ service) :
    ∀ x ∈ r.fields service, 0x3A ∉ x := by
  simp only [fields, List.forall_mem_cons, List.not_mem_nil, false_imp_iff, implies_true, and_true]
  exact ⟨by decide, r.partition_fits, hs, by decide, r.account_fits⟩

theorem arn_eq (r : Role) :
    r.arn = Strings.join (r.fields "iam" ++ [("role/" : GoString) ++ r.path ++ r.name]) ":" := by
  simp only [arn, fields, Strings.join, List.cons_append, List.nil_append,
    List.intercalate_cons_cons, List.intercalate_singleton, List.append_assoc]
  rfl

theorem sessionARN_eq (r : Role) (session : GoString) : r.sessionARN session =
    Strings.join (r.fields "sts" ++ [("assumed-role/" : GoString) ++ r.name ++ "/" ++ session]) ":" := by
  simp only [sessionARN, fields, Strings.join, List.cons_append, List.nil_append,
    List.intercalate_cons_cons, List.intercalate_singleton, List.append_assoc]
  rfl

end Role

/-- The role of that name in the partition `aws`, without a path. -/
def baseARN (account role : GoString) : GoString := "arn:aws:iam::" ++ account ++ ":role/" ++ role

/-- The ARN of a session of some role. -/
def AssumedRole (arn : GoString) : Prop := ∃ (r : Role) (session : GoString), arn = r.sessionARN session

/-! ## What is rewritten -/

/-- The marker of a session is somewhere in the ARN, and in its sixth field the role stands behind the
first slash. -/
def ReadAsSession (arn account role : GoString) : Prop :=
  Strings.contains arn ":assumed-role/" = true ∧
    ∃ (first : List GoString) (kind rest : GoString),
      first.length = 4 ∧
        arn = Strings.join (first ++ [account] ++ [kind ++ ("/" : GoString) ++ role ++ rest]) ":" ∧
        (∀ x ∈ first ++ [account], 0x3A ∉ x) ∧ 0x2F ∉ kind ∧ 0x2F ∉ role ∧
        ∀ b ∈ rest.head?, b = 0x2F

/-- An ARN that is read as that of a session only where it is the role's already. -/
def LeftAlone (arn : GoString) : Prop :=
  ∀ account role, ReadAsSession arn account role → arn = baseARN account role

theorem splitN_resource {kind role rest : GoString} (hkind : 0x2F ∉ kind) (hrole : 0x2F ∉ role)
    (hrest : ∀ b ∈ rest.head?, b = 0x2F) :
    ∃ more, Strings.splitN 0x2F 3 (kind ++ ("/" : GoString) ++ role ++ rest) =
      kind :: role :: more := by
  have htext : kind ++ ("/" : GoString) ++ role ++ rest = kind ++ 0x2F :: (role ++ rest) := by
    rw [List.append_assoc, List.append_assoc]
    rfl
  rw [htext, Strings.splitN_append hkind]
  cases rest with
  | nil =>
    refine ⟨[], ?_⟩
    rw [List.append_nil, Strings.splitN_of_not_mem hrole]
  | cons b rest =>
    obtain rfl : b = 0x2F := hrest b rfl
    refine ⟨[rest], ?_⟩
    rw [Strings.splitN_append hrole, Strings.splitN]

theorem normalizeARN_of_read {arn account role : GoString} (h : ReadAsSession arn account role) :
    normalizeARN arn = baseARN account role := by
  obtain ⟨hcontains, first, kind, rest, hlen, harn, hfirst, hkind, hrole, hrest⟩ := h
  have hfields : Strings.splitN 0x3A 6 arn =
      first ++ [account] ++ [kind ++ ("/" : GoString) ++ role ++ rest] := by
    have hsix : (first ++ [account]).length + 1 = 6 := by
      rw [List.length_append, hlen]
      rfl
    rw [harn, ← hsix]
    exact Strings.splitN_join hfirst _
  obtain ⟨a, b, c, d, rfl⟩ := List.length_eq_four.mp hlen
  obtain ⟨more, hmore⟩ := splitN_resource hkind hrole hrest
  unfold normalizeARN
  rw [hcontains, hfields]
  simp only [Bool.not_true, Bool.false_eq_true, if_false, List.cons_append, List.nil_append]
  rw [hmore]
  rfl

theorem exists_read_or_eq (arn : GoString) :
    (∃ account role, ReadAsSession arn account role) ∨ normalizeARN arn = arn := by
  by_cases hcontains : Strings.contains arn ":assumed-role/" = true
  swap
  · rw [Bool.not_eq_true] at hcontains
    exact Or.inr (by simp [normalizeARN, hcontains])
  obtain ⟨hjoin, hfree, -⟩ := Strings.splitN_spec (b := 0x3A) 5 arn
  unfold normalizeARN
  simp only [hcontains, Bool.not_true, Bool.false_eq_true, if_false]
  split
  swap
  · exact Or.inr rfl
  rename_i a b c d account resource hfields
  obtain ⟨hjoin', hfree', hfew⟩ := Strings.splitN_spec (b := 0x2F) 2 resource
  split
  swap
  · exact Or.inr rfl
  rename_i kind role more hsegments
  rw [hfields] at hjoin hfree
  rw [hsegments] at hjoin' hfree' hfew
  -- the segments behind the role, with the slash before them
  obtain ⟨rest, hrest, hhead⟩ : ∃ rest : GoString,
      kind ++ ("/" : GoString) ++ role ++ rest = resource ∧ ∀ b ∈ rest.head?, b = 0x2F := by
    rw [← hjoin', Strings.join]
    cases more with
    | nil => exact ⟨[], by simp [List.intercalate_cons_cons]; rfl, by simp⟩
    | cons x xs => exact ⟨0x2F :: List.intercalate [0x2F] (x :: xs),
        by simp [List.intercalate_cons_cons]; rfl, by simp⟩
  have hrole : 0x2F ∉ role := by
    cases more with
    | nil => exact hfew le_rfl role (by simp)
    | cons x xs => exact hfree' role (by simp)
  refine Or.inl ⟨account, role, hcontains, [a, b, c, d], kind, rest, rfl, ?_, hfree, ?_, hrole, hhead⟩
  · rw [hrest, ← hjoin]
    rfl
  · exact hfree' kind (by cases more <;> simp)

/-- **Which ARNs are rewritten**. -/
theorem normalizeARN_eq_self_iff {arn : GoString} : normalizeARN arn = arn ↔ LeftAlone arn := by
  constructor
  · intro h account role hread
    exact h.symm.trans (normalizeARN_of_read hread)
  · intro h
    rcases exists_read_or_eq arn with ⟨account, role, hread⟩ | heq
    · exact (normalizeARN_of_read hread).trans (h account role hread).symm
    · exact heq

/-! ## Sessions -/

theorem marker_sessionARN (r : Role) (session : GoString) :
    Strings.contains (r.sessionARN session) ":assumed-role/" = true := by
  rw [Strings.contains_iff]
  refine ⟨("arn:" : GoString) ++ r.partition ++ ":sts::" ++ r.account, r.name ++ "/" ++ session, ?_⟩
  simp only [Role.sessionARN, List.append_assoc]

theorem read_sessionARN (r : Role) (session : GoString) :
    ReadAsSession (r.sessionARN session) r.account r.name := by
  refine ⟨marker_sessionARN r session, ["arn", r.partition, "sts", ""], "assumed-role",
    ("/" : GoString) ++ session, rfl, ?_, r.fields_fit (by decide), by decide, r.name_fits, ?_⟩
  · rw [Role.sessionARN_eq]
    have htext : ("assumed-role/" : GoString) ++ r.name ++ ("/" : GoString) ++ session =
        ("assumed-role" : GoString) ++ ("/" : GoString) ++ r.name ++ (("/" : GoString) ++ session) := by
      have hkind : ("assumed-role/" : GoString) = ("assumed-role" : GoString) ++ ("/" : GoString) := rfl
      rw [hkind, List.append_assoc _ _ session]
    rw [htext]
    rfl
  · intro b hb
    exact (Option.some.inj hb).symm

/-- **A session counts as a role** of its name and account. -/
theorem normalizeARN_session (r : Role) (session : GoString) :
    normalizeARN (r.sessionARN session) = baseARN r.account r.name :=
  normalizeARN_of_read (read_sessionARN r session)

/-- The fields of the ARN of a role, and of that of a session. -/
theorem Role.splitN_arn (r : Role) : Strings.splitN 0x3A 6 r.arn =
    r.fields "iam" ++ [("role/" : GoString) ++ r.path ++ r.name] := by
  rw [Role.arn_eq]
  exact Strings.splitN_join (r.fields_fit (by decide)) _

@[inherit_doc Role.splitN_arn]
theorem Role.splitN_sessionARN (r : Role) (session : GoString) :
    Strings.splitN 0x3A 6 (r.sessionARN session) =
      r.fields "sts" ++ [("assumed-role/" : GoString) ++ r.name ++ "/" ++ session] := by
  rw [Role.sessionARN_eq]
  exact Strings.splitN_join (r.fields_fit (by decide)) _

/-- The role of the same name and account in the partition `aws`, without a path. -/
def Role.base (r : Role) : Role where
  partition := "aws"
  account := r.account
  path := []
  name := r.name
  partition_fits := by decide
  account_fits := r.account_fits
  path_fits := Or.inl rfl
  name_fits := r.name_fits

theorem Role.base_arn (r : Role) : r.base.arn = baseARN r.account r.name := by
  rw [Role.arn, Role.base, List.append_nil]
  rfl

theorem baseARN_eq_arn_iff (r : Role) :
    baseARN r.account r.name = r.arn ↔ r.partition = "aws" ∧ r.path = [] := by
  rw [← r.base_arn]
  constructor
  · intro h
    have hsplit := congrArg (Strings.splitN 0x3A 6) h
    rw [Role.splitN_arn, Role.splitN_arn] at hsplit
    simp only [Role.fields, Role.base, List.cons_append, List.nil_append, List.cons.injEq, true_and,
      and_true, List.append_nil] at hsplit
    obtain ⟨hpartition, hpath⟩ := hsplit
    rw [List.append_assoc] at hpath
    exact ⟨hpartition.symm, List.append_left_eq_self.mp (List.append_cancel_left hpath).symm⟩
  · rintro ⟨hpartition, hpath⟩
    simp only [Role.arn, Role.base, hpartition, hpath]

theorem not_leftAlone_session (r : Role) (session : GoString) : ¬ LeftAlone (r.sessionARN session) := by
  intro h
  have hsplit := congrArg (Strings.splitN 0x3A 6) (h r.account r.name (read_sessionARN r session))
  rw [← r.base_arn, Role.splitN_arn, Role.splitN_sessionARN] at hsplit
  -- the third field is the service
  have hservice : ("sts" : GoString) = ("iam" : GoString) := by
    simp only [Role.fields, List.cons_append, List.cons.injEq] at hsplit
    exact hsplit.2.2.1
  exact absurd hservice (by decide)

theorem normalizeARN_session_iff (r : Role) (session : GoString) :
    normalizeARN (r.sessionARN session) = r.arn ↔ r.partition = "aws" ∧ r.path = [] := by
  rw [normalizeARN_session, baseARN_eq_arn_iff]

/-! ## The usage of a session -/

/-- What a principal calls is found under the key its ARN is taken to, and a log of nothing else shows
nothing under another. -/
theorem found_iff {U : Unicode} {arn id src : GoString} (hsrc : src ≠ "") (hid : id ≠ "") :
    (∀ log : List CTRecord, ⟨src, arn⟩ ∈ log →
        serviceFromEventSource U src ∈ Groups.members (cloudTrailUsage U log) id) ↔
      normalizeARN arn = id := by
  constructor
  · intro h
    obtain ⟨r, hr, hkey, -⟩ := mem_cloudTrailUsage.mp (h [⟨src, arn⟩] List.mem_cons_self)
    obtain rfl := List.mem_singleton.mp hr
    exact hkey
  · intro h log hlog
    exact mem_cloudTrailUsage.mpr ⟨_, hlog, h, hid, hsrc, rfl⟩

theorem Role.arn_ne_nil (r : Role) : r.arn ≠ "" := List.cons_ne_nil _ _

/-- **When a session counts as its role.** It is taken to the ARN of its role in the partition `aws`; an
ARN of anything else is left as it is unless it is read as that of a session; and what a session
calls is found under the identity of its role, in every log, if the role is in the partition `aws` and
has no path. -/
theorem normalizeARN_exact (r : Role) (session arn : GoString) (R : Reader) (d : AuthDetails) :
    (r.path = [] → (normalizeARN (r.sessionARN session) = r.arn ↔ r.partition = "aws")) ∧
    (¬ AssumedRole arn → (normalizeARN arn = arn ↔ LeftAlone arn)) ∧
    ∀ i ∈ awsIAM R d, i.id = r.arn → ∀ src : GoString, src ≠ "" →
      ((∀ log : List CTRecord, ⟨src, r.sessionARN session⟩ ∈ log →
          serviceFromEventSource R.unicode src ∈
            Groups.members (cloudTrailUsage R.unicode log) i.id) ↔
        r.partition = "aws" ∧ r.path = []) := by
  refine ⟨?_, ?_, ?_⟩
  · intro hpath
    rw [normalizeARN_session_iff]
    exact and_iff_left hpath
  · intro _
    exact normalizeARN_eq_self_iff
  · intro i _ hid src hsrc
    rw [hid, found_iff hsrc r.arn_ne_nil]
    exact normalizeARN_session_iff r session

/-- A role in the partition of the China regions. -/
def chinaRole : Role :=
  ⟨"aws-cn", "1", "", "ci", by decide, by decide, by decide, by decide⟩

/-- An administrator policy, attached to that role. -/
def chinaPrincipal : Principal where
  arn := chinaRole.arn
  createDate := ""
  tags := []
  attachedManaged := [⟨"AdministratorAccess", "arn:aws-cn:iam::aws:policy/AdministratorAccess"⟩]
  userPolicyList := []
  rolePolicyList := []
  lastUsedDate := ""

/-- **A role that is used and looks unused.** Its session is taken to a role in another partition. -/
theorem chinaRole_unused :
    (¬ ∀ (r : Role) (session : GoString), r.path = [] →
      normalizeARN (r.sessionARN session) = r.arn) ∧
    (awsIAMWithUsage objectsReader ⟨[], [chinaPrincipal], []⟩
        [⟨"s3.amazonaws.com", chinaRole.sessionARN "build"⟩]).map
      (fun i => (i.id, i.permissions.map Permission.used)) = [(chinaRole.arn, [false])] := by
  constructor
  · intro h
    exact absurd (h chinaRole "build" rfl) (by decide +kernel)
  · decide +kernel

end Idryx.Aws
