import Idryx.Aws.Policy
import Idryx.Detect.PrivilegeEscalation
import Idryx.Graph.Replay
import Idryx.Lib.Glob

/-!
# Which escalation grants are seen

An identity made of an AWS principal is seen if it has an admin grant, or is alerted on by the
privilege-escalation detector.

* `pattern`: an action as AWS reads it, a glob; `DangerousAllow`: a document allows an escalation;
* `Seen`; **`seen_iff`**: by the names of the policies a principal holds and by their documents;
* **`escalation_seen_iff`**: when no escalation a principal is allowed goes unseen;
* `caught_plain`, `caught_plain_star`, **`seen_of_plain`**: an action spelled out, or with one star, at
  its end, is seen;
* `starOnOneRole`: a policy of which neither the connector nor the detector says anything.
-/

namespace Idryx.Aws

/-! ## AWS globs -/

/-- A letter matches itself in either case. -/
def letter (b c : UInt8) : Bool := Strings.lowerByte b == Strings.lowerByte c

/-- What one byte of an action pattern stands for. -/
def token (b : UInt8) : Glob.Token UInt8 :=
  if b = 0x2A then .star else if b = 0x3F then .one fun _ => true else .one (letter b)

/-- An action as AWS reads it: `*` and `?` anywhere, letters in either case. -/
def pattern (a : GoString) : List (Glob.Token UInt8) := a.map token

/-- The AWS-style keys of the escalation permissions. -/
def awsKeys : List GoString := dangerousKeys.filter (Strings.hasPrefix · "iam:")

/-- The action matches an escalation permission of AWS. -/
def Dangerous (a : GoString) : Prop := ∃ k ∈ awsKeys, Glob.Matches (pattern a) k

/-! ## Actions spelled out -/

/-- No `*` and no `?`. -/
def Plain (a : GoString) : Prop := ∀ b ∈ a, b ≠ 0x2A ∧ b ≠ 0x3F

theorem pattern_plain {a : GoString} (ha : Plain a) : pattern a = (a.map letter).map .one := by
  unfold pattern
  rw [List.map_map]
  apply List.map_congr_left
  intro b hb
  unfold token
  rw [if_neg (ha b hb).1, if_neg (ha b hb).2]
  rfl

theorem map_lowerByte_of_forall₂ {a k : GoString} (hk : k.map Strings.lowerByte = k)
    (h : List.Forall₂ (fun p x => p x = true) (a.map letter) k) : a.map Strings.lowerByte = k := by
  rw [List.forall₂_map_left_iff] at h
  rw [← hk]
  induction h with
  | nil => rfl
  | cons hb _ ih =>
    rw [List.map_cons, List.cons.injEq] at hk
    rw [List.map_cons, List.map_cons, ih hk.2, eq_of_beq hb]

theorem normalize_printable (U : Unicode) {a : GoString} (ha : ∀ b ∈ a.map Strings.lowerByte,
    Strings.Printable b) :
    Strings.toLower U (normalizeAction U a) = a.map Strings.lowerByte := by
  have hbytes : ∀ b ∈ a, Strings.Printable b := by
    intro b hb
    have hlow := ha _ (List.mem_map_of_mem hb)
    unfold Strings.lowerByte at hlow
    split_ifs at hlow with hupper
    · exact ⟨UInt8.le_trans (by decide) hupper.1, UInt8.lt_of_le_of_lt hupper.2 (by decide)⟩
    · exact hlow
  have hascii : ∀ b : UInt8, Strings.Printable b → b < 0x80 :=
    fun b hb => UInt8.lt_trans hb.2 (by decide)
  unfold normalizeAction
  rw [Strings.trimSpace_printable hbytes, Strings.toLower_ascii U fun b hb => hascii b (hbytes b hb),
    Strings.toLower_ascii U fun b hb => hascii b (ha b hb), List.map_map]
  apply List.map_congr_left
  intro b _
  exact Strings.lowerByte_lowerByte b

/-- **An action spelled out is caught**, in any case of its letters. -/
theorem caught_plain (U : Unicode) {a : GoString} (ha : Plain a) (hd : Dangerous a) :
    Caught (Strings.toLower U (normalizeAction U a)) := by
  obtain ⟨k, hk, hm⟩ := hd
  replace hk := (List.mem_filter.mp hk).1
  obtain ⟨hbytes, hlow, -⟩ := dangerousKeys_plain hk
  rw [pattern_plain ha, Glob.matches_ones] at hm
  have hak := map_lowerByte_of_forall₂ hlow hm
  rw [normalize_printable U (by rw [hak]; exact fun b hb => (hbytes b hb).1), hak]
  have hstar := not_star_suffix hk
  exact ⟨fun h => hstar (h ▸ List.suffix_refl _), Or.inr ⟨hstar, k, hk, whole_self k⟩⟩

/-- **An action with one star, at its end, is caught**, in any case of its letters. -/
theorem caught_plain_star (U : Unicode) {a : GoString} (ha : Plain a) (hne : a ≠ [])
    (hd : Dangerous (a ++ "*")) : Caught (Strings.toLower U (normalizeAction U (a ++ "*"))) := by
  obtain ⟨k, hk, hm⟩ := hd
  replace hk := (List.mem_filter.mp hk).1
  obtain ⟨hbytes, hlow, -⟩ := dangerousKeys_plain hk
  have hpattern : pattern (a ++ "*") = (a.map letter).map .one ++ [.star] := by
    rw [← pattern_plain ha]
    exact List.map_append
  rw [hpattern, Glob.matches_ones_star] at hm
  obtain ⟨ys, ⟨zs, hyz⟩, hm⟩ := hm
  have hylow : ys.map Strings.lowerByte = ys := by
    rw [← hyz, List.map_append] at hlow
    exact (List.append_inj hlow (List.length_map _)).1
  have hay := map_lowerByte_of_forall₂ hylow hm
  have hlast : (a ++ ("*" : GoString)).map Strings.lowerByte = ys ++ "*" := by
    rw [List.map_append, hay]
    rfl
  have hstar : ∀ b ∈ ("*" : GoString), Strings.Printable b := by
    intro b hb
    rw [List.mem_singleton.mp hb]
    decide
  have hprint : ∀ b ∈ ys ++ ("*" : GoString), Strings.Printable b := by
    intro b hb
    rcases List.mem_append.mp hb with hb | hb
    · exact (hbytes b (hyz ▸ List.mem_append_left zs hb)).1
    · exact hstar b hb
  rw [normalize_printable U (by rw [hlast]; exact hprint), hlast]
  refine ⟨fun h => hne ?_, Or.inl ⟨ys, rfl, k, hk, zs, hyz⟩⟩
  have hnil : ys = [] := List.append_left_eq_self.mp h
  rw [← hay] at hnil
  exact List.map_eq_nil_iff.mp hnil

/-! ## Merging grants -/

theorem escalates_mergePermission (U : Unicode) (d p : Permission) (h : d.name = p.name) :
    Escalates U (mergePermission d p) ↔ Escalates U d ∨ Escalates U p := by
  have hactions : (mergePermission d p).actions = unionActions d.actions p.actions := rfl
  unfold Escalates
  rw [hactions, mergePermission_name, ← h]
  simp only [mem_unionActions, or_and_right, exists_or]
  grind

variable (R : Reader) (privileged : GoString → Bool) (now : Time)

/-- The identity has an admin grant, or is alerted on in the graph it is added to. -/
def Seen (i : Identity) : Prop :=
  i.hasAdmin = true ∨
    ∃ al ∈ privilegeEscalation R.unicode ((Store.new privileged).addIdentity i).identities now,
      al.identityID = i.id

theorem exists_identities_addIdentity {P : Identity → Prop} (i : Identity) :
    (∃ j ∈ ((Store.new privileged).addIdentity i).identities, P j) ↔
      P (mergeIdentity ((Store.new privileged).fresh i.id) i).chronological := by
  have hnodes : ((Store.new privileged).addIdentity i).nodes =
      [mergeIdentity ((Store.new privileged).fresh i.id) i] := rfl
  constructor
  · rintro ⟨j, hj, hP⟩
    obtain ⟨n, hn, rfl⟩ := Store.mem_identities.mp hj
    rw [hnodes, List.mem_singleton] at hn
    rw [← hn]
    exact hP
  · intro hP
    exact ⟨_, Store.mem_identities.mpr ⟨_, hnodes ▸ List.mem_singleton.mpr rfl, rfl⟩, hP⟩

theorem seen_iff_permissions {i : Identity} (hnhi : i.isNHI = true) :
    Seen R privileged now i ↔ ∃ p ∈ i.permissions, p.admin = true ∨ Escalates R.unicode p := by
  have hmerge : (∃ p ∈ mergePermissions [] i.permissions, Escalates R.unicode p) ↔
      ∃ p ∈ i.permissions, Escalates R.unicode p := by
    rw [exists_mergePermissions fun d p h => escalates_mergePermission R.unicode d p h]
    simp
  have htype : (mergeIdentity ((Store.new privileged).fresh i.id) i).chronological.isNHI = true := by
    have hne : i.type ≠ identityHuman := by simpa [Identity.isNHI] using hnhi
    show ((if i.type ≠ identityHuman then i.type else identityHuman) != identityHuman) = true
    rw [if_pos hne]
    exact hnhi
  unfold Seen
  rw [exists_privilegeEscalation, exists_identities_addIdentity]
  constructor
  · rintro (h | ⟨-, -, h⟩)
    · obtain ⟨p, hp, hadmin⟩ := List.any_eq_true.mp h
      exact ⟨p, hp, Or.inl hadmin⟩
    · obtain ⟨p, hp, hesc⟩ := hmerge.mp h
      exact ⟨p, hp, Or.inr hesc⟩
  · rintro ⟨p, hp, h | h⟩
    · exact Or.inl (List.any_eq_true.mpr ⟨p, hp, h⟩)
    · exact Or.inr ⟨rfl, htype, hmerge.mpr ⟨p, hp, h⟩⟩

/-! ## What a principal holds -/

section Held

variable (policies : List ManagedPolicy) (p : Principal) (inl : List InlinePolicy)

/-- The documents of the policies a principal holds. -/
def heldDocuments : List PolicyDoc :=
  p.attachedManaged.filterMap (fun m => documentOf R policies m.policyArn) ++
    inl.filterMap fun n => R.decodePolicyDocument n.policyDocument

/-- The name and the ARN of each policy a principal holds. -/
def heldNames : List (GoString × GoString) :=
  p.attachedManaged.map (fun m => (m.policyName, m.policyArn)) ++
    inl.map fun n => (n.policyName, ("" : GoString))

/-- The document allows an escalation of AWS. -/
def DangerousAllow (doc : PolicyDoc) : Prop :=
  ∃ st, doc.Allows st ∧ ∃ a ∈ st.action, Dangerous a

/-- The name of the policy is an admin name, or has an escalation permission in it. -/
def SeenByName (name arn : GoString) : Prop :=
  isAdminPolicy R name arn = true ∨ ∃ k ∈ dangerousKeys, Whole k (Strings.toLower R.unicode name)

/-- An Allow statement of the document covers every resource and lists `*` or has a `NotAction`, or
lists an action that, trimmed and lowered, the detector catches. -/
def SeenByDocument (doc : PolicyDoc) : Prop :=
  ∃ st, doc.Allows st ∧
    (st.everyResource = true ∧
        (st.notAction ≠ [] ∨ ∃ a ∈ st.action, normalizeAction R.unicode a = "*") ∨
      ∃ a ∈ st.action, Caught (Strings.toLower R.unicode (normalizeAction R.unicode a)))

theorem not_caught_nil : ¬ Caught [] := by
  rintro ⟨-, ⟨pre, hpre, -⟩ | ⟨-, k, hk, pre, post, hnil, -⟩⟩
  · exact List.append_ne_nil_of_right_ne_nil pre (by decide) hpre.symm
  · have hk' : k = [] := by
      rw [eq_comm, List.append_assoc, List.append_eq_nil_iff, List.append_eq_nil_iff] at hnil
      exact hnil.2.1
    exact dangerousKeys_ne_nil hk hk'

theorem seen_grant {name arn : GoString} {d : Option PolicyDoc} {q : Permission}
    (hname : q.name = name)
    (hadmin : q.admin = (isAdminPolicy R name arn || ((d.map (grantOf R)).getD ⟨[], false⟩).admin))
    (hactions : q.actions = ((d.map (grantOf R)).getD ⟨[], false⟩).actions) :
    q.admin = true ∨ Escalates R.unicode q ↔
      SeenByName R name arn ∨ ∃ doc, d = some doc ∧ SeenByDocument R doc := by
  unfold Escalates
  rw [hname, hadmin, hactions, Bool.or_eq_true]
  cases d with
  | none => simp [SeenByName]
  | some doc =>
    have hact : (∃ a ∈ (policyEffect R.unicode doc).1, Caught (Strings.toLower R.unicode a)) ↔
        ∃ st, doc.Allows st ∧ ∃ a ∈ st.action,
          Caught (Strings.toLower R.unicode (normalizeAction R.unicode a)) := by
      constructor
      · rintro ⟨b, hb, hc⟩
        obtain ⟨-, st, hst, a, ha, rfl⟩ := (mem_policyEffect R.unicode).mp hb
        exact ⟨st, hst, a, ha, hc⟩
      · rintro ⟨st, hst, a, ha, hc⟩
        refine ⟨normalizeAction R.unicode a, (mem_policyEffect R.unicode).mpr
          ⟨fun hnil => ?_, st, hst, a, ha, rfl⟩, hc⟩
        rw [hnil] at hc
        exact not_caught_nil hc
    have hadm : ((some doc).map (grantOf R)).getD ⟨[], false⟩ = grantOf R doc := rfl
    have hdoc : SeenByDocument R doc ↔ (policyEffect R.unicode doc).2 = true ∨
        ∃ a ∈ (policyEffect R.unicode doc).1, Caught (Strings.toLower R.unicode a) := by
      rw [hact, admin_policyEffect, ← exists_or]
      unfold SeenByDocument
      simp only [and_or_left]
    simp only [hadm, grantOf, Option.some.injEq, exists_eq_left', hdoc, SeenByName]
    grind

/-- **The identities that are seen**, by the names and the documents of the policies held. -/
theorem seen_iff : Seen R privileged now
    (principalToIdentity R p inl (managedPolicyIndex R policies)) ↔
      (∃ n ∈ heldNames p inl, SeenByName R n.1 n.2) ∨
        ∃ doc ∈ heldDocuments R policies p inl, SeenByDocument R doc := by
  have hperms : (principalToIdentity R p inl (managedPolicyIndex R policies)).permissions =
      p.attachedManaged.map (attachedPermission R (managedPolicyIndex R policies)) ++
        inl.map (inlinePermission R) := rfl
  have hattached : ∀ m : AttachedPolicy,
      (attachedPermission R (managedPolicyIndex R policies) m).admin = true ∨
        Escalates R.unicode (attachedPermission R (managedPolicyIndex R policies) m) ↔
      SeenByName R m.policyName m.policyArn ∨
        ∃ doc, documentOf R policies m.policyArn = some doc ∧ SeenByDocument R doc := by
    intro m
    have hgrant : ((Keyed.lookup Prod.fst m.policyArn (managedPolicyIndex R policies)).map
        Prod.snd) = (documentOf R policies m.policyArn).map (grantOf R) := by
      rw [lookup_managedPolicyIndex, Option.map_map]
      rfl
    refine seen_grant R rfl ?_ ?_
    · rw [← hgrant]
      rfl
    · rw [← hgrant]
      rfl
  have hinline : ∀ n : InlinePolicy,
      (inlinePermission R n).admin = true ∨ Escalates R.unicode (inlinePermission R n) ↔
      SeenByName R n.policyName "" ∨
        ∃ doc, R.decodePolicyDocument n.policyDocument = some doc ∧ SeenByDocument R doc :=
    fun n => seen_grant R rfl rfl rfl
  have hnhi : (principalToIdentity R p inl (managedPolicyIndex R policies)).isNHI = true := rfl
  rw [seen_iff_permissions R privileged now hnhi, hperms]
  unfold heldNames heldDocuments
  simp only [List.mem_append, List.mem_map, List.mem_filterMap]
  constructor
  · rintro ⟨-, ⟨m, hm, rfl⟩ | ⟨n, hn, rfl⟩, h⟩
    · rcases (hattached m).mp h with h | ⟨doc, hd, h⟩
      · exact Or.inl ⟨_, Or.inl ⟨m, hm, rfl⟩, h⟩
      · exact Or.inr ⟨doc, Or.inl ⟨m, hm, hd⟩, h⟩
    · rcases (hinline n).mp h with h | ⟨doc, hd, h⟩
      · exact Or.inl ⟨_, Or.inr ⟨n, hn, rfl⟩, h⟩
      · exact Or.inr ⟨doc, Or.inr ⟨n, hn, hd⟩, h⟩
  · rintro (⟨-, ⟨m, hm, rfl⟩ | ⟨n, hn, rfl⟩, h⟩ | ⟨doc, ⟨m, hm, hd⟩ | ⟨n, hn, hd⟩, h⟩)
    · exact ⟨_, Or.inl ⟨m, hm, rfl⟩, (hattached m).mpr (Or.inl h)⟩
    · exact ⟨_, Or.inr ⟨n, hn, rfl⟩, (hinline n).mpr (Or.inl h)⟩
    · exact ⟨_, Or.inl ⟨m, hm, rfl⟩, (hattached m).mpr (Or.inr ⟨doc, hd, h⟩)⟩
    · exact ⟨_, Or.inr ⟨n, hn, rfl⟩, (hinline n).mpr (Or.inr ⟨doc, hd, h⟩)⟩

/-- **When no allowed escalation goes unseen.** Every Allow of an escalation in a document a principal
holds makes its identity seen, exactly when there is no such Allow, or one of the policies held is seen
by its name or by its document. -/
theorem escalation_seen_iff :
    (∀ doc ∈ heldDocuments R policies p inl, ∀ st, doc.Allows st → ∀ a ∈ st.action, Dangerous a →
      Seen R privileged now (principalToIdentity R p inl (managedPolicyIndex R policies))) ↔
    (∀ doc ∈ heldDocuments R policies p inl, ¬ DangerousAllow doc) ∨
      (∃ n ∈ heldNames p inl, SeenByName R n.1 n.2) ∨
        ∃ doc ∈ heldDocuments R policies p inl, SeenByDocument R doc := by
  rw [← seen_iff R privileged now policies p inl]
  constructor
  · intro h
    by_cases hno : ∀ doc ∈ heldDocuments R policies p inl, ¬ DangerousAllow doc
    · exact Or.inl hno
    · push Not at hno
      obtain ⟨doc, hdoc, st, hst, a, ha, hdanger⟩ := hno
      exact Or.inr (h doc hdoc st hst a ha hdanger)
  · rintro (h | h) doc hdoc st hst a ha hdanger
    · exact absurd ⟨st, hst, a, ha, hdanger⟩ (h doc hdoc)
    · exact h

/-- **An escalation spelled out is never silent**, nor is one with a star at its end only. -/
theorem seen_of_plain {doc : PolicyDoc} {st : Statement} {a : GoString}
    (hdoc : doc ∈ heldDocuments R policies p inl) (hst : doc.Allows st) (hd : Dangerous a)
    (ha : a ∈ st.action) (hplain : Plain a ∨ ∃ pre, a = pre ++ "*" ∧ Plain pre ∧ pre ≠ []) :
    Seen R privileged now (principalToIdentity R p inl (managedPolicyIndex R policies)) := by
  have hcaught : Caught (Strings.toLower R.unicode (normalizeAction R.unicode a)) := by
    rcases hplain with h | ⟨pre, rfl, h, hne⟩
    · exact caught_plain R.unicode h hd
    · exact caught_plain_star R.unicode h hne hd
  rw [seen_iff]
  exact Or.inr ⟨doc, hdoc, st, hst, Or.inr ⟨a, ha, hcaught⟩⟩

end Held

/-! ## A star on one resource -/

/-- The document of a policy that allows everything on one role. -/
def starOnOneRoleText : GoString :=
  "\x7b\"Statement\":[\x7b\"Effect\":\"Allow\",\"Action\":\"*\",\"Resource\":\"arn:aws:iam::1:role/deploy\"\x7d]\x7d"

/-- What is decoded of it. -/
def starOnOneRole : PolicyDoc :=
  ⟨[{ effect := "Allow", action := ["*"], notAction := []
      resource := ["arn:aws:iam::1:role/deploy"] }]⟩

/-- A reader of that document, and of no dates. -/
def starReader : Reader where
  unicode := Unicode.basic
  decodePolicyDocument raw := if raw = starOnOneRoleText then some starOnOneRole else none
  parseTime _ := none

/-- A role with no other policy. -/
def starRole : Principal where
  arn := "arn:aws:iam::1:role/ci"
  createDate := ""
  tags := []
  attachedManaged := []
  userPolicyList := []
  rolePolicyList := [⟨"ci-access", starOnOneRoleText⟩]
  lastUsedDate := ""

/-- **A silent escalation.** The role may do everything with one role, which includes passing it to a
service: it has no admin grant, because of the resource, and there is no alert, because of the star. -/
theorem star_silent :
    ¬ ∀ (R : Reader) (privileged : GoString → Bool) (now : Time) (policies : List ManagedPolicy)
      (p : Principal) (inl : List InlinePolicy),
      ∀ doc ∈ heldDocuments R policies p inl, ∀ st, doc.Allows st → ∀ a ∈ st.action, Dangerous a →
        Seen R privileged now (principalToIdentity R p inl (managedPolicyIndex R policies)) := by
  intro h
  have hread : starReader.decodePolicyDocument starOnOneRoleText = some starOnOneRole := by
    show (if starOnOneRoleText = starOnOneRoleText then some starOnOneRole else none) = _
    rw [if_pos rfl]
  have hdoc : starOnOneRole ∈ heldDocuments starReader [] starRole starRole.rolePolicyList :=
    List.mem_append_right _ (List.mem_filterMap.mpr ⟨_, List.mem_singleton.mpr rfl, hread⟩)
  have hseen := h starReader (fun _ => false) Time.zero [] starRole starRole.rolePolicyList
    starOnOneRole hdoc _ ⟨List.mem_singleton.mpr rfl, by decide⟩ "*"
    (List.mem_singleton.mpr rfl) ⟨"iam:passrole", by decide +kernel, by decide⟩
  rw [Seen] at hseen
  have hadmin : (principalToIdentity starReader starRole starRole.rolePolicyList
      (managedPolicyIndex starReader [])).hasAdmin = false := by decide +kernel
  have halerts : privilegeEscalation starReader.unicode ((Store.new fun _ => false).addIdentity
      (principalToIdentity starReader starRole starRole.rolePolicyList
        (managedPolicyIndex starReader []))).identities Time.zero = [] := by decide +kernel
  rw [hadmin, halerts] at hseen
  rcases hseen with h | ⟨al, hal, -⟩
  · cases h
  · cases hal

end Idryx.Aws
