import Idryx.Model
import Idryx.Lib.Keyed
import Idryx.Lib.StableSort
import Idryx.Go.Search

/-!
# The privilege-escalation detector

`internal/detect/detectors/privilege_escalation.go`: non-human identities with a grant that allows
escalation.

* `matchDangerous`, `matchDangerousAction`, `grantAlert`, `privilegeEscalation`;
* `Whole k perm`: `k` stands in `perm` as a whole word; **`hasWord_iff`**: the scan of the occurrences
  of `k` finds it exactly then;
* **`matchDangerous_exact`**: which texts match and which permission is reported, in whatever order the
  map is ranged over;
* **`isSome_matchDangerousAction`**: the actions that match; `exists_privilegeEscalation`: the
  identities alerted on.
-/

namespace Idryx

/-- The escalation permissions, and what each allows. -/
def dangerousPermissions : List (GoString × GoString) :=
  [("iam:createaccesskey", "AWS: Allow generating new access keys for users"),
    ("iam:createuserpolicy", "AWS: Allow inline user policy creation"),
    ("iam:putuserpolicy", "AWS: Allow writing inline user policies"),
    ("iam:attachuserpolicy", "AWS: Allow attaching managed user policies"),
    ("iam:attachrolepolicy", "AWS: Allow attaching managed role policies"),
    ("iam:putrolepolicy", "AWS: Allow writing inline role policies"),
    ("iam:createpolicyversion", "AWS: Allow creating new IAM policy versions"),
    ("iam:setdefaultpolicyversion", "AWS: Allow changing active IAM policy version"),
    ("iam:passrole", "AWS: Allow passing roles to AWS services"),
    ("iam:updateassumerolepolicy", "AWS: Allow updating trust relationships"),
    ("iam.serviceaccounts.getaccesstoken", "GCP: Allow acquiring short-lived SA access tokens"),
    ("iam.serviceaccounts.actas", "GCP: Allow executing operations as the service account"),
    ("iam.serviceaccounts.implicitdelegation", "GCP: Allow delegation across projects"),
    ("iam.serviceaccounts.getopenidtoken", "GCP: Allow acquiring OpenID Connect tokens"),
    ("iam.serviceaccounts.signblob", "GCP: Allow signing raw payloads"),
    ("iam.serviceaccounts.signjwt", "GCP: Allow signing JSON Web Tokens"),
    ("iam.serviceaccountkeys.create", "GCP: Allow creating new Service Account keys"),
    ("iam.serviceaccounts.setiampolicy",
      "GCP: Allow granting itself impersonation on the service account"),
    ("microsoft.authorization/roleassignments/write", "Azure: Allow creating new role assignments"),
    ("microsoft.authorization/roledefinitions/write",
      "Azure: Allow creating new custom role definitions"),
    ("microsoft.resources/deployments/write",
      "Azure: Allow running resource templates with admin privileges"),
    ("microsoft.compute/virtualmachines/runcommand/action",
      "Azure: Allow running arbitrary shell commands inside VMs")]

/-- Their names, sorted. -/
def dangerousKeys : List GoString := Strings.sort (dangerousPermissions.map Prod.fst)

/-- `dangerousPermissions[k]`. -/
def dangerousDesc (k : GoString) : Option GoString :=
  (Keyed.lookup Prod.fst k dangerousPermissions).map Prod.snd

/-- The byte cannot be part of a permission token. -/
def isPermBoundary (c : UInt8) : Bool :=
  !((0x61 ≤ c && c ≤ 0x7A) || (0x30 ≤ c && c ≤ 0x39) || c == 0x2D || c == 0x5F)

/-- The occurrence of `k` in `perm` at `idx` is bounded on both sides. -/
def bounded (perm k : GoString) (idx : Nat) : Bool :=
  (idx == 0 || isPermBoundary (perm.getD (idx - 1) 0)) &&
    (idx + k.length == perm.length || isPermBoundary (perm.getD (idx + k.length) 0))

/-- The loop over the occurrences of `k` from the one at `idx` on. -/
def scanWord (perm k : GoString) : Nat → Nat → Bool
  | 0, _ => false
  | n + 1, idx =>
    bounded perm k idx ||
      match Strings.index (perm.drop (idx + 1)) k with
      | none => false
      | some next => scanWord perm k n (idx + 1 + next)

/-- Some occurrence of `k` in `perm` is bounded on both sides. -/
def hasWord (perm k : GoString) : Bool :=
  match Strings.index perm k with
  | none => false
  | some idx => scanWord perm k (perm.length + 1) idx

/-- Whether `perm`, in lower case, refers to one of the escalation permissions, and to which. -/
def matchDangerous (perm : GoString) : Option GoString :=
  match dangerousDesc perm with
  | some desc => some desc
  | none => dangerousKeys.findSome? fun k => if hasWord perm k then dangerousDesc k else none

/-- How many of the permissions a wildcard covers are named. -/
def maxNamedInWildcard : Nat := 3

/-- The summary of a wildcard grant that covers these permissions. -/
def wildcardDesc (matched : List GoString) : GoString :=
  let suffix : GoString :=
    if maxNamedInWildcard < matched.length then
      " and " ++ Strconv.itoa (matched.length - maxNamedInWildcard) ++ " more"
    else ""
  "wildcard grant covering " ++ Strconv.itoa matched.length ++ " escalation permission(s): " ++
    Strings.join (matched.take maxNamedInWildcard) ", " ++ suffix

/-- `matchDangerous` for an action string, with a trailing wildcard expanded; a bare `*` is not
matched. -/
def matchDangerousAction (action : GoString) : Option GoString :=
  if action = "*" then none
  else
    match Strings.cutSuffix action "*" with
    | some pre =>
      let matched := dangerousKeys.filter (Strings.hasPrefix · pre)
      if matched.isEmpty then none else some (wildcardDesc matched)
    | none => matchDangerous action

/-- What the detector makes of one grant: its name first, and then its actions. -/
def grantAlert (U : Unicode) (now : Time) (id : Identity) (p : Permission) : Option Alert :=
  match matchDangerous (Strings.toLower U p.name) with
  | some desc =>
    some { detector := "privilege_escalation", identityID := id.id, severity := .high, time := now
           summary := "NHI holds dangerous escalation permission " ++ Strconv.quote U p.name ++
             " (" ++ desc ++ ")" }
  | none => p.actions.findSome? fun a =>
    (matchDangerousAction (Strings.toLower U a)).map fun desc =>
      { detector := "privilege_escalation", identityID := id.id, severity := .high, time := now
        summary := "NHI holds dangerous escalation permission " ++ Strconv.quote U a ++
          " via grant " ++ Strconv.quote U p.name ++ " (" ++ desc ++ ")" }

/-- `PrivilegeEscalation.Detect`, over the identities the graph returns. -/
def privilegeEscalation (U : Unicode) (ids : List Identity) (now : Time) : List Alert :=
  ids.flatMap fun id => if !id.isNHI then [] else id.permissions.filterMap (grantAlert U now id)

/-! ## Whole words -/

/-- `k` stands in `perm` as a whole word. -/
def Whole (k perm : GoString) : Prop :=
  ∃ pre post, perm = pre ++ k ++ post ∧ (∀ c ∈ pre.getLast?, isPermBoundary c = true) ∧
    ∀ c ∈ post.head?, isPermBoundary c = true

theorem whole_self (k : GoString) : Whole k k := ⟨[], [], by simp, by simp, by simp⟩

theorem bounded_iff (pre k post : GoString) :
    bounded (pre ++ k ++ post) k pre.length = true ↔
      (∀ c ∈ pre.getLast?, isPermBoundary c = true) ∧ ∀ c ∈ post.head?, isPermBoundary c = true := by
  have hpre : (pre.length == 0 || isPermBoundary ((pre ++ k ++ post).getD (pre.length - 1) 0)) =
      true ↔ ∀ c ∈ pre.getLast?, isPermBoundary c = true := by
    rcases List.eq_nil_or_concat pre with rfl | ⟨init, c, rfl⟩
    · simp
    · simp [List.getD_eq_getElem?_getD]
  have hpost : (pre.length + k.length == (pre ++ k ++ post).length ||
      isPermBoundary ((pre ++ k ++ post).getD (pre.length + k.length) 0)) = true ↔
        ∀ c ∈ post.head?, isPermBoundary c = true := by
    cases post with
    | nil => simp
    | cons c post => simp [List.getD_eq_getElem?_getD]
  rw [bounded, Bool.and_eq_true, hpre, hpost]

theorem whole_iff {k perm : GoString} :
    Whole k perm ↔ ∃ i ≤ perm.length, k <+: perm.drop i ∧ bounded perm k i = true := by
  constructor
  · rintro ⟨pre, post, rfl, hb⟩
    refine ⟨pre.length, by simp, ?_, (bounded_iff pre k post).mpr hb⟩
    rw [List.append_assoc, List.drop_left]
    exact List.prefix_append k post
  · rintro ⟨i, hi, ⟨post, hpost⟩, hb⟩
    have hperm : perm = perm.take i ++ k ++ post := by
      rw [List.append_assoc, hpost, List.take_append_drop]
    have hlen : (perm.take i).length = i := by
      rw [List.length_take]
      omega
    refine ⟨perm.take i, post, hperm, (bounded_iff (perm.take i) k post).mp ?_⟩
    rw [← hperm, hlen]
    exact hb

theorem le_length_of_prefix_drop {k perm : GoString} (hk : k ≠ []) {i : Nat} (h : k <+: perm.drop i) :
    i ≤ perm.length := by
  by_contra hlt
  rw [List.drop_of_length_le (by omega), List.prefix_nil] at h
  exact hk h

theorem index_after {k perm : GoString} {idx i : Nat} (hlt : idx < i) (hi : i ≤ perm.length)
    (hki : k <+: perm.drop i) :
    ∃ next, Strings.index (perm.drop (idx + 1)) k = some next ∧ idx + 1 + next ≤ i := by
  have hdrop : perm.drop i = (perm.drop (idx + 1)).drop (i - (idx + 1)) := by
    rw [List.drop_drop]
    congr 1
    omega
  rw [hdrop] at hki
  cases hnext : Strings.index (perm.drop (idx + 1)) k with
  | none =>
    refine absurd hki (Strings.index_eq_none.mp hnext _ ?_)
    rw [List.length_drop]
    omega
  | some next =>
    refine ⟨next, rfl, ?_⟩
    by_contra hle
    exact (Strings.index_eq_some.mp hnext).2.2 (i - (idx + 1)) (by omega) hki

theorem scanWord_iff {perm k : GoString} (hk : k ≠ []) : ∀ (n idx : Nat), k <+: perm.drop idx →
    perm.length < idx + n → (scanWord perm k n idx = true ↔
      ∃ i ≤ perm.length, idx ≤ i ∧ k <+: perm.drop i ∧ bounded perm k i = true)
  | 0, idx, hocc, hn => by
    have hidx := le_length_of_prefix_drop hk hocc
    omega
  | n + 1, idx, hocc, hn => by
    have hidx : idx ≤ perm.length := le_length_of_prefix_drop hk hocc
    rw [scanWord, Bool.or_eq_true]
    cases hnext : Strings.index (perm.drop (idx + 1)) k with
    | none =>
      simp only [Bool.false_eq_true, or_false]
      constructor
      · intro hb
        exact ⟨idx, hidx, le_rfl, hocc, hb⟩
      · rintro ⟨i, hi, hle, hki, hb⟩
        rcases Nat.eq_or_lt_of_le hle with rfl | hlt
        · exact hb
        · -- an occurrence further on would have been found
          obtain ⟨next, hsome, -⟩ := index_after hlt hi hki
          rw [hnext] at hsome
          cases hsome
    | some next =>
      have hat := (Strings.index_eq_some.mp hnext).2.1
      rw [List.drop_drop] at hat
      simp only
      rw [scanWord_iff hk n (idx + 1 + next) hat (by omega)]
      constructor
      · rintro (hb | ⟨i, hi, hle, hki, hb⟩)
        · exact ⟨idx, hidx, le_rfl, hocc, hb⟩
        · exact ⟨i, hi, by omega, hki, hb⟩
      · rintro ⟨i, hi, hle, hki, hb⟩
        rcases Nat.eq_or_lt_of_le hle with rfl | hlt
        · exact Or.inl hb
        · obtain ⟨next', hsome, hafter⟩ := index_after hlt hi hki
          rw [hnext, Option.some.injEq] at hsome
          exact Or.inr ⟨i, hi, by omega, hki, hb⟩

/-- **The scan finds a whole word where there is one.** -/
theorem hasWord_iff {perm k : GoString} (hk : k ≠ []) : hasWord perm k = true ↔ Whole k perm := by
  rw [whole_iff, hasWord]
  cases hidx : Strings.index perm k with
  | none =>
    rw [Strings.index_eq_none] at hidx
    simp only [Bool.false_eq_true, false_iff]
    rintro ⟨i, hi, hki, -⟩
    exact hidx i hi hki
  | some idx =>
    obtain ⟨-, hat, hfirst⟩ := Strings.index_eq_some.mp hidx
    simp only
    rw [scanWord_iff hk _ idx hat (by omega)]
    constructor
    · rintro ⟨i, hi, -, h⟩
      exact ⟨i, hi, h⟩
    · rintro ⟨i, hi, hki, hb⟩
      exact ⟨i, hi, Nat.le_of_not_lt fun hlt => hfirst i hlt hki, hki, hb⟩

/-! ## What matches -/

theorem mem_dangerousKeys {k : GoString} :
    k ∈ dangerousKeys ↔ k ∈ dangerousPermissions.map Prod.fst := List.mem_insertionSort _

theorem isSome_dangerousDesc {k : GoString} :
    (dangerousDesc k).isSome = true ↔ k ∈ dangerousKeys := by
  rw [mem_dangerousKeys, dangerousDesc, Option.isSome_map]
  cases h : Keyed.lookup Prod.fst k dangerousPermissions with
  | none =>
    rw [Keyed.lookup_eq_none] at h
    simp [h]
  | some row =>
    have hmem : k ∈ dangerousPermissions.map Prod.fst :=
      Keyed.lookup_key h ▸ List.mem_map_of_mem (Keyed.mem_of_lookup h)
    simp only [Option.isSome_some, hmem]

theorem dangerousKeys_plain {k : GoString} (hk : k ∈ dangerousKeys) :
    (∀ b ∈ k, Strings.Printable b ∧ b ≠ 0x2A) ∧ k.map Strings.lowerByte = k ∧ k ≠ [] := by
  have hall : ∀ k ∈ dangerousPermissions.map Prod.fst,
      k.all (fun b => decide (Strings.Printable b ∧ b ≠ 0x2A)) = true ∧ k.map Strings.lowerByte = k ∧ k ≠ [] := by
    decide +kernel
  obtain ⟨hbytes, hlow, hne⟩ := hall k (mem_dangerousKeys.mp hk)
  exact ⟨forall_mem_of_all hbytes, hlow, hne⟩

theorem dangerousKeys_ne_nil {k : GoString} (hk : k ∈ dangerousKeys) : k ≠ [] := (dangerousKeys_plain hk).2.2

theorem not_star_suffix {k : GoString} (hk : k ∈ dangerousKeys) : ¬ ("*" : GoString) <:+ k := fun h =>
  ((dangerousKeys_plain hk).1 0x2A (h.subset (by decide))).2 rfl

theorem isSome_matchDangerous {perm : GoString} :
    (matchDangerous perm).isSome = true ↔ ∃ k ∈ dangerousKeys, Whole k perm := by
  have hscan : (dangerousKeys.findSome? fun k => if hasWord perm k then dangerousDesc k else none).isSome
      = true ↔ ∃ k ∈ dangerousKeys, Whole k perm := by
    rw [List.findSome?_isSome_iff]
    constructor
    · rintro ⟨k, hk, h⟩
      split_ifs at h with hw
      · exact ⟨k, hk, (hasWord_iff (dangerousKeys_ne_nil hk)).mp hw⟩
      · cases h
    · rintro ⟨k, hk, hw⟩
      refine ⟨k, hk, ?_⟩
      rw [if_pos ((hasWord_iff (dangerousKeys_ne_nil hk)).mpr hw)]
      exact isSome_dangerousDesc.mpr hk
  unfold matchDangerous
  cases hd : dangerousDesc perm with
  | some desc =>
    have hkey : perm ∈ dangerousKeys := isSome_dangerousDesc.mp (by rw [hd]; rfl)
    simp only [Option.isSome_some, true_iff]
    exact ⟨perm, hkey, whole_self perm⟩
  | none => exact hscan

/-! ## Which permission is reported -/

/-- The bytes of a permission token. -/
def permToken : GoString := "abcdefghijklmnopqrstuvwxyz0123456789-_"

theorem isPermBoundary_iff (c : UInt8) : isPermBoundary c = true ↔ c ∉ permToken := by
  revert c
  exact forall_byte (by decide +kernel)

/-- `matchDangerous` where the map is ranged over in the order of `rows`. -/
def matchDangerousIn (rows : List (GoString × GoString)) (perm : GoString) : Option GoString :=
  match (Keyed.lookup Prod.fst perm rows).map Prod.snd with
  | some desc => some desc
  | none => (Strings.sort (rows.map Prod.fst)).findSome? fun k =>
    if hasWord perm k then (Keyed.lookup Prod.fst k rows).map Prod.snd else none

theorem matchDangerousIn_perm {rows : List (GoString × GoString)}
    (h : rows.Perm dangerousPermissions) : matchDangerousIn rows = matchDangerous := by
  have hnodup : (rows.map Prod.fst).Nodup :=
    (h.map Prod.fst).nodup_iff.mpr (by decide +kernel)
  have hsort : Strings.sort (rows.map Prod.fst) = dangerousKeys := Strings.sort_perm (h.map Prod.fst)
  have hdesc : ∀ k, (Keyed.lookup Prod.fst k rows).map Prod.snd = dangerousDesc k := by
    intro k
    rw [dangerousDesc, Keyed.lookup_perm h hnodup]
  funext perm
  unfold matchDangerousIn matchDangerous
  simp only [hdesc, hsort]

/-- The loop over the occurrences of `k`, at most `n` turns of it. -/
def scanLoop (perm k : GoString) : Nat → Nat → Option Bool
  | 0, _ => none
  | n + 1, idx =>
    if bounded perm k idx then some true
    else
      match Strings.index (perm.drop (idx + 1)) k with
      | none => some false
      | some next => scanLoop perm k n (idx + 1 + next)

theorem scanLoop_eq {perm k : GoString} (hk : k ≠ []) : ∀ (n idx : Nat), k <+: perm.drop idx →
    perm.length < idx + n → scanLoop perm k n idx = some (scanWord perm k n idx)
  | 0, idx, hocc, hn => by
    have hidx := le_length_of_prefix_drop hk hocc
    omega
  | n + 1, idx, hocc, hn => by
    rw [scanLoop, scanWord]
    cases hb : bounded perm k idx with
    | true => rfl
    | false =>
      cases hnext : Strings.index (perm.drop (idx + 1)) k with
      | none => rfl
      | some next =>
        obtain ⟨-, hat, -⟩ := Strings.index_eq_some.mp hnext
        rw [List.drop_drop] at hat
        simp only [Bool.false_eq_true, if_false, Bool.false_or]
        exact scanLoop_eq hk n (idx + 1 + next) hat (by omega)

theorem scanLoop_hasWord {perm k : GoString} (hk : k ≠ []) {idx : Nat}
    (hidx : Strings.index perm k = some idx) {n : Nat} (hn : perm.length < n) :
    scanLoop perm k n idx = some (hasWord perm k) := by
  obtain ⟨-, hat, -⟩ := Strings.index_eq_some.mp hidx
  have hscan : hasWord perm k = scanWord perm k (perm.length + 1) idx := by rw [hasWord, hidx]
  rw [scanLoop_eq hk n idx hat (by omega), hscan, Option.some.injEq, Bool.eq_iff_iff,
    scanWord_iff hk n idx hat (by omega), scanWord_iff hk _ idx hat (by omega)]

theorem whole_iff_permToken {k perm : GoString} : Whole k perm ↔
    ∃ pre post, perm = pre ++ k ++ post ∧ (∀ c ∈ pre.getLast?, c ∉ permToken) ∧
      ∀ c ∈ post.head?, c ∉ permToken := by
  simp only [Whole, isPermBoundary_iff]

/-- The permission reported is that of the text itself, or of the first key that is a whole word of
it. -/
theorem matchDangerous_eq_some {perm desc : GoString} : matchDangerous perm = some desc ↔
    dangerousDesc perm = some desc ∨ perm ∉ dangerousKeys ∧ ∃ k ∈ dangerousKeys, Whole k perm ∧
      dangerousDesc k = some desc ∧ ∀ k' ∈ dangerousKeys, Whole k' perm → k ≤ k' := by
  have hword : ∀ {k}, k ∈ dangerousKeys → (hasWord perm k = true ↔ Whole k perm) :=
    fun hk => hasWord_iff (dangerousKeys_ne_nil hk)
  unfold matchDangerous
  cases hd : dangerousDesc perm with
  | some d =>
    have hkey : perm ∈ dangerousKeys := isSome_dangerousDesc.mp (by rw [hd]; rfl)
    simp [hkey]
  | none =>
    have hkey : perm ∉ dangerousKeys := by
      rw [← isSome_dangerousDesc, hd]
      exact Bool.false_ne_true
    have hsome : ∀ k ∈ dangerousKeys,
        ((if hasWord perm k then dangerousDesc k else none).isSome = true ↔ Whole k perm) := by
      intro k hk
      rw [← hword hk]
      split_ifs with hw
      · simp [hw, isSome_dangerousDesc.mpr hk]
      · simp [hw]
    have hsorted : dangerousKeys.Pairwise (· ≤ ·) := Strings.pairwise_sort _
    simp only [reduceCtorEq, false_or]
    rw [StableSort.findSome?_eq_some_iff (· ≤ ·) hsorted]
    constructor
    · rintro ⟨k, hk, hf, hleast⟩
      have hw : Whole k perm := (hsome k hk).mp (by rw [hf]; rfl)
      rw [if_pos ((hword hk).mpr hw)] at hf
      exact ⟨hkey, k, hk, hw, hf, fun k' hk' hw' => hleast k' hk' ((hsome k' hk').mpr hw')⟩
    · rintro ⟨-, k, hk, hw, hf, hleast⟩
      refine ⟨k, hk, ?_, fun k' hk' h => hleast k' hk' ((hsome k' hk').mp h)⟩
      rw [if_pos ((hword hk).mpr hw)]
      exact hf

/-- **Exact words.** A text matches when it is an escalation permission or one stands in it with no
byte of a permission token beside it; the permission reported is the text's own, or the first in
sorted order that stands in it so, whatever the order of the map; and the loop over the occurrences of
a permission ends. -/
theorem matchDangerous_exact (perm : GoString) :
    ((matchDangerous perm).isSome = true ↔
      perm ∈ dangerousPermissions.map Prod.fst ∨
      ∃ k ∈ dangerousPermissions.map Prod.fst, ∃ pre post, perm = pre ++ k ++ post ∧
        (∀ c ∈ pre.getLast?, c ∉ permToken) ∧ ∀ c ∈ post.head?, c ∉ permToken) ∧
    (∀ desc, matchDangerous perm = some desc ↔
      dangerousDesc perm = some desc ∨ perm ∉ dangerousKeys ∧ ∃ k ∈ dangerousKeys, Whole k perm ∧
        dangerousDesc k = some desc ∧ ∀ k' ∈ dangerousKeys, Whole k' perm → k ≤ k') ∧
    (∀ rows, rows.Perm dangerousPermissions → matchDangerousIn rows perm = matchDangerous perm) ∧
    ∀ k ∈ dangerousKeys, ∀ idx, Strings.index perm k = some idx → ∀ n, perm.length < n →
      scanLoop perm k n idx = some (hasWord perm k) := by
  refine ⟨?_, fun desc => matchDangerous_eq_some, fun rows h => ?_, ?_⟩
  · rw [isSome_matchDangerous]
    simp only [← mem_dangerousKeys, ← whole_iff_permToken]
    constructor
    · exact Or.inr
    · rintro (h | h)
      · exact ⟨perm, h, whole_self perm⟩
      · exact h
  · rw [matchDangerousIn_perm h]
  · intro k hk idx hidx n hn
    exact scanLoop_hasWord (dangerousKeys_ne_nil hk) hidx hn

/-- The action is a prefix of an escalation permission followed by a star, or does not end in a star
and has an escalation permission in it as a whole word. -/
def Caught (action : GoString) : Prop :=
  action ≠ "*" ∧ ((∃ pre, action = pre ++ "*" ∧ ∃ k ∈ dangerousKeys, pre <+: k) ∨
    (¬ ("*" : GoString) <:+ action) ∧ ∃ k ∈ dangerousKeys, Whole k action)

/-- **The actions that match.** -/
theorem isSome_matchDangerousAction {action : GoString} :
    (matchDangerousAction action).isSome = true ↔ Caught action := by
  unfold matchDangerousAction Caught
  by_cases hstar : action = "*"
  · simp [hstar]
  rw [if_neg hstar]
  by_cases hsuf : ("*" : GoString) <:+ action
  · obtain ⟨pre, rfl⟩ := hsuf
    have hmatched : (dangerousKeys.filter (Strings.hasPrefix · pre)).isEmpty = false ↔
        ∃ k ∈ dangerousKeys, pre <+: k := by
      rw [← Bool.not_eq_true, List.isEmpty_iff, List.filter_eq_nil_iff]
      simp [Strings.hasPrefix]
    have hsame : (∃ q, pre ++ ("*" : GoString) = q ++ "*" ∧ ∃ k ∈ dangerousKeys, q <+: k) ↔
        ∃ k ∈ dangerousKeys, pre <+: k := by
      constructor
      · rintro ⟨q, hq, h⟩
        rw [List.append_cancel_right hq]
        exact h
      · intro h
        exact ⟨pre, rfl, h⟩
    rw [Strings.cutSuffix_append, hsame, ← hmatched]
    cases hempty : (dangerousKeys.filter (Strings.hasPrefix · pre)).isEmpty with
    | true => simp [hempty]
    | false => simp [hempty, hstar]
  · have hno : ¬ ∃ pre, action = pre ++ ("*" : GoString) ∧ ∃ k ∈ dangerousKeys, pre <+: k := by
      rintro ⟨pre, rfl, -⟩
      exact hsuf (List.suffix_append pre _)
    rw [Strings.cutSuffix_eq_none.mpr hsuf]
    simp only [isSome_matchDangerous, hno, false_or]
    exact ⟨fun h => ⟨hstar, hsuf, h⟩, fun h => h.2.2⟩

/-- The grant's name has an escalation permission in it, or one of its actions matches. -/
def Escalates (U : Unicode) (p : Permission) : Prop :=
  (∃ k ∈ dangerousKeys, Whole k (Strings.toLower U p.name)) ∨
    ∃ a ∈ p.actions, Caught (Strings.toLower U a)

theorem isSome_grantAlert (U : Unicode) (now : Time) (id : Identity) (p : Permission) :
    (grantAlert U now id p).isSome = true ↔ Escalates U p := by
  unfold grantAlert Escalates
  rw [← isSome_matchDangerous]
  cases matchDangerous (Strings.toLower U p.name) with
  | some desc => simp
  | none => simp [List.findSome?_isSome_iff, isSome_matchDangerousAction]

theorem grantAlert_identityID {U : Unicode} {now : Time} {id : Identity} {p : Permission} {al : Alert}
    (h : grantAlert U now id p = some al) : al.identityID = id.id := by
  unfold grantAlert at h
  cases hm : matchDangerous (Strings.toLower U p.name) with
  | some desc =>
    rw [hm] at h
    rw [← Option.some.inj h]
  | none =>
    rw [hm] at h
    obtain ⟨a, -, ha⟩ := List.exists_of_findSome?_eq_some h
    obtain ⟨desc, -, rfl⟩ := Option.map_eq_some_iff.mp ha
    rfl

/-- **The identities alerted on** are the non-human ones with a grant that escalates. -/
theorem exists_privilegeEscalation {U : Unicode} {ids : List Identity} {now : Time} {j : GoString} :
    (∃ al ∈ privilegeEscalation U ids now, al.identityID = j) ↔
      ∃ i ∈ ids, i.id = j ∧ i.isNHI = true ∧ ∃ p ∈ i.permissions, Escalates U p := by
  constructor
  · rintro ⟨al, hal, rfl⟩
    obtain ⟨i, hi, hali⟩ := List.mem_flatMap.mp hal
    by_cases hnhi : i.isNHI = true
    · simp only [hnhi, Bool.not_true, Bool.false_eq_true, if_false] at hali
      obtain ⟨p, hp, hpa⟩ := List.mem_filterMap.mp hali
      refine ⟨i, hi, (grantAlert_identityID hpa).symm, hnhi, p, hp,
        (isSome_grantAlert U now i p).mp ?_⟩
      rw [hpa]
      rfl
    · simp only [hnhi] at hali
      cases hali
  · rintro ⟨i, hi, rfl, hnhi, p, hp, hesc⟩
    obtain ⟨al, hal⟩ := Option.isSome_iff_exists.mp
      ((isSome_grantAlert U now i p).mpr hesc)
    refine ⟨al, List.mem_flatMap.mpr ⟨i, hi, ?_⟩, grantAlert_identityID hal⟩
    simp only [hnhi, Bool.not_true, Bool.false_eq_true, if_false]
    exact List.mem_filterMap.mpr ⟨p, hp, hal⟩

end Idryx
