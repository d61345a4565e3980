import Idryx.Graph.Grants

/-!
# The least-privilege detector

`internal/detect/detectors/least_privilege.go`: identities with grants that were exercised and grants
that never were.

* `audit`, `leastPrivilegeAlert`, `leastPrivilege`; **`audit_eq`**: what the loop over the grants leaves;
* **`Store.not_mem_unused_run`**: a grant reported used is not listed, whatever else is reported.
-/

namespace Idryx

/-- What the loop over the permissions keeps. -/
structure Audit where
  hasUsage : Bool
  unused : List GoString
  unusedAdmin : Bool

/-- One turn of it. -/
def auditStep (a : Audit) (p : Permission) : Audit :=
  if p.used then { a with hasUsage := true }
  else
    { a with
      unused := a.unused ++ [p.name]
      unusedAdmin := if p.admin then true else a.unusedAdmin }

/-- The loop over the grants of an identity. -/
def audit (id : Identity) : Audit := id.permissions.foldl auditStep ⟨false, [], false⟩

/-- The text of an alert. -/
def leastPrivilegeSummary (unused : List GoString) (granted : Nat) : GoString :=
  Strconv.itoa unused.length ++ "/" ++ Strconv.itoa granted ++
    " granted permissions unused, recommend revoking: " ++ Strings.join (Strings.sort unused) ", "

/-- What the detector makes of one identity. -/
def leastPrivilegeAlert (now : Time) (id : Identity) : Option Alert :=
  if id.permissions.isEmpty then none
  else
    let a := audit id
    if !a.hasUsage || a.unused.isEmpty then none
    else some
      { detector := "least_privilege"
        identityID := id.id
        severity := if a.unusedAdmin then .high else .medium
        time := now
        summary := leastPrivilegeSummary a.unused id.permissions.length }

/-- `LeastPrivilege.Detect`, over the identities the graph returns. -/
def leastPrivilege (ids : List Identity) (now : Time) : List Alert :=
  ids.filterMap (leastPrivilegeAlert now)

/-! ## What is listed -/

/-- The grants that are not marked used. -/
def Identity.unused (i : Identity) : List Permission := i.permissions.filter fun p => !p.used

/-- **What the loop leaves**: the names of the grants not marked used, in order. -/
theorem audit_eq (i : Identity) : audit i =
    ⟨i.permissions.any Permission.used, i.unused.map Permission.name,
      i.unused.any Permission.admin⟩ := by
  have hrun : ∀ (ps : List Permission) (a : Audit), ps.foldl auditStep a =
      ⟨a.hasUsage || ps.any Permission.used,
        a.unused ++ (ps.filter fun p => !p.used).map Permission.name,
        a.unusedAdmin || (ps.filter fun p => !p.used).any Permission.admin⟩ := by
    intro ps
    induction ps with
    | nil => intro a; simp
    | cons p ps ih =>
      intro a
      rw [List.foldl_cons, ih]
      unfold auditStep
      cases hp : p.used with
      | false => cases hadm : p.admin <;> simp [hp, hadm]
      | true => simp [hp]
  exact hrun i.permissions ⟨false, [], false⟩

theorem Identity.bothKinds_eq_some {α : Type*} {i : Identity} {x y : α} :
    (if i.permissions.isEmpty then none
      else if !i.permissions.any Permission.used || i.unused.isEmpty then none else some x) = some y ↔
      (∃ p ∈ i.permissions, p.used = true) ∧ i.unused ≠ [] ∧ y = x := by
  by_cases hused : ∃ p ∈ i.permissions, p.used = true
  · obtain ⟨p, hp, hpused⟩ := hused
    have hnil : i.permissions ≠ [] := List.ne_nil_of_mem hp
    have hany : i.permissions.any Permission.used = true := List.any_eq_true.mpr ⟨p, hp, hpused⟩
    by_cases hun : i.unused = []
    · simp [hnil, hany, hun]
    · rw [eq_comm (a := y)]
      simp only [List.isEmpty_iff, hnil, hany, hun, Bool.not_true, Bool.false_or, if_false, Option.some.injEq]
      exact ⟨fun h => ⟨⟨p, hp, hpused⟩, hun, h⟩, fun h => h.2.2⟩
  · have hany : i.permissions.any Permission.used = false := by
      rw [Bool.eq_false_iff]
      exact fun h => hused (List.any_eq_true.mp h)
    simp [hany, hused]

theorem leastPrivilegeAlert_eq_some {i : Identity} {now : Time} {al : Alert} :
    leastPrivilegeAlert now i = some al ↔ (∃ p ∈ i.permissions, p.used = true) ∧ i.unused ≠ [] ∧
      al = { detector := "least_privilege", identityID := i.id
             severity := if i.unused.any Permission.admin then .high else .medium
             time := now
             summary := leastPrivilegeSummary (i.unused.map Permission.name) i.permissions.length } := by
  rw [leastPrivilegeAlert, audit_eq]
  dsimp only
  rw [List.isEmpty_map]
  exact Identity.bothKinds_eq_some

theorem mem_leastPrivilege {ids : List Identity} {now : Time} {al : Alert} :
    al ∈ leastPrivilege ids now ↔ ∃ i ∈ ids, (∃ p ∈ i.permissions, p.used = true) ∧ i.unused ≠ [] ∧
      al = { detector := "least_privilege", identityID := i.id
             severity := if i.unused.any Permission.admin then .high else .medium
             time := now
             summary := leastPrivilegeSummary (i.unused.map Permission.name) i.permissions.length } := by
  unfold leastPrivilege
  rw [List.mem_filterMap]
  exact exists_congr fun i => and_congr_right fun _ => leastPrivilegeAlert_eq_some

/-! ## Used in the graph -/

namespace Store

theorem used_mergePermission (name : GoString) (d p : Permission) (h : d.name = p.name) :
    (mergePermission d p).name = name ∧ (mergePermission d p).used = true ↔
      (d.name = name ∧ d.used = true) ∨ p.name = name ∧ p.used = true := by
  change d.name = name ∧ (d.used || p.used) = true ↔ _
  rw [Bool.or_eq_true, ← h, and_or_left]

theorem grants_used_run (privileged : GoString → Bool) {xs : List Op} {i : Identity} {p : Permission}
    (hi : i ∈ Op.identities xs) (hp : p ∈ i.permissions) (hused : p.used = true) :
    ((Store.new privileged).run xs).Grants i.id fun q => q.name = p.name ∧ q.used = true :=
  grants_run (used_mergePermission p.name) (Or.inr ⟨i, hi, rfl, p, hp, rfl, hused⟩)

/-- **A grant reported used is not listed** in any graph that the report was added to. -/
theorem not_mem_unused_run {privileged : GoString → Bool} {xs : List Op} {i j : Identity}
    {p : Permission} (hi : i ∈ Op.identities xs) (hp : p ∈ i.permissions) (hused : p.used = true)
    (hj : j ∈ ((Store.new privileged).run xs).identities) (hid : j.id = i.id) :
    p.name ∉ j.unused.map Permission.name := by
  have hnew : (Store.new privileged).GrantsApart := fun id k hk => by cases hk
  have happart := grantsApart_run hnew xs
  obtain ⟨n, hn, q, hq, hname, hqused⟩ := grants_used_run privileged hi hp hused
  obtain ⟨m, hm, rfl⟩ := mem_identities.mp hj
  have hfind : ((Store.new privileged).run xs).find i.id = some m :=
    hid ▸ Keyed.lookup_of_mem ((Store.new privileged).run xs).nodup hm
  obtain rfl : n = m := Option.some.inj (hn.symm.trans hfind)
  intro hmem
  obtain ⟨r, hr, hrname⟩ := List.mem_map.mp hmem
  obtain ⟨hr, hrused⟩ := List.mem_filter.mp hr
  have hsame : q = r := List.inj_on_of_nodup_map (happart i.id n hfind) hq hr (hname.trans hrname.symm)
  rw [← hsame, hqused] at hrused
  cases hrused

end Store

end Idryx
