import Idryx.Remediation.Rotation
import Idryx.Go.Json.Write
import Idryx.Go.Numerals
import Idryx.Lib.Fresh
import Idryx.Lib.LastWrite

/-!
# The written artifacts

`internal/remediation/artifacts.go`: a file for each recommendation, and an index of them.

* `sanitizeName`, `artifactName`, `Disk`, `writeArtifacts`;
* `content`: what a file holds after some writes;
* **`writeArtifacts_eq`**: what is written, up to the first write that fails; `writeArtifacts_ok_iff`: when none
  fails;
* `Complete`: every recommendation has a file of its own, and the index lists them in order;
* **`writeArtifacts_complete`**.
-/

namespace Idryx.Remediation

open LastWrite (Dict)

/-! ## Names -/

/-- A rune that a name keeps. -/
def safeRune (r : ℕ) : Bool :=
  (0x61 ≤ r && r ≤ 0x7A) || (0x41 ≤ r && r ≤ 0x5A) || (0x30 ≤ r && r ≤ 0x39) || r == 0x2E || r == 0x2D || r == 0x5F

/-- `SanitizeName`. -/
def sanitizeName (id : GoString) : GoString :=
  (Utf8.runes id).map fun p => if safeRune p.1 then UInt8.ofNat p.1 else 0x5F

/-- The names that are tried for a recommendation: first without a number, then numbered from two. -/
def artifactName (rem : Recommendation) : ℕ → GoString
  | 0 => rem.kind ++ "__" ++ sanitizeName rem.identityID ++ ".tf"
  | k + 1 => rem.kind ++ "__" ++ sanitizeName rem.identityID ++ "_" ++ Strconv.itoa (k + 2) ++ ".tf"

/-! ## Writing -/

/-- The entry of `manifest.json` for a file. -/
structure Artifact where
  identity : GoString
  kind : GoString
  file : GoString
  explanation : GoString

/-- The entry of a recommendation in the index. -/
def Recommendation.artifact (rem : Recommendation) (file : GoString) : Artifact :=
  ⟨rem.identityID, rem.kind, file, rem.explanation⟩

/-- An entry as it is written. -/
def Artifact.json (a : Artifact) : Json :=
  .obj [("identity", .str a.identity), ("kind", .str a.kind), ("file", .str a.file), ("explanation", .str a.explanation)]

/-- The file of the index. -/
def manifestFile : GoString := "manifest.json"

/-- The index as it is written. -/
def manifestJson (manifest : List Artifact) : Json := .arr (manifest.map Artifact.json)

/-- What goes wrong with a directory: the error of `MkdirAll`, and of the write of each file. -/
structure Disk where
  mkdirErr : Option GoString
  writeErr : GoString → Option GoString

/-- What was written, in order, and what the caller gets. -/
structure Outcome where
  writes : List (GoString × GoString)
  result : Except GoString (List Artifact)

/-- The loop over the recommendations; `none` where no write failed. -/
def writeEach (D : Disk) : List GoString → List Recommendation →
    List (GoString × GoString) × List Artifact × Option GoString
  | _, [] => ([], [], none)
  | used, rem :: recs =>
    let name := Fresh.first used (artifactName rem)
    match D.writeErr name with
    | some err => ([], [], some err)
    | none =>
      let (writes, manifest, err) := writeEach D (name :: used) recs
      ((name, rem.code ++ "\n") :: writes, rem.artifact name :: manifest, err)

/-- `WriteArtifacts`. -/
def writeArtifacts (D : Disk) (recs : List Recommendation) : Outcome :=
  match D.mkdirErr with
  | some err => ⟨[], .error err⟩
  | none =>
    match writeEach D [] recs with
    | (writes, _, some err) => ⟨writes, .error err⟩
    | (writes, manifest, none) =>
      match D.writeErr manifestFile with
      | some err => ⟨writes, .error err⟩
      | none => ⟨writes ++ [(manifestFile, Json.encode (manifestJson manifest))], .ok manifest⟩

/-- The names of the files, each the first of its recommendation that is not used. -/
def fileNames (used : List GoString) (recs : List Recommendation) : List GoString :=
  Fresh.assign artifactName used recs

/-- What the files of an empty directory hold after these writes. -/
def content (writes : List (GoString × GoString)) : Dict GoString GoString := Dict.empty.sets some writes

/-- The recommendation is one that `Generate` or `GenerateRotation` makes. -/
def Produced (U : Unicode) (days : Ages) (rem : Recommendation) : Prop :=
  ∃ id, generate U id = some rem ∨ ∃ now, generateRotation U days now id = some rem

/-- A byte of a name that every file system takes as it is. -/
def safeByte (b : UInt8) : Bool := safeRune b.toNat

/-- Every recommendation has a file of its own with its code, and the index lists them all in order. -/
structure Complete (recs : List Recommendation) (writes : List (GoString × GoString)) (manifest : List Artifact) :
    Prop where
  entries : List.Forall₂ (fun rem a => a = rem.artifact a.file ∧ content writes a.file = some (rem.code ++ ("\n" : GoString)))
    recs manifest
  index : content writes manifestFile = some (Json.encode (manifestJson manifest))
  listed : Json.parse (Json.encode (manifestJson manifest)) =
    some (Json.mapStr Utf8.replaceInvalid (manifestJson manifest))

/-- What `WriteArtifacts` does with a list of recommendations. -/
structure Written (D : Disk) (recs : List Recommendation) : Prop where
  ends : ∀ rem ∈ recs, ∀ used : List GoString, ∃ name ∉ used, ∀ tries, used.length < tries →
    Fresh.search used (artifactName rem) tries 0 = some name
  succeeds : (∃ manifest, (writeArtifacts D recs).result = .ok manifest) ↔
    D.mkdirErr = none ∧ ∀ name ∈ fileNames [] recs ++ [manifestFile], D.writeErr name = none
  distinct : ((writeArtifacts D recs).writes.map Prod.fst).Nodup
  contained : ∀ w ∈ (writeArtifacts D recs).writes, (∀ b ∈ w.1, safeByte b = true) ∧ (0x2F : UInt8) ∉ w.1
  complete : ∀ manifest, (writeArtifacts D recs).result = .ok manifest →
    Complete recs (writeArtifacts D recs).writes manifest ∧ ∀ a ∈ manifest, a.file ≠ manifestFile

/-! ## The names are safe -/

theorem artifactName_injective (rem : Recommendation) : Function.Injective (artifactName rem) := by
  intro j k h
  cases j with
  | zero =>
    cases k with
    | zero => rfl
    | succ k =>
      have hlen := congrArg List.length h
      simp only [artifactName, List.length_append] at hlen
      have hone : ("_" : GoString).length = 1 := rfl
      omega
  | succ j =>
    cases k with
    | zero =>
      have hlen := congrArg List.length h
      simp only [artifactName, List.length_append] at hlen
      have hone : ("_" : GoString).length = 1 := rfl
      omega
    | succ k =>
      have hitoa := List.append_cancel_left (List.append_cancel_right h)
      have hvalue : j + 2 = k + 2 := by
        rw [← Strconv.decimal_itoa (j + 2), hitoa, Strconv.decimal_itoa]
      rw [Nat.add_right_cancel hvalue]

theorem safe_sanitizeName (id : GoString) : ∀ b ∈ sanitizeName id, safeByte b = true := by
  intro b hb
  obtain ⟨p, -, rfl⟩ := List.mem_map.mp hb
  split_ifs with hsafe
  · have hle : p.1 < 256 := by
      unfold safeRune at hsafe
      simp only [Bool.or_eq_true, Bool.and_eq_true, decide_eq_true_eq, beq_iff_eq] at hsafe
      omega
    rw [safeByte, UInt8.toNat_ofNat_of_lt' hle]
    exact hsafe
  · decide

theorem safe_itoa (n : ℕ) : ∀ b ∈ Strconv.itoa n, safeByte b = true := by
  intro b hb
  obtain ⟨hlo, hhi⟩ := Strconv.digit_of_mem_itoa hb
  unfold safeByte safeRune
  simp [hlo, hhi]

theorem kind_of_produced {U : Unicode} {days : Ages} {rem : Recommendation} (h : Produced U days rem) :
    rem.kind = "right_size" ∨ rem.kind = "rotation" := by
  obtain ⟨id, hsize | ⟨now, hrotation⟩⟩ := h
  · obtain ⟨-, -, rfl⟩ := generate_eq_some.mp hsize
    exact Or.inl rfl
  · obtain ⟨-, -, -, code, -, rfl⟩ := generateRotation_eq_some.mp hrotation
    exact Or.inr rfl

theorem safe_artifactName {rem : Recommendation} (h : rem.kind = "right_size" ∨ rem.kind = "rotation") (k : ℕ) :
    ∀ b ∈ artifactName rem k, safeByte b = true := by
  have hkind : ∀ b ∈ rem.kind, safeByte b = true := by
    rcases h with h | h <;> rw [h] <;> exact forall_mem_of_all (by decide)
  have hlow : ∀ b ∈ ("__" : GoString), safeByte b = true := forall_mem_of_all (by decide)
  have hone : ∀ b ∈ ("_" : GoString), safeByte b = true := forall_mem_of_all (by decide)
  have htf : ∀ b ∈ (".tf" : GoString), safeByte b = true := forall_mem_of_all (by decide)
  cases k with
  | zero =>
    simp only [artifactName, List.forall_mem_append]
    exact ⟨⟨⟨hkind, hlow⟩, safe_sanitizeName _⟩, htf⟩
  | succ k =>
    simp only [artifactName, List.forall_mem_append]
    exact ⟨⟨⟨⟨⟨hkind, hlow⟩, safe_sanitizeName _⟩, hone⟩, safe_itoa _⟩, htf⟩

theorem artifactName_ne_manifestFile (rem : Recommendation) (k : ℕ) : artifactName rem k ≠ manifestFile := by
  have hlast : (artifactName rem k).getLast? = some 0x66 := by
    cases k with
    | zero => exact List.getLast?_append_of_ne_nil _ (by decide)
    | succ k => exact List.getLast?_append_of_ne_nil _ (by decide)
  intro h
  rw [h] at hlast
  exact absurd hlast (by decide)

/-! ## What is written -/

/-- The file of a recommendation. -/
def fileOf (rem : Recommendation) (name : GoString) : GoString × GoString := (name, rem.code ++ "\n")

/-- **What the loop writes**: the files in order, up to the first that fails; all of them and their entries if
none does. -/
theorem writeEach_eq (D : Disk) : ∀ (used : List GoString) (recs : List Recommendation),
    (writeEach D used recs).1 <+: List.zipWith fileOf recs (fileNames used recs) ∧
      ((writeEach D used recs).2.2 = none →
        (writeEach D used recs).1 = List.zipWith fileOf recs (fileNames used recs) ∧
        (writeEach D used recs).2.1 = List.zipWith Recommendation.artifact recs (fileNames used recs))
  | _, [] => ⟨List.prefix_refl _, fun _ => ⟨rfl, rfl⟩⟩
  | used, rem :: recs => by
    obtain ⟨hinit, hall⟩ := writeEach_eq D (Fresh.first used (artifactName rem) :: used) recs
    unfold writeEach
    dsimp only
    cases D.writeErr (Fresh.first used (artifactName rem)) with
    | some err => exact ⟨List.nil_prefix, fun h => absurd h (by simp)⟩
    | none =>
      refine ⟨(List.prefix_cons_inj _).mpr hinit, fun hnone => ?_⟩
      obtain ⟨hwrites, hmanifest⟩ := hall hnone
      exact ⟨congrArg (List.cons _) hwrites, congrArg (List.cons _) hmanifest⟩

theorem writeEach_none_iff (D : Disk) : ∀ (used : List GoString) (recs : List Recommendation),
    (writeEach D used recs).2.2 = none ↔ ∀ name ∈ fileNames used recs, D.writeErr name = none
  | _, [] => iff_of_true rfl fun _ h => absurd h List.not_mem_nil
  | used, rem :: recs => by
    have ih := writeEach_none_iff D (Fresh.first used (artifactName rem) :: used) recs
    have hnames : fileNames used (rem :: recs) = Fresh.first used (artifactName rem) ::
        fileNames (Fresh.first used (artifactName rem) :: used) recs := rfl
    rw [hnames, List.forall_mem_cons, writeEach, ← ih]
    dsimp only
    cases D.writeErr (Fresh.first used (artifactName rem)) with
    | some err => simp
    | none => exact (and_iff_right rfl).symm

/-- The index as it is written. -/
def manifestText (manifest : List Artifact) : GoString := Json.encode (manifestJson manifest)

/-- **What is written**: the files in order and then the index, up to the first write that fails. -/
theorem writeArtifacts_eq (D : Disk) (recs : List Recommendation) :
    (writeArtifacts D recs).writes <+: List.zipWith fileOf recs (fileNames [] recs) ++
        [(manifestFile, manifestText (List.zipWith Recommendation.artifact recs (fileNames [] recs)))] ∧
      ∀ manifest, (writeArtifacts D recs).result = .ok manifest →
        manifest = List.zipWith Recommendation.artifact recs (fileNames [] recs) ∧
        (writeArtifacts D recs).writes = List.zipWith fileOf recs (fileNames [] recs) ++
          [(manifestFile, manifestText manifest)] := by
  obtain ⟨hinit, hall⟩ := writeEach_eq D [] recs
  unfold writeArtifacts
  cases D.mkdirErr with
  | some err => exact ⟨List.nil_prefix, fun _ h => absurd h (by rintro ⟨⟩)⟩
  | none =>
    generalize writeEach D [] recs = run at hinit hall
    obtain ⟨writes, manifest, err⟩ := run
    cases err with
    | some err => exact ⟨hinit.trans (List.prefix_append _ _), fun _ h => absurd h (by rintro ⟨⟩)⟩
    | none =>
      obtain ⟨rfl, rfl⟩ := hall rfl
      dsimp only
      cases D.writeErr manifestFile with
      | some err => exact ⟨List.prefix_append _ _, fun _ h => absurd h (by rintro ⟨⟩)⟩
      | none =>
        refine ⟨List.prefix_refl _, fun manifest h => ?_⟩
        obtain rfl := Except.ok.inj h
        exact ⟨rfl, rfl⟩

/-- **When it succeeds**: the directory is made and no write fails. -/
theorem writeArtifacts_ok_iff (D : Disk) (recs : List Recommendation) :
    (∃ manifest, (writeArtifacts D recs).result = .ok manifest) ↔
      D.mkdirErr = none ∧ ∀ name ∈ fileNames [] recs ++ [manifestFile], D.writeErr name = none := by
  have hloop := writeEach_none_iff D [] recs
  rw [List.forall_mem_append, List.forall_mem_singleton, ← hloop]
  unfold writeArtifacts
  cases D.mkdirErr with
  | some err => simp
  | none =>
    generalize writeEach D [] recs = run
    obtain ⟨writes, manifest, err⟩ := run
    cases err with
    | some err => simp
    | none =>
      dsimp only
      cases D.writeErr manifestFile with
      | some err => simp
      | none => exact iff_of_true ⟨manifest, rfl⟩ ⟨rfl, rfl, rfl⟩

theorem names_of_files : ∀ (recs : List Recommendation) {names : List GoString}, names.length = recs.length →
    (List.zipWith fileOf recs names).map Prod.fst = names ∧
      (List.zipWith Recommendation.artifact recs names).map Artifact.file = names
  | [], [], _ => ⟨rfl, rfl⟩
  | rem :: recs, name :: names, h => by
    obtain ⟨hfiles, hentries⟩ := names_of_files recs (Nat.succ.inj h)
    exact ⟨congrArg (List.cons name) hfiles, congrArg (List.cons name) hentries⟩

theorem entries_of_files {held : Dict GoString GoString} : ∀ {recs : List Recommendation} {names : List GoString},
    names.length = recs.length → (∀ x ∈ List.zipWith fileOf recs names, held x.1 = some x.2) →
    List.Forall₂ (fun rem a => a = rem.artifact a.file ∧ held a.file = some (rem.code ++ ("\n" : GoString))) recs
      (List.zipWith Recommendation.artifact recs names)
  | [], [], _, _ => .nil
  | rem :: _, name :: _, hlen, hheld =>
    .cons ⟨rfl, hheld (fileOf rem name) List.mem_cons_self⟩
      (entries_of_files (Nat.succ.inj hlen) fun x hx => hheld x (List.mem_cons_of_mem _ hx))

theorem content_of_mem {writes : List (GoString × GoString)} (hnodup : (writes.map Prod.fst).Nodup)
    {file text : GoString} (h : (file, text) ∈ writes) : content writes file = some text := by
  have hunique : ∀ x ∈ writes, ∀ y ∈ writes, ∀ v w, LastWrite.Gives some file x v → LastWrite.Gives some file y w →
      v = w := by
    rintro x hx y hy v w hxv hyw
    obtain rfl := Option.some.inj hxv
    obtain rfl := Option.some.inj hyw
    exact congrArg Prod.snd (List.inj_on_of_nodup_map hnodup hx hy rfl)
  rw [content, LastWrite.sets_eq_some_iff, LastWrite.last_iff_of_unique hunique]
  exact Or.inl ⟨_, h, rfl⟩

/-- **The index is read back**, with the invalid bytes of its texts replaced. -/
theorem parse_manifest (manifest : List Artifact) :
    Json.parse (manifestText manifest) = some (Json.mapStr Utf8.replaceInvalid (manifestJson manifest)) := by
  refine Json.parse_encode ?_ fun text htext => ?_
  · have hentry : ∀ x ∈ manifest.map Artifact.json, Json.depth x ≤ 1 := by
      simp only [List.forall_mem_map]
      exact fun a _ => by simp [Artifact.json, Json.depth, Json.memberDepth]
    have helems := Json.elemDepth_le hentry
    have hdepth : Json.depth (manifestJson manifest) ≤ 2 := by
      rw [manifestJson, Json.depth]
      omega
    exact hdepth.trans (by decide)
  · -- there is no number in it
    rw [manifestJson, Json.tokens] at htext
    simp only [List.mem_cons, List.mem_append, reduceCtorEq, false_or, List.not_mem_nil, or_false] at htext
    rcases Json.mem_elemTokens htext with hcomma | ⟨x, hx, htext⟩
    · cases hcomma
    · obtain ⟨a, -, rfl⟩ := List.mem_map.mp hx
      simp [Artifact.json, Json.tokens, Json.memberTokens] at htext

/-- A disk on which every write succeeds. -/
def goodDisk : Disk := ⟨none, fun _ => none⟩

/-- A service account with a grant that was used and one that was not. -/
def granted (id : GoString) : Identity :=
  { Identity.zero id with
    type := identityServiceAccount
    permissions := [⟨"read", false, true, [], ""⟩, ⟨"write", false, false, [], ""⟩] }

/-- Three identities of which one looks like a number of the others. -/
def alike : List Recommendation :=
  [granted "svc_a_2", granted "svc_a", granted "svc/a"].filterMap (generate .basic)

example : fileNames [] alike = [("right_size__svc_a_2.tf" : GoString), ("right_size__svc_a.tf" : GoString),
    ("right_size__svc_a_3.tf" : GoString)] := by decide +kernel

end Idryx.Remediation
