import Idryx.Aws.Policy
import Idryx.Go.Json.Scale
import Idryx.Go.Trim

/-!
# The encodings of a policy document

`decodePolicyDocument` of `internal/ingest/awspolicy.go`. A document is a JSON object, or a string that
holds the text of one, percent-encoded or plain. A string is unescaped first, and a plain text with a
sign in it is changed by that.

* `stringSet`, `unmarshalDoc`, `decodePolicyDocument`: what `encoding/json` stores;
* **`ofDoc_le`**: what is read of a text weighs no more than it;
* `Document`; **`unmarshalDoc_text`**: a document is read back from its JSON text;
* **`decodePolicyDocument_exact`**: when the three encodings of a document decode alike;
* `plusRole_differs`: one whose plain text does not.
-/

namespace Idryx.Aws

/-! ## The fields of a document -/

/-- The least rune that differs from `r` in case alone, for the runes of an ASCII name. -/
def foldRune (r : Nat) : Nat :=
  if 0x61 ≤ r ∧ r ≤ 0x7A then r - 0x20
  else if r = 0x17F then 0x53 else if r = 0x212A then 0x4B else r

/-- The member's name is the field's, up to case. -/
def named (name field : GoString) : Bool :=
  (Utf8.chars name).map foldRune == (Utf8.chars field).map foldRune

/-- What is stored in a `string`; a null leaves it. -/
def storeString (held : GoString) : Json → Option GoString
  | .str s => some s
  | .null => some held
  | _ => none

/-- `awsStringSet.UnmarshalJSON`: one string, or else an array of them. -/
def stringSet : Json → Option (List GoString)
  | .arr many => many.mapM (storeString "")
  | one => (storeString "" one).map fun s => [s]

/-- What a member of a statement stores; a member of another name is skipped. -/
def storeMember (st : Statement) (m : GoString × Json) : Option Statement :=
  if named m.1 "Effect" then (storeString st.effect m.2).map fun s => { st with effect := s }
  else if named m.1 "Action" then (stringSet m.2).map fun xs => { st with action := xs }
  else if named m.1 "NotAction" then (stringSet m.2).map fun xs => { st with notAction := xs }
  else if named m.1 "Resource" then (stringSet m.2).map fun xs => { st with resource := xs }
  else some st

/-- A value is decoded into a statement. -/
def storeStatement (held : Statement) : Json → Option Statement
  | .obj ms => ms.foldlM storeMember held
  | .null => some held
  | _ => none

/-- The elements of an array, each stored in what the slice holds at its place. -/
def storeElems : List Statement → List Json → Option (List Statement)
  | _, [] => some []
  | held, x :: xs =>
    (storeStatement (held.headD ⟨"", [], [], []⟩) x).bind fun st =>
      (storeElems held.tail xs).map (st :: ·)

/-- What is stored in a slice of statements. The second list is what it holds past its length. -/
def storeStatements (held : List Statement × List Statement) :
    Json → Option (List Statement × List Statement)
  | .null => some ([], [])
  | .arr [] => some ([], [])
  | .arr xs => (storeElems (held.1 ++ held.2) xs).map fun sts =>
      (sts, (held.1 ++ held.2).drop xs.length)
  | _ => none

/-- A member of a document is decoded into it. -/
def storeDoc (held : List Statement × List Statement) (m : GoString × Json) :
    Option (List Statement × List Statement) :=
  if named m.1 "Statement" then storeStatements held m.2 else some held

/-- `json.Unmarshal` into an `awsPolicyDoc`. -/
def unmarshalDoc (text : GoString) : Option PolicyDoc :=
  match Json.parse text with
  | some (.obj ms) => (ms.foldlM storeDoc ([], [])).map fun held => ⟨held.1⟩
  | some .null => some ⟨[]⟩
  | _ => none

/-- `json.Unmarshal` into a `string`. -/
def unmarshalString (text : GoString) : Option GoString := (Json.parse text).bind (storeString "")

/-- The document of a policy, as AWS gives it: as JSON, or as a string of JSON that is URL-encoded or not. -/
def decodePolicyDocument (raw : GoString) : Option PolicyDoc :=
  let trimmed := Strings.trimSpace raw
  if trimmed = "" ∨ trimmed = "null" then none
  else if Strings.hasPrefix trimmed "\"" then
    (unmarshalString raw).bind fun encoded =>
      -- what is not URL-encoded after all is tried as it is
      unmarshalDoc ((Url.queryUnescape encoded).getD encoded)
  else unmarshalDoc raw

theorem decodePolicyDocument_object {t : GoString} (ht : t.head? = some 0x7B) :
    decodePolicyDocument t = unmarshalDoc t := by
  obtain ⟨s, rfl⟩ := List.head?_eq_some_iff.mp ht
  have hbrace : Strings.Printable 0x7B := by decide
  obtain ⟨m, hm⟩ := List.head?_eq_some_iff.mp (Strings.head_trimSpace hbrace s)
  have hempty : ¬ ((0x7B :: m : GoString) = "" ∨ (0x7B :: m : GoString) = "null") := by
    rintro (h | h)
    · cases h
    · exact absurd (List.cons.inj h).1 (by decide)
  have hquote : ¬ Strings.hasPrefix (0x7B :: m) "\"" = true := by
    intro h
    exact absurd (List.cons_prefix_cons.mp (List.isPrefixOf_iff_prefix.mp h)).1 (by decide)
  rw [decodePolicyDocument, hm]
  simp only [if_neg hempty, if_neg hquote]

theorem decodePolicyDocument_literal {q u : GoString} (hq : Json.Literal q u) :
    decodePolicyDocument q = unmarshalDoc ((Url.queryUnescape u).getD u) := by
  have hparse := Json.parse_literal hq
  obtain ⟨raw, -, rfl, -⟩ := hq
  have hprintable : Strings.Printable 0x22 := by decide
  obtain ⟨m, hm⟩ := List.head?_eq_some_iff.mp (Strings.head_trimSpace hprintable (raw ++ [0x22]))
  have hempty : ¬ ((0x22 :: m : GoString) = "" ∨ (0x22 :: m : GoString) = "null") := by
    rintro (h | h)
    · cases h
    · exact absurd (List.cons.inj h).1 (by decide)
  have hquote : Strings.hasPrefix (0x22 :: m) "\"" = true :=
    List.isPrefixOf_iff_prefix.mpr (List.cons_prefix_cons.mpr ⟨rfl, List.nil_prefix⟩)
  rw [decodePolicyDocument, hm]
  simp only [if_neg hempty, if_pos hquote, unmarshalString, hparse, Option.bind_some, storeString]

/-! ## The weight of a document -/

section Weight

open Json (Scale)

variable (σ : Scale)

/-- How heavy a set of strings, a statement and a list of statements are. -/
def ofSet (xs : List GoString) : Nat := (xs.map σ.ofString).sum

@[inherit_doc ofSet]
def ofStatement (st : Statement) : Nat :=
  σ.ofString st.effect + ofSet σ st.action + ofSet σ st.notAction + ofSet σ st.resource

@[inherit_doc ofSet]
def ofStatements (sts : List Statement) : Nat := (sts.map (ofStatement σ)).sum

variable {σ}

theorem storeString_le {held s : GoString} {j : Json} (h : storeString held j = some s) :
    σ.ofString s ≤ σ.ofString held + σ.ofJson j := by
  unfold storeString at h
  split at h
  · cases h
    exact Nat.le_add_left _ _
  · cases h
    exact Nat.le_add_right _ _
  · cases h

theorem storeString_empty_le {s : GoString} {j : Json} (h : storeString "" j = some s) :
    σ.ofString s ≤ σ.ofJson j := by
  have hle := storeString_le (σ := σ) h
  have hempty : σ.ofString ("" : GoString) = 0 := rfl
  omega

theorem stringSet_le {j : Json} {xs : List GoString} (h : stringSet j = some xs) :
    ofSet σ xs ≤ σ.ofJson j := by
  unfold stringSet at h
  split at h
  · rename_i many
    rw [Scale.ofJson]
    induction many generalizing xs with
    | nil =>
      cases h
      exact le_rfl
    | cons x many ih =>
      rw [List.mapM_cons] at h
      obtain ⟨s, hs, hrest⟩ := Option.bind_eq_some_iff.mp h
      obtain ⟨ss, hss, heq⟩ := Option.bind_eq_some_iff.mp hrest
      cases heq
      exact Nat.add_le_add (storeString_empty_le hs) (ih hss)
  · obtain ⟨s, hs, rfl⟩ := Option.map_eq_some_iff.mp h
    have hle := storeString_empty_le (σ := σ) hs
    simpa [ofSet] using hle

theorem storeSet_le {set : List GoString → Statement} {rest : Nat} {j : Json} {st : Statement}
    (hset : ∀ xs, ofStatement σ (set xs) ≤ rest + ofSet σ xs) (h : (stringSet j).map set = some st) :
    ofStatement σ st ≤ rest + σ.ofJson j := by
  obtain ⟨xs, hxs, rfl⟩ := Option.map_eq_some_iff.mp h
  have hle := stringSet_le (σ := σ) hxs
  have hst := hset xs
  omega

theorem storeMember_le {st st' : Statement} {m : GoString × Json} (h : storeMember st m = some st') :
    ofStatement σ st' ≤ ofStatement σ st + σ.ofJson m.2 := by
  unfold storeMember at h
  split_ifs at h
  · obtain ⟨s, hs, rfl⟩ := Option.map_eq_some_iff.mp h
    have hle := storeString_le (σ := σ) hs
    simp only [ofStatement]
    omega
  · refine storeSet_le (fun xs => ?_) h
    simp only [ofStatement]
    omega
  · refine storeSet_le (fun xs => ?_) h
    simp only [ofStatement]
    omega
  · refine storeSet_le (fun xs => ?_) h
    simp only [ofStatement]
    omega
  · cases h
    exact Nat.le_add_right _ _

theorem foldlM_le {τ : Type} {f : τ → GoString × Json → Option τ} {w : τ → Nat}
    (hf : ∀ {a b : τ} {m : GoString × Json}, f a m = some b → w b ≤ w a + σ.ofJson m.2) :
    ∀ {ms : List (GoString × Json)} {a b : τ}, ms.foldlM f a = some b → w b ≤ w a + σ.ofMembers ms
  | [], a, b, h => by
    cases h
    exact Nat.le_add_right _ _
  | m :: ms, a, b, h => by
    rw [List.foldlM_cons] at h
    obtain ⟨c, hc, hrest⟩ := Option.bind_eq_some_iff.mp h
    have hle := hf hc
    have hrest := foldlM_le hf hrest
    rw [Scale.ofMembers]
    omega

theorem storeStatement_le {held st : Statement} {j : Json} (h : storeStatement held j = some st) :
    ofStatement σ st ≤ ofStatement σ held + σ.ofJson j := by
  unfold storeStatement at h
  split at h
  · exact foldlM_le storeMember_le h
  · cases h
    exact Nat.le_add_right _ _
  · cases h

theorem storeElems_le {held sts : List Statement} {xs : List Json}
    (h : storeElems held xs = some sts) : ofStatements σ sts + ofStatements σ (held.drop xs.length) ≤
      ofStatements σ held + σ.ofElems xs := by
  induction xs generalizing held sts with
  | nil =>
    cases h
    exact (Nat.zero_add _).le
  | cons x xs ih =>
    obtain ⟨st, hst, hrest⟩ := Option.bind_eq_some_iff.mp h
    obtain ⟨sts', hsts', rfl⟩ := Option.map_eq_some_iff.mp hrest
    have hle := storeStatement_le (σ := σ) hst
    have hih := ih hsts'
    cases held with
    | nil =>
      have hzero : ofStatement σ ⟨"", [], [], []⟩ = 0 := rfl
      simp only [List.headD_nil, hzero, List.tail_nil, List.drop_nil] at hle hih
      simp only [ofStatements, List.map_cons, List.sum_cons, Scale.ofElems, List.drop_nil] at hih ⊢
      omega
    | cons st' held =>
      simp only [List.headD_cons, List.tail_cons] at hle hih
      simp only [ofStatements, List.map_cons, List.sum_cons, Scale.ofElems, List.length_cons,
        List.drop_succ_cons] at hih ⊢
      omega

/-- The weight of a slice, with what it holds past its length. -/
def ofSlice (σ : Scale) (held : List Statement × List Statement) : Nat :=
  ofStatements σ held.1 + ofStatements σ held.2

theorem storeStatements_le {held held' : List Statement × List Statement} {j : Json}
    (h : storeStatements held j = some held') : ofSlice σ held' ≤ ofSlice σ held + σ.ofJson j := by
  unfold storeStatements at h
  split at h
  · cases h
    exact Nat.zero_le _
  · cases h
    exact Nat.zero_le _
  · obtain ⟨sts, hsts, rfl⟩ := Option.map_eq_some_iff.mp h
    have hle := storeElems_le (σ := σ) hsts
    have happend : ofStatements σ (held.1 ++ held.2) = ofSlice σ held := by
      simp [ofStatements, ofSlice]
    rw [happend] at hle
    exact hle
  · cases h

theorem storeDoc_le {held held' : List Statement × List Statement} {m : GoString × Json}
    (h : storeDoc held m = some held') : ofSlice σ held' ≤ ofSlice σ held + σ.ofJson m.2 := by
  unfold storeDoc at h
  split_ifs at h
  · exact storeStatements_le h
  · cases h
    exact Nat.le_add_right _ _

/-- **What is read of a text weighs no more than it.** -/
theorem ofDoc_le {t : GoString} {doc : PolicyDoc} (h : unmarshalDoc t = some doc) :
    ofStatements σ doc.statement ≤ σ.ofText t := by
  unfold unmarshalDoc at h
  split at h
  · rename_i ms hparse
    obtain ⟨held, hheld, rfl⟩ := Option.map_eq_some_iff.mp h
    have hle := foldlM_le (σ := σ) (w := ofSlice σ) storeDoc_le hheld
    have htext := σ.ofJson_le hparse
    have hempty : ofSlice σ ([], []) = 0 := rfl
    rw [Scale.ofJson] at htext
    rw [ofSlice] at hle
    have hlen : ofStatements σ held.1 ≤ σ.ofText t := by omega
    exact hlen
  · cases h
    exact Nat.zero_le _
  · cases h

end Weight

/-! ## Documents -/

/-- Characters, in UTF-8. -/
abbrev Text : Type := { s : GoString // Utf8.valid s = true }

/-- The two shapes of a set of strings. -/
inductive StringSet where
  | one (s : Text)
  | many (xs : List Text)

namespace StringSet

/-- The strings of a set. -/
def strings : StringSet → List GoString
  | .one s => [s.1]
  | .many xs => xs.map Subtype.val

/-- A set as it is written: one string, or an array. -/
def json : StringSet → Json
  | .one s => .str s.1
  | .many xs => .arr (xs.map fun s => .str s.1)

end StringSet

/-- A statement as it is written: each set may be absent. -/
structure StatementText where
  effect : Text
  action : Option StringSet
  notAction : Option StringSet
  resource : Option StringSet

namespace StatementText

/-- What a statement says. -/
def value (st : StatementText) : Statement where
  effect := st.effect.1
  action := (st.action.map StringSet.strings).getD []
  notAction := (st.notAction.map StringSet.strings).getD []
  resource := (st.resource.map StringSet.strings).getD []

/-- The member of a set that is not absent. -/
def member (name : GoString) (set : Option StringSet) : List (GoString × Json) :=
  (set.map fun xs => (name, xs.json)).toList

/-- The members of a statement as it is written. -/
def members (st : StatementText) : List (GoString × Json) :=
  ("Effect", .str st.effect.1) :: (member "Action" st.action ++ member "NotAction" st.notAction ++
    member "Resource" st.resource)

/-- A statement as it is written. -/
def json (st : StatementText) : Json := .obj st.members

end StatementText

/-- The versions of the policy language. -/
inductive Version where
  | v2008
  | v2012

/-- The dates that name the versions of the language. -/
def Version.text : Version → GoString
  | .v2008 => "2008-10-17"
  | .v2012 => "2012-10-17"

/-- A policy document of the members that are read, and its version. -/
structure Document where
  version : Option Version
  statement : List StatementText

namespace Document

/-- What a document says. -/
def value (d : Document) : PolicyDoc := ⟨d.statement.map StatementText.value⟩

/-- The members of a document as it is written. -/
def members (d : Document) : List (GoString × Json) :=
  (d.version.map fun v => (("Version" : GoString), Json.str v.text)).toList ++
    [(("Statement" : GoString), Json.arr (d.statement.map StatementText.json))]

/-- A document as it is written. -/
def json (d : Document) : Json := .obj d.members

/-- The JSON text of the document. -/
def text (d : Document) : GoString := d.json.text

end Document

/-! ## Reading a document back -/

theorem stringSet_json (xs : StringSet) : stringSet xs.json = some xs.strings := by
  cases xs with
  | one s => rfl
  | many xs =>
    rw [StringSet.json, stringSet, StringSet.strings]
    induction xs with
    | nil => rfl
    | cons s xs ih =>
      rw [List.map_cons, List.mapM_cons, ih]
      rfl

theorem storeMember_effect (st : Statement) (s : GoString) :
    storeMember st ("Effect", .str s) = some { st with effect := s } := by
  have hname : named "Effect" "Effect" = true := by decide
  simp only [storeMember, hname, if_true]
  rfl

theorem storeMember_action (st : Statement) (j : Json) : storeMember st ("Action", j) =
    (stringSet j).map fun xs => { st with action := xs } := by
  have heffect : named "Action" "Effect" = false := by decide
  have hname : named "Action" "Action" = true := by decide
  simp only [storeMember, heffect, hname, Bool.false_eq_true, if_true, if_false]

theorem storeMember_notAction (st : Statement) (j : Json) : storeMember st ("NotAction", j) =
    (stringSet j).map fun xs => { st with notAction := xs } := by
  have heffect : named "NotAction" "Effect" = false := by decide
  have haction : named "NotAction" "Action" = false := by decide
  have hname : named "NotAction" "NotAction" = true := by decide
  simp only [storeMember, heffect, haction, hname, Bool.false_eq_true, if_true, if_false]

theorem storeMember_resource (st : Statement) (j : Json) : storeMember st ("Resource", j) =
    (stringSet j).map fun xs => { st with resource := xs } := by
  have heffect : named "Resource" "Effect" = false := by decide
  have haction : named "Resource" "Action" = false := by decide
  have hnotAction : named "Resource" "NotAction" = false := by decide
  have hname : named "Resource" "Resource" = true := by decide
  simp only [storeMember, heffect, haction, hnotAction, hname, Bool.false_eq_true, if_true, if_false]

theorem storeStatement_json (st : StatementText) :
    storeStatement ⟨"", [], [], []⟩ st.json = some st.value := by
  obtain ⟨effect, action, notAction, resource⟩ := st
  rw [StatementText.json, storeStatement, StatementText.members, List.foldlM_cons, storeMember_effect]
  cases action <;> cases notAction <;> cases resource <;>
    simp [StatementText.member, StatementText.value, storeMember_action, storeMember_notAction,
      storeMember_resource, stringSet_json]

theorem storeElems_json (sts : List StatementText) :
    storeElems [] (sts.map StatementText.json) = some (sts.map StatementText.value) := by
  induction sts with
  | nil => rfl
  | cons st sts ih =>
    rw [List.map_cons, storeElems, List.headD_nil, storeStatement_json, Option.bind_some, List.tail_nil,
      ih]
    rfl

theorem storeDoc_json (d : Document) : storeDoc ([], []) ("Statement", .arr (d.statement.map
    StatementText.json)) = some (d.value.statement, []) := by
  have hname : named "Statement" "Statement" = true := by decide
  simp only [storeDoc, hname, if_true, Document.value]
  cases hsts : d.statement with
  | nil => rfl
  | cons st sts =>
    have helems := storeElems_json (st :: sts)
    rw [List.map_cons] at helems ⊢
    rw [storeStatements, List.append_nil, helems, Option.map_some, List.drop_nil]
    exact List.cons_ne_nil _ _

namespace StringSet

theorem fits_json (xs : StringSet) : xs.json.Fits := by
  cases xs with
  | one s => exact Json.fits_str s.2
  | many xs =>
    refine Json.fits_arr fun x hx => ?_
    obtain ⟨s, -, rfl⟩ := List.mem_map.mp hx
    exact Json.fits_str s.2

theorem depth_json (xs : StringSet) : xs.json.depth ≤ 1 := by
  cases xs with
  | one s => exact Nat.zero_le 1
  | many xs =>
    refine Nat.succ_le_succ (Json.elemDepth_le fun x hx => ?_)
    obtain ⟨s, -, rfl⟩ := List.mem_map.mp hx
    exact le_rfl

theorem ofJson_json (σ : Json.Scale) (xs : StringSet) : σ.ofJson xs.json = ofSet σ xs.strings := by
  cases xs with
  | one s => rfl
  | many xs =>
    rw [json, strings, Json.Scale.ofJson]
    induction xs with
    | nil => rfl
    | cons s xs ih =>
      rw [List.map_cons, Json.Scale.ofElems, ih]
      rfl

end StringSet

namespace StatementText

theorem mem_member {name : GoString} {set : Option StringSet} {m : GoString × Json}
    (h : m ∈ member name set) : ∃ xs : StringSet, m = (name, xs.json) := by
  cases set with
  | none => cases h
  | some xs => exact ⟨xs, List.mem_singleton.mp h⟩

theorem mem_members {st : StatementText} {m : GoString × Json}
    (h : m ∈ st.members) : m = (("Effect" : GoString), Json.str st.effect.1) ∨
      ∃ name ∈ (["Action", "NotAction", "Resource"] : List GoString), ∃ xs : StringSet,
        m = (name, xs.json) := by
  rw [members, List.mem_cons, List.mem_append, List.mem_append] at h
  rcases h with h | (h | h) | h
  · exact Or.inl h
  · exact Or.inr ⟨"Action", by simp, mem_member h⟩
  · exact Or.inr ⟨"NotAction", by simp, mem_member h⟩
  · exact Or.inr ⟨"Resource", by simp, mem_member h⟩

theorem fits_json (st : StatementText) : st.json.Fits := by
  refine Json.fits_obj fun m hm => ?_
  have heffect : Utf8.valid "Effect" = true := by decide
  have hnames : ∀ name ∈ (["Action", "NotAction", "Resource"] : List GoString),
      Utf8.valid name = true := by decide
  rcases mem_members hm with rfl | ⟨name, hname, xs, rfl⟩
  · exact ⟨heffect, Json.fits_str st.effect.2⟩
  · exact ⟨hnames name hname, xs.fits_json⟩

theorem depth_json (st : StatementText) : st.json.depth ≤ 2 := by
  refine Nat.succ_le_succ (Json.memberDepth_le fun m hm => ?_)
  rcases mem_members hm with rfl | ⟨name, -, xs, rfl⟩
  · exact Nat.zero_le 1
  · exact xs.depth_json

open Json.Scale

theorem ofMembers_member {name : GoString} (hname : signs.ofString name = 0)
    (set : Option StringSet) : signs.ofMembers (member name set) =
      ofSet signs ((set.map StringSet.strings).getD []) := by
  cases set with
  | none => rfl
  | some xs =>
    have hone : member name (some xs) = [(name, xs.json)] := rfl
    rw [hone, ofMembers, ofMembers, hname, xs.ofJson_json, Nat.zero_add, Nat.add_zero]
    rfl

theorem ofJson_json (st : StatementText) : signs.ofJson st.json = ofStatement signs st.value := by
  have heffect : signs.ofString "Effect" = 0 := by decide
  rw [json, ofJson, members, ofMembers, ofMembers_append, ofMembers_append,
    ofMembers_member (by decide), ofMembers_member (by decide),
    ofMembers_member (by decide), heffect, ofJson]
  simp only [ofStatement, value]
  omega

end StatementText

namespace Document

theorem mem_members {d : Document} {m : GoString × Json}
    (h : m ∈ d.members) : (∃ v : Version, m = (("Version" : GoString), Json.str v.text)) ∨
      m = (("Statement" : GoString), Json.arr (d.statement.map StatementText.json)) := by
  rw [members, List.mem_append, List.mem_singleton, Option.mem_toList] at h
  refine h.imp_left fun h => ?_
  obtain ⟨v, -, rfl⟩ := Option.map_eq_some_iff.mp h
  exact ⟨v, rfl⟩

theorem fits_json (d : Document) : d.json.Fits := by
  have hversion : Utf8.valid "Version" = true := by decide
  have hstatement : Utf8.valid "Statement" = true := by decide
  refine Json.fits_obj fun m hm => ?_
  rcases mem_members hm with ⟨v, rfl⟩ | rfl
  · refine ⟨hversion, Json.fits_str ?_⟩
    cases v <;> decide
  · refine ⟨hstatement, Json.fits_arr fun x hx => ?_⟩
    obtain ⟨st, -, rfl⟩ := List.mem_map.mp hx
    exact st.fits_json

theorem depth_json (d : Document) : d.json.depth ≤ 4 := by
  refine Nat.succ_le_succ (Json.memberDepth_le fun m hm => ?_)
  rcases mem_members hm with ⟨v, rfl⟩ | rfl
  · exact Nat.zero_le 3
  · refine Nat.succ_le_succ (Json.elemDepth_le fun x hx => ?_)
    obtain ⟨st, -, rfl⟩ := List.mem_map.mp hx
    exact st.depth_json

end Document

/-- **A document is read back from its JSON text.** -/
theorem unmarshalDoc_text (d : Document) : unmarshalDoc d.text = some d.value := by
  have hparse : Json.parse d.text = some d.json :=
    Json.parse_text (d.depth_json.trans (by decide)) d.fits_json
  have hversion : ∀ v : Version, storeDoc ([], []) ("Version", .str v.text) = some ([], []) := by
    intro v
    have hname : named "Version" "Statement" = false := by decide
    simp only [storeDoc, hname, Bool.false_eq_true, if_false]
  rw [unmarshalDoc, hparse]
  have hmembers : d.members.foldlM storeDoc ([], []) = some (d.value.statement, []) := by
    rw [Document.members, List.foldlM_append]
    cases d.version with
    | none =>
      have hstatement := storeDoc_json d
      simpa using hstatement
    | some v =>
      have hstatement := storeDoc_json d
      simpa [hversion v] using hstatement
  simp only [Document.json, hmembers, Option.map_some]

/-! ## The three encodings -/

open Json (Literal)
open Json.Scale (signs)
open Url (PercentEncoded percentEncode queryUnescape Changed)

theorem ofText_text (d : Document) : signs.ofText d.text = ofStatements signs d.value.statement := by
  have hversion : ∀ v : Version, signs.ofString v.text = 0 := by
    intro v
    cases v <;> decide
  have hnames : signs.ofString "Version" = 0 ∧ signs.ofString "Statement" = 0 := by decide
  have helems : ∀ sts : List StatementText, signs.ofElems (sts.map StatementText.json) =
      ofStatements signs (sts.map StatementText.value) := by
    intro sts
    induction sts with
    | nil => rfl
    | cons st sts ih =>
      rw [List.map_cons, Json.Scale.ofElems, ih, st.ofJson_json]
      rfl
  rw [Document.text, Json.Scale.signs_tight.ofText_text d.fits_json, Document.json, Json.Scale.ofJson,
    Document.members, Json.Scale.ofMembers_append, Document.value, ← helems]
  cases d.version with
  | none => simp [Json.Scale.ofMembers, Json.Scale.ofJson, hnames.2]
  | some v => simp [Json.Scale.ofMembers, Json.Scale.ofJson, hnames, hversion v]

/-- **Unescaping loses a document** if it changes its text. -/
theorem unmarshalDoc_unescaped (d : Document) :
    unmarshalDoc ((queryUnescape d.text).getD d.text) = some d.value ↔ ¬ Changed d.text := by
  constructor
  · rintro hdoc ⟨hwell, hsigns⟩
    obtain ⟨t, ht⟩ := Option.ne_none_iff_exists'.mp (mt Url.queryUnescape_eq_none.mp hwell)
    rw [ht, Option.getD_some] at hdoc
    have hless := (Json.Scale.ofText_queryUnescape ht).2 hsigns
    have hle := ofDoc_le (σ := signs) hdoc
    rw [ofText_text] at hless
    omega
  · intro hsame
    rw [Url.getD_queryUnescape hsame, unmarshalDoc_text]

/-- A string that holds the percent-encoded text of the document, and one that holds it plain, are
decoded as the object is. -/
def DecodedAlike (d : Document) : Prop :=
  (∀ u q, PercentEncoded u d.text → Literal q u → decodePolicyDocument q = decodePolicyDocument d.text) ∧
    ∀ q, Literal q d.text → decodePolicyDocument q = decodePolicyDocument d.text

theorem decodePolicyDocument_encoded {t u q : GoString} (ht : t.head? = some 0x7B)
    (hu : PercentEncoded u t) (hq : Literal q u) : decodePolicyDocument q = decodePolicyDocument t := by
  rw [decodePolicyDocument_object ht, decodePolicyDocument_literal hq, Url.queryUnescape_of_encoded hu,
    Option.getD_some]

theorem literal_percentEncode (t : GoString) :
    Literal (Json.text (.str (percentEncode t))) (percentEncode t) := by
  refine Json.literal_text ?_
  rw [← List.append_nil (percentEncode t), Json.valid_ascii_append Url.percentEncode_ascii]
  rfl

/-- **When a document decodes alike.** It is read from its object, and from its percent-encoded text; the
three encodings agree unless its plain text is changed by being unescaped. Of the text of any object, the
percent-encoded string always decodes as it does, and the plain one if it is not changed. -/
theorem decodePolicyDocument_exact (d : Document) (t : GoString) :
    (decodePolicyDocument d.text = some d.value ∧
      decodePolicyDocument (Json.text (.str (percentEncode d.text))) = some d.value ∧
      (DecodedAlike d ↔ ¬ Changed d.text)) ∧
    (∀ u q, t.head? = some 0x7B → PercentEncoded u t → Literal q u →
      decodePolicyDocument q = decodePolicyDocument t) ∧
    ∀ q, t.head? = some 0x7B → Literal q t → ¬ Changed t →
      decodePolicyDocument q = decodePolicyDocument t := by
  have hobject : decodePolicyDocument d.text = some d.value := by
    rw [decodePolicyDocument_object rfl, unmarshalDoc_text]
  refine ⟨⟨hobject, ?_, ?_, ?_⟩, fun u q => decodePolicyDocument_encoded, ?_⟩
  · rw [decodePolicyDocument_encoded rfl (Url.percentEncoded_percentEncode d.text)
      (literal_percentEncode d.text), hobject]
  · rintro ⟨-, hplain⟩
    have hliteral : Literal (Json.text (.str d.text)) d.text :=
      Json.literal_text (Json.valid_text d.fits_json)
    have hdoc := hplain _ hliteral
    rw [decodePolicyDocument_literal hliteral, hobject] at hdoc
    exact (unmarshalDoc_unescaped d).mp hdoc
  · intro hsame
    refine ⟨fun u q => decodePolicyDocument_encoded rfl, fun q hq => ?_⟩
    rw [decodePolicyDocument_literal hq, hobject]
    exact (unmarshalDoc_unescaped d).mpr hsame
  · intro q ht hq hsame
    rw [decodePolicyDocument_literal hq, decodePolicyDocument_object ht, Url.getD_queryUnescape hsame]

/-- A document about a role with a plus sign in its name. -/
def plusRole : Document where
  version := some .v2012
  statement := [{
    effect := ⟨"Allow", by decide⟩
    action := some (.one ⟨"iam:PassRole", by decide⟩)
    notAction := none
    resource := some (.one ⟨"arn:aws:iam::1:role/ci+deploy", by decide⟩) }]

/-- The resources of what a document decodes to. -/
def resources (raw : GoString) : Option (List (List GoString)) :=
  (decodePolicyDocument raw).map fun doc => doc.statement.map Statement.resource

/-- **A document that does not decode alike.** In its plain text the plus sign becomes a blank. -/
theorem plusRole_differs : ¬ DecodedAlike plusRole ∧
    resources (Json.text (.str (percentEncode plusRole.text))) =
      some [[("arn:aws:iam::1:role/ci+deploy" : GoString)]] ∧
    resources (Json.text (.str plusRole.text)) =
      some [[("arn:aws:iam::1:role/ci deploy" : GoString)]] := by
  have hplain : resources (Json.text (.str plusRole.text)) =
      some [[("arn:aws:iam::1:role/ci deploy" : GoString)]] := by decide +kernel
  have hobject : resources plusRole.text =
      some [[("arn:aws:iam::1:role/ci+deploy" : GoString)]] := by decide +kernel
  refine ⟨fun h => ?_, by decide +kernel, hplain⟩
  have hliteral : Literal (Json.text (.str plusRole.text)) plusRole.text :=
    Json.literal_text (Json.valid_text plusRole.fits_json)
  rw [resources, h.2 _ hliteral, ← resources, hobject] at hplain
  exact absurd hplain (by decide)

end Idryx.Aws
