import Idryx.Aws.Session
import Idryx.Ingest.Logs

/-!
# Two readings of a record

`CloudTrail` and `CloudTrailUsage` of `internal/ingest/cloudtrail.go` read the same records. One makes
an event of the ARN as it stands, the other records the call under the ARN that `normalizeARN` makes
of it.

* `TrailRecord`, `cloudTrail`; `cloudTrail_append`, `members_usage_append`: a log is read record by
  record;
* `ActsAs`, `AttributedAlike`; **`attributedAlike_iff`**: when event and usage of each record are those
  of one identity;
* `session_twoNodes`: a session whose event and whose usage are not.
-/

namespace Idryx.Aws

open Time (Parser)

/-! ## The readers -/

/-- A CloudTrail record, as far as it is read. -/
structure TrailRecord extends CTRecord where
  eventTime : GoString
  eventName : GoString
  sourceIP : GoString
  userAgent : GoString
  errorCode : GoString
  type : GoString

/-- The event of a record with a usable time. -/
def TrailRecord.toEvent (r : TrailRecord) (t : Time) : Event :=
  { (default : Event) with
    time := t
    identityID := if r.arn = "" then r.type else r.arn
    type := if r.eventName = "ConsoleLogin" then eventLogin else eventOther
    outcome := if r.errorCode ≠ "" then "FAILURE" else "SUCCESS"
    ip := r.sourceIP
    device := r.userAgent }

/-- `CloudTrail`, over the records of the document. -/
def cloudTrail (P : Parser) (records : List TrailRecord) (allocated : Nat) :
    List Event × Ingest.Report × Nat :=
  Ingest.parseLog P TrailRecord.eventTime TrailRecord.toEvent records allocated

/-- `CloudTrailUsage`, over the records of the document. -/
def trailUsage (U : Unicode) (records : List TrailRecord) : List (GoString × List GoString) :=
  cloudTrailUsage U (records.map TrailRecord.toCTRecord)

/-- **A log is read record by record**, as its events and as what it shows each principal calling. -/
theorem cloudTrail_append (P : Parser) (xs ys : List TrailRecord) (n : Nat) :
    (cloudTrail P (xs ++ ys) n).1 =
      (cloudTrail P xs n).1 ++ (cloudTrail P ys (cloudTrail P xs n).2.2).1 :=
  Ingest.parseLog_append P _ _ xs ys n

@[inherit_doc cloudTrail_append]
theorem members_usage_append {U : Unicode} {xs ys : List TrailRecord} {k svc : GoString} :
    svc ∈ Groups.members (trailUsage U (xs ++ ys)) k ↔
      svc ∈ Groups.members (trailUsage U xs) k ∨ svc ∈ Groups.members (trailUsage U ys) k := by
  simp only [trailUsage, mem_cloudTrailUsage, Calls, List.map_append, List.mem_append, or_and_right,
    exists_or]

/-- The record has a time that can be read and names a principal and a service. -/
structure TrailRecord.Complete (P : Parser) (r : TrailRecord) : Prop where
  time : (P.stamp r.eventTime).isSome
  arn : r.arn ≠ ""
  source : r.eventSource ≠ ""

theorem identityID_cloudTrail {P : Parser} {r : TrailRecord} (harn : r.arn ≠ "") {n : Nat} {e : Event}
    (he : e ∈ (cloudTrail P [r] n).1) : e.identityID = r.arn := by
  obtain ⟨r', hr', st, loc, -, rfl, -⟩ := Ingest.mem_parseLog he
  obtain rfl := List.mem_singleton.mp hr'
  exact if_neg harn

theorem exists_cloudTrail {P : Parser} {r : TrailRecord} (n : Nat) :
    (∃ e, e ∈ (cloudTrail P [r] n).1) ↔ (P.stamp r.eventTime).isSome := by
  constructor
  · rintro ⟨e, he⟩
    obtain ⟨r', hr', st, -, hst, -⟩ := Ingest.mem_parseLog he
    obtain rfl := List.mem_singleton.mp hr'
    exact Option.isSome_of_mem hst
  · intro h
    obtain ⟨st, hst⟩ := Option.isSome_iff_exists.mp h
    obtain ⟨loc, hmem, -⟩ := Ingest.exists_mem_parseLog TrailRecord.toEvent n
      (List.mem_singleton.mpr rfl) hst
    exact ⟨_, hmem⟩

theorem mem_trailUsage {U : Unicode} {r : TrailRecord} {row : GoString × List GoString} :
    row ∈ trailUsage U [r] ↔ normalizeARN r.arn ≠ "" ∧ r.eventSource ≠ "" ∧
      row = (normalizeARN r.arn, [serviceFromEventSource U r.eventSource]) := by
  unfold trailUsage cloudTrailUsage
  simp only [List.map_cons, List.map_nil, List.foldl_cons, List.foldl_nil, addRecord]
  split_ifs with h
  · rcases h with h | h <;> simp [h]
  · rw [not_or] at h
    have hinsert : Groups.insert (normalizeARN r.arn) (serviceFromEventSource U r.eventSource) [] =
        [(normalizeARN r.arn, [serviceFromEventSource U r.eventSource])] := rfl
    rw [hinsert, List.mem_singleton]
    simp only [h.1, h.2, ne_eq, not_false_eq_true, true_and]

/-! ## Whose record it is -/

/-- The ARN of a record is that of the principal or of a session of it. -/
def ActsAs (arn id : GoString) : Prop :=
  arn = id ∨ ∃ (r : Role) (session : GoString), arn = r.sessionARN session ∧ id = r.arn

/-- The event of a record and the key of its call are one, and the identity of its principal. -/
def AttributedAlike (P : Parser) (R : Reader) (d : AuthDetails) (r : TrailRecord) : Prop :=
  ∀ n, ∀ e ∈ (cloudTrail P [r] n).1, ∀ row ∈ trailUsage R.unicode [r],
    e.identityID = row.1 ∧ ∀ i ∈ awsIAM R d, ActsAs r.arn i.id → e.identityID = i.id

theorem normalizeARN_ne_nil {arn : GoString} (h : arn ≠ "") : normalizeARN arn ≠ "" := by
  rcases exists_read_or_eq arn with ⟨account, role, hread⟩ | heq
  · rw [normalizeARN_of_read hread]
    exact List.cons_ne_nil _ _
  · rw [heq]
    exact h

/-- **When both readers mean the same principal**: the ARN of each complete record is left as it is. -/
theorem attributedAlike_iff (P : Parser) (R : Reader) (d : AuthDetails) (log : List TrailRecord) :
    (∀ r ∈ log, r.arn ≠ "" → AttributedAlike P R d r) ↔
      ∀ r ∈ log, r.Complete P → LeftAlone r.arn := by
  constructor
  · intro h r hr hread
    obtain ⟨e, he⟩ := (exists_cloudTrail 0).mpr hread.time
    have hrow := (mem_trailUsage (U := R.unicode)).mpr
      ⟨normalizeARN_ne_nil hread.arn, hread.source, rfl⟩
    have heq := (h r hr hread.arn 0 e he _ hrow).1
    rw [identityID_cloudTrail hread.arn he] at heq
    exact normalizeARN_eq_self_iff.mp heq.symm
  · intro h r hr harn n e he row hrow
    obtain ⟨-, hsource, rfl⟩ := mem_trailUsage.mp hrow
    have halone : LeftAlone r.arn := h r hr ⟨(exists_cloudTrail n).mp ⟨e, he⟩, harn, hsource⟩
    rw [identityID_cloudTrail harn he]
    refine ⟨(normalizeARN_eq_self_iff.mpr halone).symm, ?_⟩
    rintro i - (hid | ⟨role, session, hsession, -⟩)
    · exact hid
    · rw [hsession] at halone
      exact absurd halone (not_leftAlone_session role session)

/-- A call by a session of a role. -/
def sessionRecord : TrailRecord where
  eventSource := "s3.amazonaws.com"
  arn := "arn:aws:sts::1:assumed-role/ci/build"
  eventTime := "2026-05-29T10:00:00Z"
  eventName := "GetObject"
  sourceIP := "10.0.0.1"
  userAgent := "aws-cli"
  errorCode := ""
  type := "AssumedRole"

/-- **One principal on two nodes**: the event of a session is its own, its call is that of its role. -/
theorem session_twoNodes :
    (cloudTrail Ingest.utcParser [sessionRecord] 0).1.map Event.identityID =
        ([("arn:aws:sts::1:assumed-role/ci/build" : GoString)] : List GoString) ∧
      trailUsage Unicode.basic [sessionRecord] =
        [(("arn:aws:iam::1:role/ci" : GoString), [("s3" : GoString)])] ∧
      ¬ ∀ (P : Parser) (R : Reader) (d : AuthDetails) (log : List TrailRecord),
        ∀ r ∈ log, r.arn ≠ "" → AttributedAlike P R d r := by
  refine ⟨by decide +kernel, by decide +kernel, fun h => ?_⟩
  have hiff := (attributedAlike_iff Ingest.utcParser objectsReader ⟨[], [], []⟩ [sessionRecord]).mp
    (h _ _ _ _)
  have halone := hiff _ List.mem_cons_self ⟨by decide +kernel, by decide, by decide⟩
  exact absurd (normalizeARN_eq_self_iff.mpr halone) (by decide +kernel)

end Idryx.Aws
