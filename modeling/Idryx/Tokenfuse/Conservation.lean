import Idryx.Tokenfuse.Parse

/-!
# Every line is counted, up to the first that does not fit

* `Accounts`: the lines read are the malformed, the refused and the ingested ones; `accounts_parseLine`
  is the step lemma and `accounts_scan` the run lemma;
* `lines_scan`: the lines read are the non-blank ones the scanner yields;
* **`lines_conserved_iff`**: every non-blank line is counted exactly when no non-blank line stands at or
  after the first line that does not fit in the scanner's buffer;
* `tail_lost`: a long line followed by an event, of which nothing is read.
-/

namespace Idryx.Tokenfuse

/-- Something is left of the line once it is trimmed. -/
def nonBlank (line : GoString) : Bool := Strings.trimSpace line != []

/-- Every line read was malformed, refused or ingested. -/
def Accounts (st : Scan) : Prop :=
  st.rep.lines = st.rep.malformed + st.rep.foreignSource + st.out.events.length

section Step

variable (B : Bus) (pol : Option Stream.Policy) (file stem : GoString)

/-- **One line** is counted once, under one heading. -/
theorem accounts_parseLine {st : Scan} (h : Accounts st) (bytes : GoString) :
    Accounts (parseLine B pol file stem st bytes) := by
  have hturn := parseLine_turn B pol file stem st bytes
  generalize parseLine B pol file stem st bytes = st' at hturn ⊢
  unfold Accounts at h ⊢
  cases hturn with
  | blank => exact h
  | malformed =>
    show st.rep.lines + 1 = st.rep.malformed + 1 + st.rep.foreignSource + st.out.events.length
    omega
  | foreign =>
    show st.rep.lines + 1 = st.rep.malformed + (st.rep.foreignSource + 1) + st.out.events.length
    omega
  | ingested env ts | unknownStream env ts =>
    show st.rep.lines + 1 =
      st.rep.malformed + st.rep.foreignSource + (st.out.ingest B env ts).events.length
    rw [events_ingest, List.length_append, List.length_singleton]
    omega

theorem lines_parseLine (st : Scan) (bytes : GoString) :
    (parseLine B pol file stem st bytes).rep.lines =
      st.rep.lines + if nonBlank bytes then 1 else 0 := by
  have hturn := parseLine_turn B pol file stem st bytes
  generalize parseLine B pol file stem st bytes = st' at hturn ⊢
  unfold nonBlank
  cases hturn with
  | blank h => simp [h]
  | malformed h | foreign _ _ h | ingested _ _ h | unknownStream _ _ h =>
    rw [bne_iff_ne.mpr h, if_pos rfl]
    rfl

theorem accounts_foldl {st : Scan} (h : Accounts st) (ls : List GoString) :
    Accounts (ls.foldl (parseLine B pol file stem) st) :=
  List.foldlRecOn ls _ h fun _ h l _ => accounts_parseLine B pol file stem h l

theorem lines_foldl (st : Scan) (ls : List GoString) :
    (ls.foldl (parseLine B pol file stem) st).rep.lines = st.rep.lines + ls.countP nonBlank := by
  induction ls generalizing st with
  | nil => rfl
  | cons l ls ih =>
    rw [List.foldl_cons, ih, lines_parseLine, List.countP_cons]
    omega

theorem accounts_scan (data : GoString) : Accounts (scan B pol file data) := by
  rw [scan_eq]
  refine accounts_foldl B pol file _ ?_ _
  show 0 = 0 + 0 + 0
  rfl

theorem lines_scan (data : GoString) : (scan B pol file data).rep.lines =
    ((Bufio.newlines data).takeWhile (·.length < maxTokenSize)).countP nonBlank := by
  rw [scan_eq, lines_foldl]
  exact Nat.zero_add _

end Step

/-- The report counts every non-blank line of the blob, under one heading. -/
def Conserved (data : GoString) (r : Parsed) : Prop :=
  r.rep.lines = (Bufio.newlines data).countP nonBlank ∧
    r.rep.lines = r.rep.malformed + r.rep.foreignSource + r.events.length

/-- **Lines are conserved exactly when nothing stands behind a line that does not fit.** The lines
reported are the non-blank lines of the blob, each malformed, refused or ingested, if and only if from
the first line that does not fit in the scanner's buffer on every line is blank. -/
theorem lines_conserved_iff (B : Bus) (data file : GoString) (pol : Option Stream.Policy) :
    Conserved data (parse B data file pol) ↔
      ∀ l ∈ (Bufio.newlines data).dropWhile (·.length < maxTokenSize), nonBlank l = false := by
  have hlines : (parse B data file pol).rep.lines =
      ((Bufio.newlines data).takeWhile (·.length < maxTokenSize)).countP nonBlank :=
    lines_scan B pol file data
  have haccounts : (parse B data file pol).rep.lines = (parse B data file pol).rep.malformed +
      (parse B data file pol).rep.foreignSource + (parse B data file pol).events.length :=
    accounts_scan B pol file data
  have hsplit : (Bufio.newlines data).countP nonBlank =
      ((Bufio.newlines data).takeWhile (·.length < maxTokenSize)).countP nonBlank +
        ((Bufio.newlines data).dropWhile (·.length < maxTokenSize)).countP nonBlank := by
    rw [← List.countP_append, List.takeWhile_append_dropWhile]
  have hrest : ((Bufio.newlines data).dropWhile (·.length < maxTokenSize)).countP nonBlank = 0 ↔
      ∀ l ∈ (Bufio.newlines data).dropWhile (·.length < maxTokenSize), nonBlank l = false := by
    simp only [List.countP_eq_zero, Bool.not_eq_true]
  rw [← hrest]
  constructor
  · rintro ⟨h, -⟩
    omega
  · intro h
    exact ⟨by omega, haccounts⟩

/-- A line of `n` letters, then `rest`. -/
def behindLongLine (n : Nat) (rest : GoString) : GoString := List.replicate n 0x61 ++ 0x0A :: rest

theorem newlines_behindLongLine (n : Nat) (rest : GoString) :
    Bufio.newlines (behindLongLine n rest) = List.replicate n 0x61 :: Bufio.newlines rest := by
  have hletters : (0x0A : UInt8) ∉ List.replicate n (0x61 : UInt8) := by
    intro h
    exact absurd (List.eq_of_mem_replicate h) (by decide)
  exact List.splitOn_append_cons_self_of_not_mem hletters rest

theorem lines_behindLongLine (B : Bus) (pol : Option Stream.Policy) (file rest : GoString) {n : Nat}
    (hn : maxTokenSize ≤ n) : (parse B (behindLongLine n rest) file pol).rep.lines = 0 := by
  have hlong : ¬ n < maxTokenSize := Nat.not_lt.mpr hn
  refine (lines_scan B pol file _).trans ?_
  rw [newlines_behindLongLine, List.takeWhile_cons, List.length_replicate]
  simp [hlong]

/-- A well-formed event of its own stream. -/
def plainEvent : Envelope := plainEnvelope "tokenfuse" "agent://acme.example/bot" []

/-- The event behind a line of four mebibytes is not counted. -/
theorem tail_lost :
    ¬ Conserved (behindLongLine maxTokenSize plainEvent.line)
      (parse (busOf [plainEvent]) (behindLongLine maxTokenSize plainEvent.line) "tokenfuse.ndjson"
        (some Stream.Policy.default)) := by
  rintro ⟨h, -⟩
  have hevent : (Bufio.newlines plainEvent.line).countP nonBlank = 1 := by decide +kernel
  rw [lines_behindLongLine _ _ _ _ le_rfl, newlines_behindLongLine, List.countP_cons, hevent] at h
  omega

end Idryx.Tokenfuse
