import Idryx.Go.Trim
import Idryx.Go.Numerals
import Idryx.Lib.LastWrite

/-!
# Headers for the webhook

`webhookHeaders`, `cmd/idryx/main.go`: the headers of a file, which has to pass the owner rule, with those
of the command line over them.

* `Http.canonicalHeaderKey` and **`Http.canonicalHeaderKey_eq_iff`**: the letter cases of a valid name;
* `nameValue`, `HeaderList.set`, `headerFileRefusal`, `readHeaderFileFor`, `webhookHeaders`;
* `Names`, `Skipped`: what a line says; **`readLines_eq`**: what the loop over the lines leaves;
* **`webhookHeaders_reads`**: which files are read, what comes of them, and what a refusal tells.
-/

namespace Idryx

open LastWrite

/-! ## Canonical names -/

namespace Http

/-- `validHeaderFieldByte`: a byte of a token. -/
def validHeaderFieldByte (b : UInt8) : Bool :=
  (0x30 ≤ b && b ≤ 0x39) || (0x41 ≤ b && b ≤ 0x5A) || (0x61 ≤ b && b ≤ 0x7A) ||
    b ∈ ([0x21, 0x23, 0x24, 0x25, 0x26, 0x27, 0x2A, 0x2B, 0x2D, 0x2E, 0x5E, 0x5F, 0x60, 0x7C, 0x7E] : GoString)

/-- A letter in the case its place asks for. -/
def caseByte (upper : Bool) (c : UInt8) : UInt8 :=
  if upper && 0x61 ≤ c && c ≤ 0x7A then c - 0x20
  else if !upper && 0x41 ≤ c && c ≤ 0x5A then c + 0x20
  else c

/-- The first letter upper case, and each letter after a dash. -/
def canonicalFrom : Bool → GoString → GoString
  | _, [] => []
  | upper, c :: s => caseByte upper c :: canonicalFrom (caseByte upper c == 0x2D) s

/-- A name made of token bytes. -/
def ValidName (s : GoString) : Prop := s.all validHeaderFieldByte = true

instance (s : GoString) : Decidable (ValidName s) := inferInstanceAs (Decidable (_ = true))

/-- `http.CanonicalHeaderKey`: a name with any other byte is left as it is. -/
def canonicalHeaderKey (s : GoString) : GoString := if ValidName s then canonicalFrom true s else s

/-- A capital letter as a small one. -/
def lowerByte (c : UInt8) : UInt8 := if 0x41 ≤ c && c ≤ 0x5A then c + 0x20 else c

/-- Equal up to the case of letters. -/
def SameLetters (s t : GoString) : Prop := s.map lowerByte = t.map lowerByte

theorem caseByte_lowerByte (upper : Bool) (c : UInt8) : caseByte upper (lowerByte c) = caseByte upper c := by
  cases upper
  · exact forall_byte (P := fun c => caseByte false (lowerByte c) = caseByte false c) (by decide +kernel) c
  · exact forall_byte (P := fun c => caseByte true (lowerByte c) = caseByte true c) (by decide +kernel) c

theorem lowerByte_caseByte (upper : Bool) (c : UInt8) : lowerByte (caseByte upper c) = lowerByte c := by
  cases upper
  · exact forall_byte (P := fun c => lowerByte (caseByte false c) = lowerByte c) (by decide +kernel) c
  · exact forall_byte (P := fun c => lowerByte (caseByte true c) = lowerByte c) (by decide +kernel) c

theorem validHeaderFieldByte_lowerByte (c : UInt8) :
    validHeaderFieldByte (lowerByte c) = validHeaderFieldByte c :=
  forall_byte (P := fun c => validHeaderFieldByte (lowerByte c) = validHeaderFieldByte c)
    (by decide +kernel) c

theorem canonicalFrom_lower (upper : Bool) (s : GoString) :
    canonicalFrom upper (s.map lowerByte) = canonicalFrom upper s := by
  induction s generalizing upper with
  | nil => rfl
  | cons c s ih => simp only [List.map_cons, canonicalFrom, caseByte_lowerByte, ih]

theorem lower_canonicalFrom (upper : Bool) (s : GoString) :
    (canonicalFrom upper s).map lowerByte = s.map lowerByte := by
  induction s generalizing upper with
  | nil => rfl
  | cons c s ih => simp only [List.map_cons, canonicalFrom, lowerByte_caseByte, ih]

theorem SameLetters.validName {s t : GoString} (h : SameLetters s t) : ValidName s ↔ ValidName t := by
  have hlower (s : GoString) : s.all validHeaderFieldByte = (s.map lowerByte).all validHeaderFieldByte := by
    rw [List.all_map]
    exact congrArg s.all (funext fun c => (validHeaderFieldByte_lowerByte c).symm)
  rw [ValidName, ValidName, hlower s, hlower t, h]

theorem sameLetters_canonicalHeaderKey (s : GoString) : SameLetters (canonicalHeaderKey s) s := by
  unfold canonicalHeaderKey SameLetters
  split_ifs
  · exact lower_canonicalFrom true s
  · rfl

theorem SameLetters.canonicalHeaderKey {s t : GoString} (hs : ValidName s) (h : SameLetters s t) :
    canonicalHeaderKey s = canonicalHeaderKey t := by
  have ht : ValidName t := h.validName.mp hs
  rw [Http.canonicalHeaderKey, Http.canonicalHeaderKey, if_pos hs, if_pos ht, ← canonicalFrom_lower, h,
    canonicalFrom_lower]

/-- **The key of a valid name is that of its other letter cases**, and of no other name. -/
theorem canonicalHeaderKey_eq_iff {s t : GoString} (hs : ValidName s) :
    canonicalHeaderKey s = canonicalHeaderKey t ↔ SameLetters s t := by
  constructor
  · intro h
    have hst := congrArg (List.map lowerByte) h
    rw [show _ = s.map lowerByte from sameLetters_canonicalHeaderKey s,
      show _ = t.map lowerByte from sameLetters_canonicalHeaderKey t] at hst
    exact hst
  · exact fun h => h.canonicalHeaderKey hs

theorem canonicalHeaderKey_idem (s : GoString) :
    canonicalHeaderKey (canonicalHeaderKey s) = canonicalHeaderKey s := by
  by_cases hs : ValidName s
  · have hsame : SameLetters s (canonicalHeaderKey s) := (sameLetters_canonicalHeaderKey s).symm
    exact (hsame.canonicalHeaderKey hs).symm
  · have hkey : canonicalHeaderKey s = s := if_neg hs
    rw [hkey, hkey]

end Http

namespace Headers

/-! ## The command line -/

/-- `headerList`: the value under each canonical name. -/
abbrev HeaderList : Type := Dict GoString GoString

/-- The name and the value of a text `Name: Value`, trimmed; nothing if there is no colon or one of them
is blank. -/
def nameValue (v : GoString) : Option (GoString × GoString) :=
  (Strings.cut v 0x3A).bind fun (name, value) =>
    if Strings.trimSpace name = [] ∨ Strings.trimSpace value = [] then none
    else some (Strings.trimSpace name, Strings.trimSpace value)

namespace HeaderList

/-- `h[http.CanonicalHeaderKey(name)] = value`. -/
def put (h : HeaderList) (p : GoString × GoString) : HeaderList := h.set (Http.canonicalHeaderKey p.1) p.2

/-- `headerList.Set`: one `--webhook-header` flag. -/
def setFlag (U : Unicode) (h : HeaderList) (v : GoString) : Except GoString HeaderList :=
  match nameValue v with
  | none => .error (("--webhook-header expects \"Name: Value\", got " : GoString) ++ Strconv.quote U v)
  | some p => .ok (h.put p)

/-- The flags of a command line. -/
def ofFlags (U : Unicode) (args : List GoString) : Except GoString HeaderList :=
  args.foldlM (setFlag U) Dict.empty

end HeaderList

/-! ## The file -/

/-- `headerFileStat`: the mode of the opened file, the owner's uid, and whether the file is regular. -/
structure HeaderFileStat where
  mode : ℕ
  uid : ℤ
  regular : Bool

/-- An opened file: what `Stat` and `ReadAll` make of it. -/
structure OpenFile where
  stat : Except GoString HeaderFileStat
  data : Except GoString GoString

/-- What the process finds around it. -/
structure Process where
  goos : GoString
  geteuid : ℤ
  openFile : GoString → Except GoString OpenFile

/-- Who may read, write and execute the file. -/
def HeaderFileStat.perm (st : HeaderFileStat) : ℕ := st.mode &&& 0o777

/-- `%d`. -/
def formatInt : ℤ → GoString
  | .ofNat n => Strconv.itoa n
  | .negSucc n => 0x2D :: Strconv.itoa (n + 1)

/-- `%04o` of a permission. -/
def octal4 (n : ℕ) : GoString :=
  [Strconv.digit (n / 512 % 8), Strconv.digit (n / 64 % 8), Strconv.digit (n / 8 % 8), Strconv.digit (n % 8)]

/-- `headerFileRefusal`: the owner rule. -/
def headerFileRefusal (goos path : GoString) (st : HeaderFileStat) (euid : ℤ) : Option GoString :=
  let file : GoString := ("--webhook-header-file " : GoString) ++ path
  if !st.regular then some (file ++ (" is not a regular file" : GoString))
  else if goos = "windows" then none
  else if st.uid < 0 then some (file ++ (": the owner cannot be checked on this system" : GoString))
  else if st.uid = euid then
    if st.perm &&& 0o077 ≠ 0 then
      some (file ++ (" has mode " : GoString) ++ octal4 st.perm ++
        (": a file owned by this user must be owner-only, 0600 or stricter (chmod 600)" : GoString))
    else none
  else if st.uid = 0 then
    if st.perm &&& 0o037 ≠ 0 then
      some (file ++ (" has mode " : GoString) ++ octal4 st.perm ++
        (": a file owned by root may be group-readable at most, 0640 (chmod 640), with no group write or execute and nothing for other users" : GoString))
    else none
  else
    some (file ++ (" is owned by uid " : GoString) ++ formatInt st.uid ++
      (", which is neither this user (uid " : GoString) ++ formatInt euid ++ (") nor root" : GoString))

/-- The refusal of line `n`, which does not print the line. -/
def malformedLine (path : GoString) (n : ℕ) : GoString :=
  ("--webhook-header-file " : GoString) ++ path ++ (": line " : GoString) ++ Strconv.itoa n ++
    (" is not \"Name: Value\"" : GoString)

/-- One turn of the loop over the lines, the `i`-th from zero. -/
def readLine (path : GoString) (i : ℕ) (h : HeaderList) (line : GoString) : Except GoString HeaderList :=
  let line := Strings.trimSpace line
  if line = [] || Strings.hasPrefix line "#" then .ok h
  else
    match nameValue line with
    | none => .error (malformedLine path (i + 1))
    | some p => .ok (h.put p)

/-- The loop, from line `i`. -/
def readLines (path : GoString) (i : ℕ) (h : HeaderList) : List GoString → Except GoString HeaderList
  | [] => .ok h
  | line :: rest =>
    match readLine path i h line with
    | .error e => .error e
    | .ok h => readLines path (i + 1) h rest

/-- `readHeaderFileFor`. -/
def readHeaderFileFor (P : Process) (path goos : GoString) : Except GoString HeaderList :=
  match P.openFile path with
  | .error e => .error (("--webhook-header-file: " : GoString) ++ e)
  | .ok f =>
    let wrap (e : GoString) : GoString := ("--webhook-header-file " : GoString) ++ path ++ (": " : GoString) ++ e
    match f.stat with
    | .error e => .error (wrap e)
    | .ok st =>
      match headerFileRefusal goos path st P.geteuid with
      | some e => .error e
      | none =>
        match f.data with
        | .error e => .error (wrap e)
        | .ok data => readLines path 0 Dict.empty (Strings.split data 0x0A)

/-- `readHeaderFile`. -/
def readHeaderFile (P : Process) (path : GoString) : Except GoString HeaderList :=
  readHeaderFileFor P path P.goos

/-- `webhookHeaders`: the command line's headers over those of the file. -/
def webhookHeaders (P : Process) (file : GoString) (flagged : HeaderList) : Except GoString HeaderList :=
  if file = [] then .ok (flagged.over Dict.empty)
  else (readHeaderFile P file).map fun fromFile => flagged.over (fromFile.over Dict.empty)

/-! ## What a line says -/

/-- The text is a name, its first colon, and a value, neither of them blank. -/
def Names (text name value : GoString) : Prop :=
  ∃ n v, text = n ++ 0x3A :: v ∧ 0x3A ∉ n ∧ name = Strings.trimSpace n ∧ value = Strings.trimSpace v ∧
    name ≠ [] ∧ value ≠ []

/-- A blank line, or a comment. -/
def Skipped (line : GoString) : Prop :=
  Strings.trimSpace line = [] ∨ ∃ rest, Strings.trimSpace line = 0x23 :: rest

/-- What a line of the file says. -/
def LineNames (line name value : GoString) : Prop :=
  ¬ Skipped line ∧ Names (Strings.trimSpace line) name value

/-- A line the file may have. -/
def Readable (line : GoString) : Prop := Skipped line ∨ ∃ name value, LineNames line name value

/-- A text says `v` for a name whose key is `k`. -/
def ForKey (R : GoString → GoString → GoString → Prop) (k text v : GoString) : Prop :=
  ∃ name, R text name v ∧ Http.canonicalHeaderKey name = k

theorem nameValue_eq_some_iff {text name value : GoString} :
    nameValue text = some (name, value) ↔ Names text name value := by
  constructor
  · intro h
    by_cases hmem : (0x3A : UInt8) ∈ text
    · obtain ⟨n, v, rfl, hn, hcut⟩ := Strings.exists_cut hmem
      rw [nameValue, hcut, Option.bind_some] at h
      dsimp only at h
      split_ifs at h with hblank
      rw [not_or] at hblank
      obtain ⟨rfl, rfl⟩ := Prod.mk.inj (Option.some.inj h)
      exact ⟨n, v, rfl, hn, rfl, rfl, hblank.1, hblank.2⟩
    · rw [nameValue, Strings.cut_eq_none.mpr hmem] at h
      exact absurd h (by simp)
  · rintro ⟨n, v, rfl, hn, rfl, rfl, hname, hvalue⟩
    rw [nameValue, Strings.cut_append hn, Option.bind_some]
    exact if_neg (not_or.mpr ⟨hname, hvalue⟩)

/-- The name and the value of a line, unless it is skipped. -/
def lineValue (line : GoString) : Option (GoString × GoString) :=
  let line := Strings.trimSpace line
  if line = [] || Strings.hasPrefix line "#" then none else nameValue line

theorem skipped_iff {line : GoString} :
    (Strings.trimSpace line = [] || Strings.hasPrefix (Strings.trimSpace line) "#") = true ↔ Skipped line := by
  rw [Bool.or_eq_true, decide_eq_true_iff, Skipped, Strings.hasPrefix, List.isPrefixOf_iff_prefix]
  refine or_congr_right ?_
  rw [show (("#" : String) : GoString) = [0x23] from rfl]
  constructor
  · rintro ⟨rest, h⟩
    exact ⟨rest, h.symm⟩
  · rintro ⟨rest, h⟩
    exact ⟨rest, h.symm⟩

theorem lineValue_eq_some_iff {line name value : GoString} :
    lineValue line = some (name, value) ↔ LineNames line name value := by
  rw [LineNames, ← nameValue_eq_some_iff, ← skipped_iff, lineValue]
  split_ifs with h
  · simp [h]
  · simp [h]

/-- What a text stores: the value under the canonical name. -/
def keyed (read : GoString → Option (GoString × GoString)) (text : GoString) : Option (GoString × GoString) :=
  (read text).map fun p => (Http.canonicalHeaderKey p.1, p.2)

theorem gives_keyed_iff {read : GoString → Option (GoString × GoString)}
    {R : GoString → GoString → GoString → Prop} (h : ∀ {t n v}, read t = some (n, v) ↔ R t n v)
    (k text v : GoString) : Gives (keyed read) k text v ↔ ForKey R k text v := by
  simp only [Gives, keyed, Option.map_eq_some_iff, Prod.exists, Prod.mk.injEq, ForKey, ← h]
  constructor
  · rintro ⟨name, w, hread, hk, rfl⟩
    exact ⟨name, hread, hk⟩
  · rintro ⟨name, hread, hk⟩
    exact ⟨name, v, hread, hk, rfl⟩

/-! ## The loop over the lines -/

theorem readLine_of_readable {line : GoString} (hline : Readable line) (path : GoString) (i : ℕ)
    (h : HeaderList) :
    readLine path i h line = .ok ((keyed lineValue line).elim h fun p => h.set p.1 p.2) := by
  unfold readLine keyed lineValue
  dsimp only
  split_ifs with hskip
  · rfl
  · rw [skipped_iff] at hskip
    obtain ⟨name, value, hnames⟩ := hline.resolve_left hskip
    rw [nameValue_eq_some_iff.mpr hnames.2]
    rfl

theorem readLine_of_not_readable {line : GoString} (hline : ¬ Readable line) (path : GoString) (i : ℕ)
    (h : HeaderList) : readLine path i h line = .error (malformedLine path (i + 1)) := by
  have hskip : ¬ Skipped line := fun hs => hline (Or.inl hs)
  have hnone : nameValue (Strings.trimSpace line) = none := by
    rw [Option.eq_none_iff_forall_ne_some]
    rintro ⟨name, value⟩ hval
    exact hline (Or.inr ⟨name, value, hskip, nameValue_eq_some_iff.mp hval⟩)
  rw [← skipped_iff] at hskip
  simp only [readLine, if_neg hskip, hnone]

theorem readLines_of_readable {lines : List GoString} (hlines : ∀ line ∈ lines, Readable line)
    (path : GoString) (i : ℕ) (h : HeaderList) :
    readLines path i h lines = .ok (h.sets (keyed lineValue) lines) := by
  induction lines generalizing i h with
  | nil => rfl
  | cons line rest ih =>
    obtain ⟨hline, hrest⟩ := List.forall_mem_cons.mp hlines
    rw [readLines, readLine_of_readable hline]
    exact ih hrest (i + 1) _

theorem readLines_of_first {lines : List GoString} {n : ℕ} (hn : First (¬ Readable ·) lines n)
    (path : GoString) (i : ℕ) (h : HeaderList) :
    readLines path i h lines = .error (malformedLine path (i + n + 1)) := by
  obtain ⟨pre, line, post, rfl, hpre, hline, rfl⟩ := hn
  induction pre generalizing i h with
  | nil =>
    rw [List.nil_append, readLines, readLine_of_not_readable hline]
    rfl
  | cons first pre ih =>
    obtain ⟨hfirst, hpre⟩ := List.forall_mem_cons.mp hpre
    rw [List.cons_append, readLines, readLine_of_readable (not_not.mp hfirst)]
    refine (ih (i + 1) _ hpre).trans ?_
    rw [List.length_cons, Nat.add_assoc i 1, Nat.add_comm 1]

theorem foldlM_setFlag {U : Unicode} {args : List GoString} {flagged : HeaderList} (h : HeaderList)
    (hargs : args.foldlM (HeaderList.setFlag U) h = .ok flagged) :
    flagged = h.sets (keyed nameValue) args := by
  induction args generalizing h with
  | nil => exact (Except.ok.inj hargs).symm
  | cons v args ih =>
    rw [List.foldlM_cons] at hargs
    cases hv : nameValue v with
    | none => simp [HeaderList.setFlag, hv, bind, Except.bind] at hargs
    | some p =>
      have hset : HeaderList.setFlag U h v = .ok (h.put p) := by simp [HeaderList.setFlag, hv]
      rw [hset] at hargs
      refine (ih (h.put p) hargs).trans ?_
      rw [Dict.sets, Dict.sets, List.foldl_cons, keyed, hv]
      rfl

/-! ## Both together -/

/-- The path names a file that opens, passes the owner rule, and holds `content`. -/
def Opens (P : Process) (path content : GoString) : Prop :=
  path ≠ [] ∧ ∃ f st, P.openFile path = .ok f ∧ f.stat = .ok st ∧
    headerFileRefusal P.goos path st P.geteuid = none ∧ f.data = .ok content

theorem Opens.webhookHeaders_eq {P : Process} {path content : GoString} (h : Opens P path content)
    (flagged : HeaderList) : webhookHeaders P path flagged =
      (readLines path 0 Dict.empty (Strings.split content 0x0A)).map fun fromFile =>
        flagged.over (fromFile.over Dict.empty) := by
  obtain ⟨hpath, f, st, hopen, hstat, hrule, hdata⟩ := h
  simp only [webhookHeaders, if_neg hpath, readHeaderFile, readHeaderFileFor, hopen, hstat, hrule, hdata]

theorem sets_keyed_iff {read : GoString → Option (GoString × GoString)}
    {R : GoString → GoString → GoString → Prop} (h : ∀ {t n v}, read t = some (n, v) ↔ R t n v)
    (texts : List GoString) (k v : GoString) :
    (Dict.empty : HeaderList).sets (keyed read) texts k = some v ↔ Last (ForKey R k) texts v := by
  rw [sets_eq_some_iff, last_congr (gives_keyed_iff h k)]
  simp [Dict.empty]

theorem sets_keyed_eq_none_iff {read : GoString → Option (GoString × GoString)}
    {R : GoString → GoString → GoString → Prop} (h : ∀ {t n v}, read t = some (n, v) ↔ R t n v)
    (texts : List GoString) (k : GoString) :
    (Dict.empty : HeaderList).sets (keyed read) texts k = none ↔ ∀ t ∈ texts, ∀ v, ¬ ForKey R k t v := by
  rw [Option.eq_none_iff_forall_ne_some]
  simp only [Ne, sets_keyed_iff h]
  exact forall_not_last_iff _ texts

/-- **The headers of a run.** A file that opens and passes the owner rule is read if and only if each of its
lines may stand there; the headers are then those of the command line, and under the other keys those of
the last line; and a refusal tells the path and the number of the first bad line, nothing else. The key of
a valid name is the key of its other letter cases. -/
theorem webhookHeaders_reads {U : Unicode} {P : Process} {path content : GoString} {args : List GoString}
    {flagged : HeaderList} (hfile : Opens P path content) (hargs : HeaderList.ofFlags U args = .ok flagged) :
    ((∃ h, webhookHeaders P path flagged = .ok h) ↔ ∀ line ∈ Strings.split content 0x0A, Readable line) ∧
    (∀ h, webhookHeaders P path flagged = .ok h → ∀ k v, h k = some v ↔
      Last (ForKey Names k) args v ∨ (∀ a ∈ args, ∀ w, ¬ ForKey Names k a w) ∧
        Last (ForKey LineNames k) (Strings.split content 0x0A) v) ∧
    (∀ h, webhookHeaders P path flagged = .ok h → ∀ k v, h k = some v → Http.canonicalHeaderKey k = k) ∧
    (∀ R name, Http.ValidName name → ∀ text v, ForKey R (Http.canonicalHeaderKey name) text v ↔
      ∃ other, Http.SameLetters name other ∧ R text other v) ∧
    (∀ e, webhookHeaders P path flagged = .error e ↔
      ∃ n, First (¬ Readable ·) (Strings.split content 0x0A) n ∧ e = malformedLine path (n + 1)) ∧
    ∀ P' content' flagged' n e e', Opens P' path content' →
      First (¬ Readable ·) (Strings.split content 0x0A) n →
      First (¬ Readable ·) (Strings.split content' 0x0A) n →
      webhookHeaders P path flagged = .error e → webhookHeaders P' path flagged' = .error e' → e = e' := by
  have hread (hall : ∀ line ∈ Strings.split content 0x0A, Readable line) : webhookHeaders P path flagged =
      .ok (flagged.over ((Dict.empty.sets (keyed lineValue) (Strings.split content 0x0A)).over Dict.empty)) := by
    rw [hfile.webhookHeaders_eq, readLines_of_readable hall]
    rfl
  have hrefuse {P' : Process} {content' : GoString} (hfile : Opens P' path content') {n : ℕ}
      (hn : First (¬ Readable ·) (Strings.split content' 0x0A) n) (flagged : HeaderList) :
      webhookHeaders P' path flagged = .error (malformedLine path (n + 1)) := by
    rw [hfile.webhookHeaders_eq, readLines_of_first hn, Nat.zero_add]
    rfl
  have hfirst (hall : ¬ ∀ line ∈ Strings.split content 0x0A, Readable line) :
      ∃ n, First (¬ Readable ·) (Strings.split content 0x0A) n :=
    exists_first fun h => hall fun line hline => not_not.mp (h line hline)
  have hok {h : HeaderList} (hh : webhookHeaders P path flagged = .ok h) :
      ∀ line ∈ Strings.split content 0x0A, Readable line := by
    by_contra hall
    obtain ⟨n, hn⟩ := hfirst hall
    rw [hrefuse hfile hn] at hh
    cases hh
  have hmap {h : HeaderList} (hh : webhookHeaders P path flagged = .ok h) (k v : GoString) : h k = some v ↔
      Last (ForKey Names k) args v ∨ (∀ a ∈ args, ∀ w, ¬ ForKey Names k a w) ∧
        Last (ForKey LineNames k) (Strings.split content 0x0A) v := by
    obtain rfl := Except.ok.inj ((hread (hok hh)).symm.trans hh)
    rw [Dict.over_eq_some_iff, Dict.over_eq_some_iff, foldlM_setFlag Dict.empty hargs,
      sets_keyed_iff nameValue_eq_some_iff, sets_keyed_iff lineValue_eq_some_iff,
      sets_keyed_eq_none_iff nameValue_eq_some_iff]
    simp [Dict.empty]
  refine ⟨⟨?_, fun hall => ⟨_, hread hall⟩⟩, fun h hh => hmap hh, ?_, ?_, ?_, ?_⟩
  · rintro ⟨h, hh⟩
    exact hok hh
  · intro h hh k v hk
    rcases (hmap hh k v).mp hk with hlast | ⟨-, hlast⟩
    · obtain ⟨text, -, name, -, rfl⟩ := hlast.mem
      exact Http.canonicalHeaderKey_idem name
    · obtain ⟨text, -, name, -, rfl⟩ := hlast.mem
      exact Http.canonicalHeaderKey_idem name
  · intro R name hname text v
    constructor
    · rintro ⟨other, hother, hkey⟩
      exact ⟨other, (Http.canonicalHeaderKey_eq_iff hname).mp hkey.symm, hother⟩
    · rintro ⟨other, hsame, hother⟩
      exact ⟨other, hother, ((Http.canonicalHeaderKey_eq_iff hname).mpr hsame).symm⟩
  · intro e
    constructor
    · intro he
      by_cases hall : ∀ line ∈ Strings.split content 0x0A, Readable line
      · rw [hread hall] at he
        cases he
      · obtain ⟨n, hn⟩ := hfirst hall
        rw [hrefuse hfile hn] at he
        exact ⟨n, hn, (Except.error.inj he).symm⟩
    · rintro ⟨n, hn, rfl⟩
      exact hrefuse hfile hn flagged
  · intro P' content' flagged' n e e' hfile' hn hn' he he'
    rw [hrefuse hfile hn] at he
    rw [hrefuse hfile' hn'] at he'
    exact (Except.error.inj he).symm.trans (Except.error.inj he')

/-- A machine with one header file. -/
def oneFile : Process where
  goos := "linux"
  geteuid := 1000
  openFile path :=
    if path = "headers" then
      .ok { stat := .ok ⟨0o600, 1000, true⟩, data := .ok "# intake\nX-Origin: https://idryx:8443\r\n" }
    else .error "no such file or directory"

theorem ofFlags_origin : HeaderList.ofFlags Unicode.basic ["x-origin: z"] =
    .ok (HeaderList.put Dict.empty (("x-origin" : GoString), ("z" : GoString))) := by
  rfl

theorem webhookHeaders_reads_oneFile :
    (∃ h, webhookHeaders oneFile "headers" (HeaderList.put Dict.empty (("x-origin" : GoString),
      ("z" : GoString))) = .ok h) ↔
    ∀ line ∈ Strings.split "# intake\nX-Origin: https://idryx:8443\r\n" 0x0A, Readable line :=
  (webhookHeaders_reads ⟨by decide, _, _, rfl, rfl, by decide, rfl⟩ ofFlags_origin).1

end Headers

end Idryx
