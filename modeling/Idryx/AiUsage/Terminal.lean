import Idryx.AiUsage.Sanitize
import Idryx.Go.Utf8
import Idryx.Go.Numerals

/-!
# What reaches a terminal

* `Quiet`: a rune that a terminal only shows;
* `Shown U n s`: the text is valid, and quiet but for `n` newlines; **`shown_escape`**: escaped text is
  shown on one line;
* `escape_of_quiet`, `length_runes_escape`, **`escape_canonical`**: escaped text is as long as it may be,
  and escaping it again leaves it as it is;
* `tabwriter`: package `text/tabwriter`, whose paddings are a parameter;
* `Tabular U n s`: the text of a table of `n` lines; **`shown_tabwriter`**: exactly that is shown once
  it is aligned.
-/

namespace Idryx.AiUsage

open Utf8

/-- No control or format character, and no line or paragraph separator. -/
def Quiet (U : Unicode) (r : Nat) : Prop :=
  isControl r = false ∧ U.isCf r = false ∧ r ≠ 0x2028 ∧ r ≠ 0x2029

/-- Valid text that is quiet but for `n` newlines. -/
structure Shown (U : Unicode) (n : Nat) (s : GoString) : Prop where
  valid : valid s = true
  quiet : ∀ c ∈ chars s, c = 0x0A ∨ Quiet U c
  lines : (chars s).count 0x0A = n

variable {U : Unicode} {m n : Nat} {a b : GoString}

theorem quiet_ascii {r : Nat} (hlo : 0x20 ≤ r) (hhi : r < 0x7F) : Quiet U r := by
  refine ⟨?_, U.isCf_ascii r (by omega), by omega, by omega⟩
  simp only [isControl, Bool.or_eq_false_iff, Bool.and_eq_false_iff, decide_eq_false_iff_not]
  omega

theorem Quiet.not_control {r : Nat} (h : Quiet U r) : ¬ r < 0x20 := by
  intro hr
  have hcontrol : isControl r = true := by
    simp only [isControl, Bool.or_eq_true, decide_eq_true_eq]
    exact Or.inl hr
  exact Bool.false_ne_true (h.1.symm.trans hcontrol)

/-! ## Shown text -/

theorem shown_append_left (ha : Shown U m a) : Shown U (m + n) (a ++ b) ↔ Shown U n b := by
  have hchars := chars_append ha.valid b
  have hvalid := valid_append ha.valid b
  constructor
  · intro h
    refine ⟨hvalid ▸ h.valid, fun c hc => h.quiet c ?_, ?_⟩
    · rw [hchars]
      exact List.mem_append_right _ hc
    · have hlines := h.lines
      rw [hchars, List.count_append, ha.lines] at hlines
      exact Nat.add_left_cancel hlines
  · intro hb
    refine ⟨hvalid ▸ hb.valid, fun c hc => ?_, ?_⟩
    · rw [hchars, List.mem_append] at hc
      exact hc.elim (ha.quiet c) (hb.quiet c)
    · rw [hchars, List.count_append, ha.lines, hb.lines]

theorem Shown.append (ha : Shown U m a) (hb : Shown U n b) : Shown U (m + n) (a ++ b) :=
  (shown_append_left ha).mpr hb

theorem shown_append_right (ha : valid a = true) (hb : Shown U n b) :
    Shown U (m + n) (a ++ b) ↔ Shown U m a := by
  refine ⟨fun h => ?_, fun h => h.append hb⟩
  have hchars := chars_append ha b
  refine ⟨ha, fun c hc => h.quiet c ?_, ?_⟩
  · rw [hchars]
    exact List.mem_append_left _ hc
  · have hlines := h.lines
    rw [hchars, List.count_append, hb.lines] at hlines
    exact Nat.add_right_cancel hlines

theorem shown_nil : Shown U 0 [] := ⟨rfl, fun _ hc => absurd hc List.not_mem_nil, rfl⟩

theorem shown_rune {r : Nat} {y : GoString} (hr : Encodes r y) (hq : Quiet U r) : Shown U 0 y := by
  have hvalid := valid_encodes hr []
  have hchars := chars_encodes hr []
  rw [List.append_nil] at hvalid hchars
  refine ⟨hvalid, fun c hc => ?_, ?_⟩
  · rw [hchars] at hc
    rw [List.mem_singleton.mp hc]
    exact Or.inr hq
  · rw [hchars]
    refine List.count_eq_zero.mpr fun hc => hq.not_control ?_
    rw [← List.mem_singleton.mp hc]
    decide

/-- A newline, or a printable ASCII byte. -/
def plain (b : UInt8) : Bool := b == 0x0A || (0x20 ≤ b && b < 0x7F)

/-- **Plain text is shown**, on as many lines as it has newlines. -/
theorem shown_plain {s : GoString} (hs : s.all plain = true) : Shown U (s.count 0x0A) s := by
  induction s with
  | nil => exact shown_nil
  | cons b s ih =>
    rw [List.all_cons, Bool.and_eq_true] at hs
    have hplain := hs.1
    simp only [plain, Bool.or_eq_true, Bool.and_eq_true, beq_iff_eq, decide_eq_true_eq] at hplain
    have hone : Shown U ([b].count 0x0A) [b] := by
      rcases hplain with rfl | ⟨hlo, hhi⟩
      · exact ⟨rfl, fun c hc => Or.inl (List.mem_singleton.mp hc), rfl⟩
      · have hne : ¬ (0x0A : UInt8) ∈ [b] := by
          intro h
          rw [← List.mem_singleton.mp h] at hlo
          exact absurd hlo (by decide)
        rw [List.count_eq_zero.mpr hne]
        exact shown_rune (Encodes.one (UInt8.lt_trans hhi (by decide)))
          (quiet_ascii (UInt8.le_iff_toNat_le.mp hlo) (UInt8.lt_iff_toNat_lt.mp hhi))
    have happ := hone.append (ih hs.2)
    rw [← List.count_append] at happ
    exact happ

theorem shown_lines {s : GoString} (hs : s.all plain = true) (hn : s.count 0x0A = n) :
    Shown U n s := hn ▸ shown_plain hs

theorem shown_flatMap {α : Type*} {f : α → GoString} {xs : List α} (h : ∀ x ∈ xs, Shown U m (f x)) :
    Shown U (xs.length * m) (xs.flatMap f) := by
  induction xs with
  | nil => exact Nat.zero_mul m ▸ shown_nil
  | cons x xs ih =>
    rw [List.flatMap_cons, List.length_cons, Nat.succ_mul, Nat.add_comm]
    exact (h x List.mem_cons_self).append (ih fun y hy => h y (List.mem_cons_of_mem x hy))

theorem shown_join {xs : List GoString} {sep : GoString} (h : ∀ x ∈ xs, Shown U 0 x)
    (hsep : Shown U 0 sep) : Shown U 0 (Strings.join xs sep) := by
  unfold Strings.join
  induction xs with
  | nil => exact shown_nil
  | cons x xs ih =>
    have hx := h x List.mem_cons_self
    cases xs with
    | nil =>
      rw [List.intercalate_singleton]
      exact hx
    | cons y ys =>
      rw [List.intercalate_cons_cons]
      exact (hx.append hsep).append (ih fun z hz => h z (List.mem_cons_of_mem x hz))

/-! ## Numerals -/

/-- A printable ASCII byte. -/
def printable (b : UInt8) : Bool := 0x20 ≤ b && b < 0x7F

theorem shown_printable {s : GoString} (hs : s.all printable = true) : Shown U 0 s := by
  have hplain : s.all plain = true := by
    rw [List.all_eq_true] at hs ⊢
    intro b hb
    exact Bool.or_eq_true_iff.mpr (Or.inr (hs b hb))
  have hcount : s.count 0x0A = 0 := List.count_eq_zero.mpr fun h =>
    absurd (List.all_eq_true.mp hs _ h) (by decide)
  exact hcount ▸ shown_plain hplain

theorem all_printable_hex (w n : Nat) : (Strconv.hex w n).all printable = true := by
  induction w with
  | zero => rfl
  | succ w ih =>
    have hdigit : ∀ d < 16, printable (UInt8.ofNat (if d < 10 then 0x30 + d else 0x57 + d)) = true := by
      decide
    rw [Strconv.hex, List.all_cons, ih, Bool.and_true]
    exact hdigit _ (Nat.mod_lt _ (by decide))

theorem shown_itoa (n : Nat) : Shown U 0 (Strconv.itoa n) := by
  refine shown_printable (List.all_eq_true.mpr fun b hb => ?_)
  have hdigit := Strconv.digit_of_mem_itoa hb
  simp only [printable, Bool.and_eq_true, decide_eq_true_eq, UInt8.le_iff_toNat_le,
    UInt8.lt_iff_toNat_lt, UInt8.reduceToNat]
  omega

/-! ## Escaped text -/

theorem shown_ellipsis : Shown U 0 ("…" : GoString) := by
  have hr : Encodes (((0xE2 : UInt8).toNat - 0xE0) * 4096 + ((0x80 : UInt8).toNat - 0x80) * 64 +
      ((0xA6 : UInt8).toNat - 0x80)) ("…" : GoString) :=
    Encodes.three (by decide) (by decide) (by decide)
  have hnum : ((0xE2 : UInt8).toNat - 0xE0) * 4096 + ((0x80 : UInt8).toNat - 0x80) * 64 +
      ((0xA6 : UInt8).toNat - 0x80) = 0x2026 := by simp
  rw [hnum] at hr
  exact shown_rune hr ⟨rfl, U.isCf_ellipsis, by omega, by omega⟩

theorem shown_escapePiece (b : UInt8) (s : GoString) : Shown U 0
    (escapePiece U (b :: s) (decodeRune (b :: s)).1 (decodeRune (b :: s)).2) := by
  have hhex : ∀ (pre : GoString) (w n : Nat), pre.all printable = true →
      Shown U 0 (pre ++ Strconv.hexPad w n) := fun pre w n hpre =>
    (shown_printable hpre).append (shown_printable (all_printable_hex _ n))
  unfold escapePiece
  split_ifs with herr hact hlow
  · exact hhex _ _ _ (by decide)
  · exact hhex _ _ _ (by decide)
  · exact hhex _ _ _ (by decide)
  · rcases decodeRune_cases b s with h | ⟨r, y, z, hyz, hd, hr⟩
    · exact absurd ⟨congrArg Prod.fst h, congrArg Prod.snd h⟩ herr
    · rw [hd] at hact ⊢
      simp only [not_or, Bool.not_eq_true] at hact
      rw [hyz, List.take_left]
      exact shown_rune hr hact

/-- **Escaped text is shown on one line.** -/
theorem shown_escape (s : GoString) (max : Int) : Shown U 0 (escape U s max) := by
  have hrun : ∀ (k : Nat) (s : GoString) (n : Nat), s.length ≤ k →
      Shown U 0 (escapeFrom U max (runes s) s n) := by
    intro k
    induction k with
    | zero =>
      intro s n hs
      obtain rfl := List.length_eq_zero_iff.mp (Nat.le_zero.mp hs)
      exact shown_nil
    | succ k ih =>
      intro s n hs
      cases s with
      | nil => exact shown_nil
      | cons b s =>
        rw [runes_cons, escapeFrom]
        generalize (if List.drop (decodeRune (b :: s)).2 (b :: s) ≠ [] then max - 1 else max) = limit
        split_ifs
        · exact shown_ellipsis
        · refine (shown_escapePiece b s).append (ih _ _ ?_)
          have hw := decodeRune_width_pos b s
          rw [List.length_drop]
          omega
  exact hrun s.length s 0 le_rfl

theorem escapePiece_of_quiet {r : Nat} {y : GoString} (hr : Encodes r y) (hq : Quiet U r) (z : GoString) :
    escapePiece U (y ++ z) r y.length = y := by
  have hvalid : ¬ (r = runeError ∧ y.length = 1) := by
    rintro ⟨hrune, hlen⟩
    rcases hr.ascii_or with ⟨b, hb, -, rfl⟩ | ⟨-, hlong, -⟩
    · have hlt : b.toNat < 0x80 := UInt8.lt_iff_toNat_lt.mp hb
      rw [hrune] at hlt
      exact absurd hlt (by decide)
    · omega
  have hkeep : ¬ (isControl r = true ∨ U.isCf r = true ∨ r = 0x2028 ∨ r = 0x2029) := by
    rw [not_or, not_or, not_or, Bool.not_eq_true, Bool.not_eq_true]
    exact hq
  rw [escapePiece, if_neg hvalid, if_neg hkeep, List.take_left]

/-- **Quiet text that fits is left as it is.** -/
theorem escape_of_quiet {s : GoString} (hs : valid s = true) (hq : ∀ c ∈ chars s, Quiet U c) {max : Int}
    (hmax : (runes s).length ≤ max) : escape U s max = s := by
  have hrun : ∀ n : Nat, ((n + (runes s).length : Nat) : Int) ≤ max →
      escapeFrom U max (runes s) s n = s := by
    clear hmax
    induction s, hs using valid_rec with
    | nil => exact fun _ _ => rfl
    | cons r y z hr hz ih =>
      intro n hn
      rw [chars_encodes hr, List.forall_mem_cons] at hq
      have hone : (runes y).length = 1 := by
        have h := runes_encodes hr []
        rw [List.append_nil] at h
        rw [h]
        rfl
      rw [runes_encodes hr, List.length_cons] at hn
      rw [runes_encodes hr, escapeFrom]
      simp only [escapePiece_of_quiet hr hq.1, hone, List.drop_left]
      rw [if_neg, ih hq.2 (n + 1) (by omega)]
      cases z with
      | nil =>
        simp only [ne_eq, not_true_eq_false, if_false]
        omega
      | cons c z =>
        have hpos : 0 < (runes (c :: z)).length := by
          rw [runes_cons]
          exact Nat.succ_pos _
        simp only [ne_eq, List.cons_ne_nil, not_false_eq_true, if_true]
        omega
  exact hrun 0 (by omega)

/-- What is written has no more runes than it should: with text left to write there is always room for
the ellipsis. -/
theorem length_runes_escape (s : GoString) {max : Int} (hmax : 1 ≤ max) :
    (runes (escape U s max)).length ≤ max := by
  have hlen : ∀ {y : GoString} (z : GoString), valid y = true →
      (runes (y ++ z)).length = (runes y).length + (runes z).length := by
    intro y z hy
    have h := congrArg List.length (chars_append hy z)
    simpa only [chars, List.length_append, List.length_map] using h
  have hrun : ∀ (k : Nat) (s : GoString) (n : Nat), s.length ≤ k →
      (n : Int) ≤ (if s ≠ [] then max - 1 else max) →
      ((n + (runes (escapeFrom U max (runes s) s n)).length : Nat) : Int) ≤ max := by
    intro k
    induction k with
    | zero =>
      intro s n hs hn
      obtain rfl := List.length_eq_zero_iff.mp (Nat.le_zero.mp hs)
      exact hn
    | succ k ih =>
      intro s n hs hn
      cases s with
      | nil => exact hn
      | cons b s =>
        rw [if_pos (List.cons_ne_nil b s)] at hn
        rw [runes_cons, escapeFrom]
        have hpiece := (shown_escapePiece (U := U) b s).valid
        generalize escapePiece U (b :: s) (decodeRune (b :: s)).1 (decodeRune (b :: s)).2 = piece at hpiece ⊢
        by_cases hcut : (if (b :: s).drop (decodeRune (b :: s)).2 ≠ [] then max - 1 else max) <
            (n + (runes piece).length : Nat)
        · rw [if_pos hcut]
          have hdots : (runes ("…" : GoString)).length = 1 := by decide
          rw [hdots]
          omega
        · rw [if_neg hcut, hlen _ hpiece, ← Nat.add_assoc]
          refine ih _ _ ?_ (not_lt.mp hcut)
          have hw := decodeRune_width_pos b s
          rw [List.length_drop]
          omega
  have h := hrun s.length s 0 le_rfl (by split_ifs <;> omega)
  rw [Nat.zero_add] at h
  exact h

/-- **Escaping is safe, bounded, and done once.** -/
theorem escape_canonical (U : Unicode) (s : GoString) (max : Int) (hmax : 1 ≤ max) :
    valid (escape U s max) = true ∧ (runes (escape U s max)).length ≤ max ∧
    (∀ c ∈ chars (escape U s max), Quiet U c) ∧
    escape U (escape U s max) max = escape U s max ∧
    (valid s = true → (∀ c ∈ chars s, Quiet U c) → (runes s).length ≤ max → escape U s max = s) := by
  have hshown := shown_escape (U := U) s max
  have hquiet : ∀ c ∈ chars (escape U s max), Quiet U c := by
    intro c hc
    refine (hshown.quiet c hc).resolve_left ?_
    rintro rfl
    exact List.count_eq_zero.mp hshown.lines hc
  have hlen := length_runes_escape (U := U) s hmax
  exact ⟨hshown.valid, hlen, hquiet, escape_of_quiet hshown.valid hquiet hlen,
    fun hs hq hmax => escape_of_quiet hs hq hmax⟩

/-- An invalid byte, and text cut behind its escape. -/
theorem escape_canonical_cut :
    escape Unicode.basic [0xFF, 0x61, 0x62] 5 = ("\\xff…" : GoString) ∧
      escape Unicode.basic ("\\xff…" : GoString) 5 = ("\\xff…" : GoString) := by
  have h := escape_canonical Unicode.basic [0xFF, 0x61, 0x62] 5 (by decide)
  have hcut : escape Unicode.basic [0xFF, 0x61, 0x62] 5 = ("\\xff…" : GoString) := by decide
  rw [hcut] at h
  exact ⟨hcut, h.2.2.2.1⟩

/-! ## Tables -/

/-- What a cell ends with: a tab, a vertical tab, a newline or a form feed. -/
def isTerminator (c : Nat) : Bool := 0x09 ≤ c && c ≤ 0x0C

/-- What a line ends with. -/
def isBreak (c : Nat) : Bool := c == 0x0A || c == 0x0C

/-- The text with `pad i` blanks for the tab at `i`. -/
def align (pad : Nat → Nat) : GoString → GoString
  | [] => []
  | b :: s =>
    (if b = 0x09 ∨ b = 0x0B then List.replicate (pad 0) 0x20
      else if b = 0x0A ∨ b = 0x0C then [0x0A]
      else [b]) ++ align (fun i => pad (i + 1)) s

/-- A `text/tabwriter`, flushed: tabs of both kinds are replaced by padding, and what ends a line by a
newline. How many blanks stand for each tab of a text is `padding`. The byte `0xFF`, which would start an
escape, is in no valid text. -/
def tabwriter (padding : GoString → Nat → Nat) (text : GoString) : GoString :=
  align (padding text) text

/-- The text of a table of `n` lines, quiet but for what ends its cells. -/
structure Tabular (U : Unicode) (n : Nat) (s : GoString) : Prop where
  quiet : ∀ c ∈ chars s, isTerminator c = true ∨ Quiet U c
  lines : (chars s).countP isBreak = n

theorem align_append (a b : GoString) : ∀ pad : Nat → Nat,
    align pad (a ++ b) = align pad a ++ align (fun i => pad (i + a.length)) b := by
  induction a with
  | nil => exact fun pad => rfl
  | cons c a ih =>
    intro pad
    rw [List.cons_append, align, ih, align, List.append_assoc]
    rfl

theorem align_of_not_ascii {y : GoString} (hy : ∀ b ∈ y, 0x80 ≤ b) : ∀ pad : Nat → Nat,
    align pad y = y := by
  induction y with
  | nil => exact fun _ => rfl
  | cons b y ih =>
    intro pad
    have hb : 0x80 ≤ b.toNat := UInt8.le_iff_toNat_le.mp (hy b List.mem_cons_self)
    have hne : ∀ c : UInt8, c.toNat < 0x80 → b ≠ c := fun c hc h => by
      rw [h] at hb
      omega
    rw [align, ih fun c hc => hy c (List.mem_cons_of_mem b hc), if_neg, if_neg]
    · rfl
    · exact not_or.mpr ⟨hne _ (by decide), hne _ (by decide)⟩
    · exact not_or.mpr ⟨hne _ (by decide), hne _ (by decide)⟩

theorem tabular_nil : Tabular U n [] ↔ 0 = n :=
  ⟨fun h => h.lines, fun h => ⟨fun _ hc => absurd hc List.not_mem_nil, h⟩⟩

theorem tabular_encodes {r : Nat} {y z : GoString} (hr : Encodes r y) : Tabular U n (y ++ z) ↔
    (isTerminator r = true ∨ Quiet U r) ∧ ∃ k, Tabular U k z ∧ k + (if isBreak r then 1 else 0) = n := by
  have hchars := chars_encodes hr z
  constructor
  · intro h
    have hquiet := h.quiet
    have hlines := h.lines
    rw [hchars, List.forall_mem_cons] at hquiet
    rw [hchars, List.countP_cons] at hlines
    exact ⟨hquiet.1, _, ⟨hquiet.2, rfl⟩, hlines⟩
  · rintro ⟨hquiet, k, hz, rfl⟩
    refine ⟨?_, ?_⟩
    · rw [hchars, List.forall_mem_cons]
      exact ⟨hquiet, hz.quiet⟩
    · rw [hchars, List.countP_cons, hz.lines]

theorem shown_encodes {r : Nat} {y z : GoString} (hr : Encodes r y) : Shown U n (y ++ z) ↔
    (r = 0x0A ∨ Quiet U r) ∧ ∃ k, Shown U k z ∧ k + (if r = 0x0A then 1 else 0) = n := by
  have hchars := chars_encodes hr z
  have hvalid := valid_encodes hr z
  constructor
  · intro h
    have hquiet := h.quiet
    have hlines := h.lines
    rw [hchars, List.forall_mem_cons] at hquiet
    rw [hchars, List.count_cons] at hlines
    refine ⟨hquiet.1, _, ⟨hvalid ▸ h.valid, hquiet.2, rfl⟩, ?_⟩
    simpa using hlines
  · rintro ⟨hquiet, k, hz, rfl⟩
    refine ⟨hvalid.trans hz.valid, ?_, ?_⟩
    · rw [hchars, List.forall_mem_cons]
      exact ⟨hquiet, hz.quiet⟩
    · rw [hchars, List.count_cons, hz.lines]
      simp

/-- **What becomes of one rune**: blanks, a newline, or itself. -/
theorem align_encodes {r : Nat} {y : GoString} (hr : Encodes r y) (pad : Nat → Nat) :
    (isTerminator r = true ∧ isBreak r = false ∧ ∃ k, align pad y = List.replicate k 0x20) ∨
      (isTerminator r = true ∧ isBreak r = true ∧ align pad y = [0x0A]) ∨
      (isTerminator r = false ∧ isBreak r = false ∧ align pad y = y) := by
  have hother : isTerminator r = false → isBreak r = false := by
    simp only [isTerminator, isBreak, Bool.and_eq_false_iff, decide_eq_false_iff_not,
      Bool.or_eq_false_iff, beq_eq_false_iff_ne]
    omega
  rcases hr.ascii_or with ⟨b, hb, rfl, rfl⟩ | ⟨hr80, -, hbytes⟩
  · rw [align, align, List.append_nil]
    by_cases htab : b = 0x09 ∨ b = 0x0B
    · rw [if_pos htab]
      refine Or.inl ⟨?_, ?_, _, rfl⟩
      · rcases htab with rfl | rfl <;> rfl
      · rcases htab with rfl | rfl <;> rfl
    by_cases hline : b = 0x0A ∨ b = 0x0C
    · rw [if_neg htab, if_pos hline]
      refine Or.inr (Or.inl ⟨?_, ?_, rfl⟩)
      · rcases hline with rfl | rfl <;> rfl
      · rcases hline with rfl | rfl <;> rfl
    · rw [if_neg htab, if_neg hline]
      have hno : isTerminator b.toNat = false := by
        simp only [not_or, ← UInt8.toNat_inj, UInt8.reduceToNat] at htab hline
        simp only [isTerminator, Bool.and_eq_false_iff, decide_eq_false_iff_not]
        omega
      exact Or.inr (Or.inr ⟨hno, hother hno, rfl⟩)
  · have hno : isTerminator r = false := by
      simp only [isTerminator, Bool.and_eq_false_iff, decide_eq_false_iff_not]
      omega
    exact Or.inr (Or.inr ⟨hno, hother hno, align_of_not_ascii hbytes pad⟩)

theorem shown_blanks (k : Nat) : Shown U 0 (List.replicate k 0x20) := by
  refine shown_printable (List.all_eq_true.mpr fun c hc => ?_)
  rw [List.eq_of_mem_replicate hc]
  rfl

theorem encodes_newline : Encodes 0x0A [0x0A] := Encodes.one (by decide : (0x0A : UInt8) < 0x80)

theorem valid_align {s : GoString} (hs : valid s = true) : ∀ pad : Nat → Nat,
    valid (align pad s) = true := by
  induction s, hs using valid_rec with
  | nil => exact fun _ => rfl
  | cons r y z hr hz ih =>
    intro pad
    have hpiece : valid (align pad y) = true := by
      rcases align_encodes hr pad with ⟨-, -, k, h⟩ | ⟨-, -, h⟩ | ⟨-, -, h⟩
      · rw [h]
        exact (shown_blanks (U := Unicode.basic) k).valid
      · rw [h]
        rfl
      · rw [h, ← List.append_nil y, valid_encodes hr]
        rfl
    rw [align_append, valid_append hpiece]
    exact ih _

/-- **What is shown of an aligned table**: exactly its text must be quiet but for what ends its cells,
and has to have as many lines. -/
theorem shown_align {s : GoString} (hs : valid s = true) : ∀ (n : Nat) (pad : Nat → Nat),
    Shown U n (align pad s) ↔ Tabular U n s := by
  induction s, hs using valid_rec with
  | nil =>
    intro n pad
    rw [tabular_nil]
    exact ⟨fun h => h.lines, fun h => h ▸ shown_nil⟩
  | cons r y z hr hz ih =>
    intro n pad
    rw [align_append, tabular_encodes hr]
    simp only [← ih _ fun i => pad (i + y.length)]
    rcases align_encodes hr pad with ⟨hterm, hbreak, k, h⟩ | ⟨hterm, hbreak, h⟩ | ⟨hterm, hbreak, h⟩
    · have hleft := shown_append_left (n := n) (b := align (fun i => pad (i + y.length)) z)
        (shown_blanks (U := U) k)
      rw [Nat.zero_add] at hleft
      rw [h, hleft, hterm, hbreak]
      simp
    · rw [h, shown_encodes encodes_newline, hterm, hbreak]
      simp
    · have hne : r ≠ 0x0A := fun h => by
        rw [h] at hterm
        cases hterm
      rw [h, shown_encodes hr, hterm, hbreak, if_neg hne]
      simp [hne]

/-- **What is shown of a flushed table.** -/
theorem shown_tabwriter {padding : GoString → Nat → Nat} {s : GoString} (hs : valid s = true) :
    Shown U n (tabwriter padding s) ↔ Tabular U n s := shown_align hs n _

/-! ## The text of a table -/

theorem valid_flatMap {α : Type*} {f : α → GoString} {xs : List α} (h : ∀ x ∈ xs, valid (f x) = true) :
    valid (xs.flatMap f) = true := by
  induction xs with
  | nil => rfl
  | cons x xs ih =>
    rw [List.flatMap_cons, valid_append (h x List.mem_cons_self)]
    exact ih fun y hy => h y (List.mem_cons_of_mem x hy)

theorem tabular_append (ha : valid a = true) : Tabular U n (a ++ b) ↔
    ∃ k l, Tabular U k a ∧ Tabular U l b ∧ k + l = n := by
  have hchars := chars_append ha b
  constructor
  · intro h
    refine ⟨_, _, ⟨fun c hc => h.quiet c ?_, rfl⟩, ⟨fun c hc => h.quiet c ?_, rfl⟩, ?_⟩
    · rw [hchars]
      exact List.mem_append_left _ hc
    · rw [hchars]
      exact List.mem_append_right _ hc
    · rw [← List.countP_append, ← hchars, h.lines]
  · rintro ⟨k, l, hka, hlb, rfl⟩
    refine ⟨fun c hc => ?_, ?_⟩
    · rw [hchars, List.mem_append] at hc
      exact hc.elim (hka.quiet c) (hlb.quiet c)
    · rw [hchars, List.countP_append, hka.lines, hlb.lines]

theorem Tabular.unique (h : Tabular U m a) (h' : Tabular U n a) : m = n := h.lines.symm.trans h'.lines

theorem Shown.tabular (h : Shown U n a) : Tabular U n a where
  quiet c hc := (h.quiet c hc).imp (fun hline => by rw [hline]; rfl) id
  lines := by
    rw [← h.lines, List.count]
    refine List.countP_congr fun c hc => ?_
    rcases h.quiet c hc with rfl | hq
    · exact iff_of_true rfl rfl
    · have hctl := hq.not_control
      simp only [isBreak, Bool.or_eq_true, beq_iff_eq]
      omega

/-- Text that stays in its cell, of which tabs of both kinds are the only control characters. -/
def Tame (U : Unicode) (s : GoString) : Prop := ∀ c ∈ chars s, c = 0x09 ∨ c = 0x0B ∨ Quiet U c

theorem tabular_zero : Tabular U 0 a ↔ Tame U a := by
  constructor
  · intro h c hc
    have hno : isBreak c = false := by
      have := List.countP_eq_zero.mp h.lines c hc
      simpa using this
    rcases h.quiet c hc with hterm | hq
    · simp only [isTerminator, Bool.and_eq_true, decide_eq_true_eq] at hterm
      simp only [isBreak, Bool.or_eq_false_iff, beq_eq_false_iff_ne] at hno
      omega
    · exact Or.inr (Or.inr hq)
  · intro h
    refine ⟨fun c hc => ?_, List.countP_eq_zero.mpr fun c hc => ?_⟩
    · rcases h c hc with rfl | rfl | hq
      · exact Or.inl rfl
      · exact Or.inl rfl
      · exact Or.inr hq
    · rcases h c hc with rfl | rfl | hq
      · exact Bool.false_ne_true
      · exact Bool.false_ne_true
      · have hctl := hq.not_control
        simp only [isBreak, Bool.or_eq_true, beq_iff_eq]
        omega

/-- **The lines of a table.** Texts that end one line at least each make a table of as many lines exactly
when each is a line. -/
theorem tabular_flatMap {α : Type*} {f : α → GoString} {xs : List α}
    (hv : ∀ x ∈ xs, valid (f x) = true) (hf : ∀ x ∈ xs, ¬ Tabular U 0 (f x)) :
    Tabular U xs.length (xs.flatMap f) ↔ ∀ x ∈ xs, Tabular U 1 (f x) := by
  have hlines : ∀ k, Tabular U k (xs.flatMap f) →
      xs.length ≤ k ∧ (k = xs.length → ∀ x ∈ xs, Tabular U 1 (f x)) := by
    induction xs with
    | nil => exact fun k _ => ⟨Nat.zero_le k, fun _ x hx => absurd hx List.not_mem_nil⟩
    | cons x xs ih =>
      rw [List.forall_mem_cons] at hv hf
      intro k h
      rw [List.flatMap_cons, tabular_append hv.1] at h
      obtain ⟨k₁, k₂, h₁, h₂, rfl⟩ := h
      obtain ⟨hlen, hrest⟩ := ih hv.2 hf.2 k₂ h₂
      have hpos : k₁ ≠ 0 := fun h0 => hf.1 (h0 ▸ h₁)
      refine ⟨by rw [List.length_cons]; omega, fun hk => ?_⟩
      rw [List.length_cons] at hk
      have hone : k₁ = 1 := by omega
      exact List.forall_mem_cons.mpr ⟨hone ▸ h₁, hrest (by omega)⟩
  constructor
  · exact fun h => (hlines _ h).2 rfl
  · intro h
    clear hlines hf
    induction xs with
    | nil => exact tabular_nil.mpr rfl
    | cons x xs ih =>
      rw [List.forall_mem_cons] at hv h
      rw [List.flatMap_cons, tabular_append hv.1]
      exact ⟨1, xs.length, h.1, ih hv.2 h.2, by rw [List.length_cons, Nat.add_comm]⟩

end Idryx.AiUsage
