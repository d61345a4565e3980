import Idryx.Go.Strings

/-!
# Valid text

Text that is valid UTF-8 is a sequence of encoded runes, and decodes as one.

* `Utf8.Encodes`: the encodings of the runes; **`Utf8.decodeRune_cases`**: what the decoder reads
  successfully is one of them;
* **`Utf8.valid_rec`**: induction over the runes of a valid text;
* `Utf8.chars`; `Utf8.valid_append`, `Utf8.chars_append`; `Utf8.valid_toLower`;
* `Utf8.text_rec`: induction over any text; `Utf8.replaceInvalid`, **`Utf8.replaceInvalid_eq_self_iff`**.
-/

namespace Idryx.Utf8

/-! ## Encodings -/

/-- The bytes encode the rune. -/
inductive Encodes : Nat → GoString → Prop
  | one {b0 : UInt8} (h0 : b0 < 0x80) : Encodes b0.toNat [b0]
  | two {b0 b1 : UInt8} (h0 : ¬ b0 < 0xC2) (h0' : b0 < 0xE0) (h1 : isCont b1 = true) :
      Encodes ((b0.toNat - 0xC0) * 64 + (b1.toNat - 0x80)) [b0, b1]
  | three {b0 b1 b2 : UInt8} (h0 : ¬ b0 < 0xE0) (h0' : b0 < 0xF0) (h : (isCont b1 && isCont b2 &&
        (b0 != 0xE0 || 0xA0 ≤ b1) && (b0 != 0xED || b1 ≤ 0x9F)) = true) :
      Encodes ((b0.toNat - 0xE0) * 4096 + (b1.toNat - 0x80) * 64 + (b2.toNat - 0x80)) [b0, b1, b2]
  | four {b0 b1 b2 b3 : UInt8} (h0 : ¬ b0 < 0xF0) (h0' : b0 < 0xF5) (h : (isCont b1 && isCont b2 &&
        isCont b3 && (b0 != 0xF0 || 0x90 ≤ b1) && (b0 != 0xF4 || b1 ≤ 0x8F)) = true) :
      Encodes ((b0.toNat - 0xF0) * 262144 + (b1.toNat - 0x80) * 4096 + (b2.toNat - 0x80) * 64 +
        (b3.toNat - 0x80)) [b0, b1, b2, b3]

theorem not_lt_of_not_lt {b c d : UInt8} (h : ¬ b < d) (hcd : c ≤ d) : ¬ b < c :=
  fun hb => h (UInt8.lt_of_lt_of_le hb hcd)

/-- **What the decoder reads at the front of a text**: an error of one byte, or an encoded rune. -/
theorem decodeRune_cases (b0 : UInt8) (s : GoString) : decodeRune (b0 :: s) = (runeError, 1) ∨
    ∃ r y z, b0 :: s = y ++ z ∧ decodeRune (b0 :: s) = (r, y.length) ∧ Encodes r y := by
  by_cases h80 : b0 < 0x80
  · exact Or.inr ⟨_, [b0], s, rfl, decodeRune_ascii h80 s, Encodes.one h80⟩
  by_cases hC2 : b0 < 0xC2
  · exact Or.inl (by simp only [decodeRune, if_neg h80, if_pos hC2])
  by_cases hE0 : b0 < 0xE0
  · rcases s with _ | ⟨b1, s⟩
    · exact Or.inl (by simp only [decodeRune, if_neg h80, if_neg hC2, if_pos hE0])
    · cases h1 : isCont b1 with
      | false => exact Or.inl (by simp [decodeRune, h80, hC2, hE0, h1])
      | true =>
        exact Or.inr ⟨_, [b0, b1], s, rfl, by simp [decodeRune, h80, hC2, hE0, h1],
          Encodes.two hC2 hE0 h1⟩
  by_cases hF0 : b0 < 0xF0
  · rcases s with _ | ⟨b1, _ | ⟨b2, s⟩⟩
    · exact Or.inl (by simp only [decodeRune, if_neg h80, if_neg hC2, if_neg hE0, if_pos hF0])
    · exact Or.inl (by simp only [decodeRune, if_neg h80, if_neg hC2, if_neg hE0, if_pos hF0])
    · by_cases h : (isCont b1 && isCont b2 && (b0 != 0xE0 || 0xA0 ≤ b1) &&
          (b0 != 0xED || b1 ≤ 0x9F)) = true
      · refine Or.inr ⟨_, [b0, b1, b2], s, rfl, ?_, Encodes.three hE0 hF0 h⟩
        simp only [decodeRune, if_neg h80, if_neg hC2, if_neg hE0, if_pos hF0, if_pos h]
        rfl
      · refine Or.inl ?_
        simp only [decodeRune, if_neg h80, if_neg hC2, if_neg hE0, if_pos hF0, if_neg h]
  by_cases hF5 : b0 < 0xF5
  · rcases s with _ | ⟨b1, _ | ⟨b2, _ | ⟨b3, s⟩⟩⟩
    · exact Or.inl (by simp only [decodeRune, if_neg h80, if_neg hC2, if_neg hE0, if_neg hF0, if_pos hF5])
    · exact Or.inl (by simp only [decodeRune, if_neg h80, if_neg hC2, if_neg hE0, if_neg hF0, if_pos hF5])
    · exact Or.inl (by simp only [decodeRune, if_neg h80, if_neg hC2, if_neg hE0, if_neg hF0, if_pos hF5])
    · by_cases h : (isCont b1 && isCont b2 && isCont b3 && (b0 != 0xF0 || 0x90 ≤ b1) &&
          (b0 != 0xF4 || b1 ≤ 0x8F)) = true
      · refine Or.inr ⟨_, [b0, b1, b2, b3], s, rfl, ?_, Encodes.four hF0 hF5 h⟩
        simp only [decodeRune, if_neg h80, if_neg hC2, if_neg hE0, if_neg hF0, if_pos hF5, if_pos h]
        rfl
      · refine Or.inl ?_
        simp only [decodeRune, if_neg h80, if_neg hC2, if_neg hE0, if_neg hF0, if_pos hF5, if_neg h]
  · refine Or.inl ?_
    simp only [decodeRune, if_neg h80, if_neg hC2, if_neg hE0, if_neg hF0, if_neg hF5]

theorem Encodes.decodeRune {r : Nat} {y : GoString} (h : Encodes r y) (z : GoString) :
    decodeRune (y ++ z) = (r, y.length) := by
  cases h with
  | one h0 => exact decodeRune_ascii h0 z
  | @two b0 b1 h0 h0' h1 =>
    have h80 : ¬ b0 < 0x80 := not_lt_of_not_lt h0 (by decide)
    simp [Utf8.decodeRune, h80, h0, h0', h1]
  | @three b0 b1 b2 h0 h0' h =>
    have hC2 : ¬ b0 < 0xC2 := not_lt_of_not_lt h0 (by decide)
    have h80 : ¬ b0 < 0x80 := not_lt_of_not_lt h0 (by decide)
    simp only [List.cons_append, List.nil_append, Utf8.decodeRune, if_neg h80, if_neg hC2, if_neg h0,
      if_pos h0', if_pos h]
    rfl
  | @four b0 b1 b2 b3 h0 h0' h =>
    have hE0 : ¬ b0 < 0xE0 := not_lt_of_not_lt h0 (by decide)
    have hC2 : ¬ b0 < 0xC2 := not_lt_of_not_lt h0 (by decide)
    have h80 : ¬ b0 < 0x80 := not_lt_of_not_lt h0 (by decide)
    simp only [List.cons_append, List.nil_append, Utf8.decodeRune, if_neg h80, if_neg hC2, if_neg hE0,
      if_neg h0, if_pos h0', if_pos h]
    rfl

theorem isCont_iff {b : UInt8} : isCont b = true ↔ 0x80 ≤ b ∧ b ≤ 0xBF := by simp [isCont]

theorem ofNat_eq_of_eq_toNat {n : Nat} {b : UInt8} (h : n = b.toNat) : UInt8.ofNat n = b := by
  rw [h, UInt8.ofNat_toNat]

theorem three_iff {b0 b1 b2 : UInt8} : (isCont b1 && isCont b2 && (b0 != 0xE0 || 0xA0 ≤ b1) &&
      (b0 != 0xED || b1 ≤ 0x9F)) = true ↔
    (0x80 ≤ b1.toNat ∧ b1.toNat ≤ 0xBF) ∧ (0x80 ≤ b2.toNat ∧ b2.toNat ≤ 0xBF) ∧
      (b0.toNat ≠ 0xE0 ∨ 0xA0 ≤ b1.toNat) ∧ (b0.toNat ≠ 0xED ∨ b1.toNat ≤ 0x9F) := by
  simp only [Bool.and_eq_true, Bool.or_eq_true, bne_iff_ne, decide_eq_true_eq, isCont_iff,
    UInt8.le_iff_toNat_le, UInt8.reduceToNat, ne_eq, ← UInt8.toNat_inj, and_assoc]

theorem four_iff {b0 b1 b2 b3 : UInt8} : (isCont b1 && isCont b2 && isCont b3 &&
      (b0 != 0xF0 || 0x90 ≤ b1) && (b0 != 0xF4 || b1 ≤ 0x8F)) = true ↔
    (0x80 ≤ b1.toNat ∧ b1.toNat ≤ 0xBF) ∧ (0x80 ≤ b2.toNat ∧ b2.toNat ≤ 0xBF) ∧
      (0x80 ≤ b3.toNat ∧ b3.toNat ≤ 0xBF) ∧
      (b0.toNat ≠ 0xF0 ∨ 0x90 ≤ b1.toNat) ∧ (b0.toNat ≠ 0xF4 ∨ b1.toNat ≤ 0x8F) := by
  simp only [Bool.and_eq_true, Bool.or_eq_true, bne_iff_ne, decide_eq_true_eq, isCont_iff,
    UInt8.le_iff_toNat_le, UInt8.reduceToNat, ne_eq, ← UInt8.toNat_inj, and_assoc]

/-- **An encoding is what the encoder writes.** -/
theorem Encodes.encodeRune {r : Nat} {y : GoString} (h : Encodes r y) : Utf8.encodeRune r = y := by
  cases h with
  | @one b0 h0 =>
    have hlt : b0.toNat < 0x80 := UInt8.lt_iff_toNat_lt.mp h0
    rw [Utf8.encodeRune, if_pos hlt, UInt8.ofNat_toNat]
  | @two b0 b1 h0 h0' h1 =>
    simp only [isCont_iff, UInt8.le_iff_toNat_le, UInt8.lt_iff_toNat_lt, UInt8.reduceToNat] at h0 h0' h1
    rw [Utf8.encodeRune, if_neg (by omega), if_pos (by omega)]
    rw [ofNat_eq_of_eq_toNat (b := b0) (by omega), ofNat_eq_of_eq_toNat (b := b1) (by omega)]
  | @three b0 b1 b2 h0 h0' h =>
    simp only [UInt8.lt_iff_toNat_lt, UInt8.reduceToNat] at h0 h0'
    obtain ⟨h1, h2, hlow, hsurrogate⟩ := three_iff.mp h
    rw [Utf8.encodeRune, if_neg (by omega), if_neg (by omega), if_neg (by omega), if_pos (by omega)]
    rw [ofNat_eq_of_eq_toNat (b := b0) (by omega), ofNat_eq_of_eq_toNat (b := b1) (by omega),
      ofNat_eq_of_eq_toNat (b := b2) (by omega)]
  | @four b0 b1 b2 b3 h0 h0' h =>
    simp only [UInt8.lt_iff_toNat_lt, UInt8.reduceToNat] at h0 h0'
    obtain ⟨h1, h2, h3, hlow, hhigh⟩ := four_iff.mp h
    rw [Utf8.encodeRune, if_neg (by omega), if_neg (by omega), if_neg (by omega), if_neg (by omega)]
    rw [ofNat_eq_of_eq_toNat (b := b0) (by omega), ofNat_eq_of_eq_toNat (b := b1) (by omega),
      ofNat_eq_of_eq_toNat (b := b2) (by omega), ofNat_eq_of_eq_toNat (b := b3) (by omega)]

theorem Encodes.ascii_or {r : Nat} {y : GoString} (h : Encodes r y) :
    (∃ b : UInt8, b < 0x80 ∧ y = [b] ∧ r = b.toNat) ∨ 0x80 ≤ r ∧ 1 < y.length ∧ ∀ b ∈ y, 0x80 ≤ b := by
  cases h with
  | @one b0 h0 => exact Or.inl ⟨b0, h0, rfl, rfl⟩
  | @two b0 b1 h0 h0' h1 =>
    simp only [isCont_iff, UInt8.le_iff_toNat_le, UInt8.lt_iff_toNat_lt, UInt8.reduceToNat] at h0 h0' h1
    refine Or.inr ⟨by omega, by simp, ?_⟩
    simp only [List.forall_mem_cons, UInt8.le_iff_toNat_le, UInt8.reduceToNat]
    exact ⟨by omega, h1.1, by simp⟩
  | @three b0 b1 b2 h0 h0' h =>
    simp only [UInt8.lt_iff_toNat_lt, UInt8.reduceToNat] at h0 h0'
    obtain ⟨h1, h2, hlow, -⟩ := three_iff.mp h
    refine Or.inr ⟨by omega, by simp, ?_⟩
    simp only [List.forall_mem_cons, UInt8.le_iff_toNat_le, UInt8.reduceToNat]
    exact ⟨by omega, h1.1, h2.1, by simp⟩
  | @four b0 b1 b2 b3 h0 h0' h =>
    simp only [UInt8.lt_iff_toNat_lt, UInt8.reduceToNat] at h0 h0'
    obtain ⟨h1, h2, h3, hlow, -⟩ := four_iff.mp h
    refine Or.inr ⟨by omega, by simp, ?_⟩
    simp only [List.forall_mem_cons, UInt8.le_iff_toNat_le, UInt8.reduceToNat]
    exact ⟨by omega, h1.1, h2.1, h3.1, by simp⟩

theorem Encodes.ne_nil {r : Nat} {y : GoString} (h : Encodes r y) : y ≠ [] := by
  cases h <;> exact List.cons_ne_nil _ _

/-! ## Valid text -/

/-- The runes of a text. -/
def chars (s : GoString) : List Nat := (runes s).map Prod.fst

theorem runes_encodes {r : Nat} {y : GoString} (h : Encodes r y) (z : GoString) :
    runes (y ++ z) = (r, y.length) :: runes z := by
  obtain ⟨b, u, rfl⟩ := List.exists_cons_of_ne_nil h.ne_nil
  have hd := h.decodeRune z
  rw [List.cons_append] at hd ⊢
  rw [runes_cons, hd, ← List.cons_append]
  congr 2
  exact List.drop_left

theorem chars_encodes {r : Nat} {y : GoString} (h : Encodes r y) (z : GoString) :
    chars (y ++ z) = r :: chars z := by
  rw [chars, runes_encodes h]
  rfl

theorem valid_encodes {r : Nat} {y : GoString} (h : Encodes r y) (z : GoString) :
    valid (y ++ z) = valid z := by
  have hok : (y.length != 1 || r != runeError) = true := by
    rcases h.ascii_or with ⟨b, hb, rfl, rfl⟩ | ⟨-, hlen, -⟩
    · have hlt : b.toNat < 0x80 := UInt8.lt_iff_toNat_lt.mp hb
      have hne : b.toNat ≠ runeError := by
        unfold runeError
        omega
      simp [hne]
    · have hne : y.length ≠ 1 := by omega
      simp [hne]
  rw [valid, runes_encodes h, List.all_cons, hok, Bool.true_and]
  rfl

/-- **Induction over the runes of a valid text.** -/
@[elab_as_elim]
theorem valid_rec {motive : ∀ s, valid s = true → Prop} (nil : motive [] rfl)
    (cons : ∀ r y z (hr : Encodes r y) (hz : valid z = true), motive z hz →
      motive (y ++ z) ((valid_encodes hr z).trans hz)) : ∀ s (hs : valid s = true), motive s hs
  | [], _ => nil
  | b :: s, hs => by
    rcases decodeRune_cases b s with herr | ⟨r, y, z, hyz, -, hr⟩
    · rw [valid, runes_cons, herr] at hs
      simp at hs
    · have hz : valid z = true := by
        rw [hyz, valid_encodes hr] at hs
        exact hs
      have hlt : z.length ≤ s.length := by
        have hpos := List.length_pos_of_ne_nil hr.ne_nil
        have hlen := congrArg List.length hyz
        rw [List.length_cons, List.length_append] at hlen
        omega
      have hstep := cons r y z hr hz (valid_rec nil cons z hz)
      simp only [hyz]
      exact hstep
  termination_by s => s.length

theorem valid_append {y : GoString} (hy : valid y = true) (z : GoString) :
    valid (y ++ z) = valid z := by
  induction y, hy using valid_rec with
  | nil => rfl
  | cons r y y' hr hy' ih => rw [List.append_assoc, valid_encodes hr, ih]

theorem chars_append {y : GoString} (hy : valid y = true) (z : GoString) :
    chars (y ++ z) = chars y ++ chars z := by
  induction y, hy using valid_rec with
  | nil => rfl
  | cons r y y' hr hy' ih =>
    rw [List.append_assoc, chars_encodes hr, chars_encodes hr, ih, List.cons_append]

/-! ## What is encoded is valid -/

theorem exists_encodes_encodeRune (r : Nat) : ∃ r', Encodes r' (encodeRune r) := by
  unfold encodeRune
  split_ifs with h80 h800 hsur h10000
  · refine ⟨_, Encodes.one (UInt8.lt_iff_toNat_lt.mpr ?_)⟩
    simp only [UInt8.toNat_ofNat', UInt8.reduceToNat]
    omega
  · refine ⟨_, Encodes.two ?_ ?_ ?_⟩
    all_goals simp only [isCont_iff, UInt8.le_iff_toNat_le, UInt8.lt_iff_toNat_lt, UInt8.toNat_ofNat',
      UInt8.reduceToNat]
    all_goals omega
  · exact ⟨_, Encodes.three (by decide) (by decide) (by decide)⟩
  · refine ⟨_, Encodes.three ?_ ?_ (three_iff.mpr ?_)⟩
    all_goals simp only [UInt8.lt_iff_toNat_lt, UInt8.reduceToNat, UInt8.toNat_ofNat']
    all_goals omega
  · refine ⟨_, Encodes.four ?_ ?_ (four_iff.mpr ?_)⟩
    all_goals simp only [UInt8.lt_iff_toNat_lt, UInt8.reduceToNat, UInt8.toNat_ofNat']
    all_goals omega

/-- **Lower-case text is valid**, whatever it was made of. -/
theorem valid_toLower (U : Unicode) (s : GoString) : valid (Strings.toLower U s) = true := by
  unfold Strings.toLower
  induction runes s with
  | nil => rfl
  | cons p rs ih =>
    obtain ⟨r, hr⟩ := exists_encodes_encodeRune (U.toLower p.1)
    rw [List.flatMap_cons, valid_encodes hr]
    exact ih

/-! ## Text that need not be valid -/

/-- **Induction over a text**: over its runes, and the bytes that are none. -/
@[elab_as_elim]
theorem text_rec {motive : GoString → Prop} (nil : motive [])
    (error : ∀ b s, decodeRune (b :: s) = (runeError, 1) → motive s → motive (b :: s))
    (encodes : ∀ r y z, Encodes r y → motive z → motive (y ++ z)) : ∀ s, motive s
  | [] => nil
  | b :: s => by
    rcases decodeRune_cases b s with herr | ⟨r, y, z, hyz, -, hr⟩
    · exact error b s herr (text_rec nil error encodes s)
    · have hlt : z.length ≤ s.length := by
        have hpos := List.length_pos_of_ne_nil hr.ne_nil
        have hlen := congrArg List.length hyz
        rw [List.length_cons, List.length_append] at hlen
        omega
      rw [hyz]
      exact encodes r y z hr (text_rec nil error encodes z)
  termination_by s => s.length

theorem runes_error {b : UInt8} {s : GoString} (h : decodeRune (b :: s) = (runeError, 1)) :
    runes (b :: s) = (runeError, 1) :: runes s := by
  rw [runes_cons, h]
  rfl

/-- Each byte that is no part of a rune becomes the replacement character. -/
def replaceInvalid (s : GoString) : GoString := (runes s).flatMap fun p => encodeRune p.1

theorem replaceInvalid_error {b : UInt8} {s : GoString} (h : decodeRune (b :: s) = (runeError, 1)) :
    replaceInvalid (b :: s) = encodeRune runeError ++ replaceInvalid s := by
  rw [replaceInvalid, runes_error h, List.flatMap_cons]
  rfl

theorem replaceInvalid_encodes {r : Nat} {y : GoString} (h : Encodes r y) (z : GoString) :
    replaceInvalid (y ++ z) = y ++ replaceInvalid z := by
  rw [replaceInvalid, runes_encodes h, List.flatMap_cons, h.encodeRune]
  rfl

theorem valid_replaceInvalid (s : GoString) : valid (replaceInvalid s) = true := by
  unfold replaceInvalid
  induction runes s with
  | nil => rfl
  | cons p rs ih =>
    obtain ⟨r, hr⟩ := exists_encodes_encodeRune p.1
    rw [List.flatMap_cons, valid_encodes hr]
    exact ih

theorem replaceInvalid_eq_self {s : GoString} (hs : valid s = true) : replaceInvalid s = s := by
  induction s, hs using valid_rec with
  | nil => rfl
  | cons r y z hr hz ih =>
    rw [replaceInvalid_encodes hr, ih]

/-- **Only valid text stays as it is.** -/
theorem replaceInvalid_eq_self_iff {s : GoString} : replaceInvalid s = s ↔ valid s = true :=
  ⟨fun h => h ▸ valid_replaceInvalid s, replaceInvalid_eq_self⟩

theorem replaceInvalid_append {z : GoString} (hz : ∀ b ∈ z.head?, isCont b = false) (y : GoString) :
    replaceInvalid (y ++ z) = replaceInvalid y ++ replaceInvalid z := by
  rw [replaceInvalid, runes_append hz, List.flatMap_append]
  rfl

theorem replaceInvalid_valid_append {y : GoString} (hy : valid y = true) (z : GoString) :
    replaceInvalid (y ++ z) = y ++ replaceInvalid z := by
  induction y, hy using valid_rec with
  | nil => rfl
  | cons r x y hr hy ih => rw [List.append_assoc, replaceInvalid_encodes hr, ih, List.append_assoc]

theorem replaceInvalid_ascii_append {y : GoString} (hy : ∀ b ∈ y, b < 0x80) (z : GoString) :
    replaceInvalid (y ++ z) = y ++ replaceInvalid z := by
  induction y with
  | nil => rfl
  | cons b y ih =>
    obtain ⟨hb, hy⟩ := List.forall_mem_cons.mp hy
    have hcons : b :: y ++ z = [b] ++ (y ++ z) := rfl
    rw [hcons, replaceInvalid_encodes (Encodes.one hb), ih hy]
    rfl

theorem replaceInvalid_ascii {s : GoString} (h : ∀ b ∈ s, b < 0x80) : replaceInvalid s = s := by
  have happend := replaceInvalid_ascii_append h []
  have hnil : replaceInvalid [] = [] := rfl
  rwa [List.append_nil, hnil, List.append_nil] at happend

theorem not_mem_replaceInvalid {b : UInt8} (hb : b < 0x80) {s : GoString} (h : b ∉ s) : b ∉ replaceInvalid s := by
  induction s using text_rec with
  | nil => exact h
  | error c s herr ih =>
    rw [replaceInvalid_error herr, List.mem_append, not_or]
    have hfresh : ∀ c ∈ encodeRune runeError, ¬ c < 0x80 := forall_mem_of_all (by decide)
    exact ⟨fun hmem => hfresh b hmem hb, ih fun hmem => h (List.mem_cons_of_mem c hmem)⟩
  | encodes r y z hr ih =>
    rw [List.mem_append, not_or] at h
    rw [replaceInvalid_encodes hr, List.mem_append, not_or]
    exact ⟨h.1, ih h.2⟩

theorem replaceInvalid_eq_nil {s : GoString} : replaceInvalid s = [] ↔ s = [] := by
  refine ⟨fun h => ?_, fun h => by rw [h]; rfl⟩
  induction s using text_rec with
  | nil => rfl
  | error c s herr ih =>
    rw [replaceInvalid_error herr, List.append_eq_nil_iff] at h
    exact absurd h.1 (by decide)
  | encodes r y z hr ih =>
    rw [replaceInvalid_encodes hr, List.append_eq_nil_iff] at h
    exact absurd h.1 hr.ne_nil

theorem valid_append_iff {y z : GoString} (hz : ∀ b ∈ z.head?, isCont b = false) :
    valid (y ++ z) = (valid y && valid z) := by
  rw [valid, runes_append hz, List.all_append]
  rfl

end Idryx.Utf8
