import Mathlib.Algebra.Group.Nat.Defs
import Mathlib.Data.List.Sort
import Mathlib.Data.List.Infix

/-!
# Go strings

A Go `string` is a byte sequence; most of the program only compares them, and the parts that
look inside do so through packages `utf8`, `strings` and `strconv`.

* `GoString`, with Lean literals coerced through their UTF-8 encoding;
* `Utf8.decodeRune`, `Utf8.runes`, `Utf8.encodeRune`, `Utf8.valid`: invalid bytes decode to
  `U+FFFD` of width one, as the Go decoder does;
* `Unicode`: the tables of package `unicode` the program reads, with the laws it relies on;
* `Strings.trimSpace`, `Strings.toLower`, `Strings.join`, …, `Strconv.itoa`, `Strconv.quote`.
-/

namespace Idryx

/-- A Go string: any byte sequence. -/
abbrev GoString : Type := List UInt8

/-- The bytes of a string literal. -/
def GoString.ofString (s : String) : GoString := s.toByteArray.data.toList

instance : Coe String GoString := ⟨GoString.ofString⟩

theorem GoString.ofString_append (s t : String) : GoString.ofString (s ++ t) = GoString.ofString s ++ GoString.ofString t := by
  rw [GoString.ofString, String.toByteArray_append, ByteArray.toList_data_append]
  rfl

theorem GoString.ofString_eq (s : String) : GoString.ofString s = s.toList.flatMap String.utf8EncodeChar := by
  rw [GoString.ofString, ← String.utf8Encode_toList]
  exact List.toList_data_toByteArray

instance GoString.decidableMem (s : GoString) (xs : List GoString) : Decidable (s ∈ xs) :=
  inferInstance

theorem forall_byte {P : UInt8 → Prop} (h : ∀ n < 256, P (UInt8.ofNat n)) (b : UInt8) : P b := by
  have hb := h b.toNat b.toNat_lt
  rwa [UInt8.ofNat_toNat] at hb

theorem forall_mem_of_all {α : Type*} {P : α → Prop} [DecidablePred P] {l : List α}
    (h : (l.all fun a => P a) = true) : ∀ a ∈ l, P a := fun a ha => of_decide_eq_true (List.all_eq_true.mp h a ha)

/-! ## Package `utf8` -/

namespace Utf8

/-- The replacement character, which the decoder returns for an invalid byte. -/
def runeError : Nat := 0xFFFD

/-- A continuation byte. -/
def isCont (b : UInt8) : Bool := 0x80 ≤ b && b ≤ 0xBF

/-- The rune at the front of `s` and its width in bytes. -/
def decodeRune : GoString → Nat × Nat
  | [] => (runeError, 0)
  | b0 :: s =>
    let n0 := b0.toNat
    if b0 < 0x80 then (n0, 1)
    else if b0 < 0xC2 then (runeError, 1)
    else if b0 < 0xE0 then
      match s with
      | b1 :: _ =>
        if isCont b1 then ((n0 - 0xC0) * 64 + (b1.toNat - 0x80), 2) else (runeError, 1)
      | _ => (runeError, 1)
    else if b0 < 0xF0 then
      match s with
      | b1 :: b2 :: _ =>
        -- `E0` excludes overlong forms, `ED` excludes the surrogates
        if isCont b1 && isCont b2 && (b0 != 0xE0 || 0xA0 ≤ b1) && (b0 != 0xED || b1 ≤ 0x9F) then
          ((n0 - 0xE0) * 4096 + (b1.toNat - 0x80) * 64 + (b2.toNat - 0x80), 3)
        else (runeError, 1)
      | _ => (runeError, 1)
    else if b0 < 0xF5 then
      match s with
      | b1 :: b2 :: b3 :: _ =>
        if isCont b1 && isCont b2 && isCont b3 && (b0 != 0xF0 || 0x90 ≤ b1) &&
            (b0 != 0xF4 || b1 ≤ 0x8F) then
          ((n0 - 0xF0) * 262144 + (b1.toNat - 0x80) * 4096 + (b2.toNat - 0x80) * 64 +
            (b3.toNat - 0x80), 4)
        else (runeError, 1)
      | _ => (runeError, 1)
    else (runeError, 1)

/-- The runes of at most `n` decoding steps, each with its width. -/
def runesFrom : Nat → GoString → List (Nat × Nat)
  | 0, _ => []
  | _, [] => []
  | n + 1, b :: s => decodeRune (b :: s) :: runesFrom n ((b :: s).drop (decodeRune (b :: s)).2)

/-- The runes of `s` in order, each with its width. -/
def runes (s : GoString) : List (Nat × Nat) := runesFrom s.length s

/-- The encoding of a rune; surrogates and values past `U+10FFFF` encode as `U+FFFD`. -/
def encodeRune (r : Nat) : GoString :=
  if r < 0x80 then [UInt8.ofNat r]
  else if r < 0x800 then [UInt8.ofNat (0xC0 + r / 64), UInt8.ofNat (0x80 + r % 64)]
  else if (0xD800 ≤ r ∧ r < 0xE000) ∨ 0x110000 ≤ r then [0xEF, 0xBF, 0xBD]
  else if r < 0x10000 then
    [UInt8.ofNat (0xE0 + r / 4096), UInt8.ofNat (0x80 + r / 64 % 64), UInt8.ofNat (0x80 + r % 64)]
  else
    [UInt8.ofNat (0xF0 + r / 262144), UInt8.ofNat (0x80 + r / 4096 % 64),
      UInt8.ofNat (0x80 + r / 64 % 64), UInt8.ofNat (0x80 + r % 64)]

/-- `utf8.ValidString`: no byte decodes to a width-one replacement character. -/
def valid (s : GoString) : Bool := (runes s).all fun p => p.2 != 1 || p.1 != runeError

theorem decodeRune_ascii {b : UInt8} (hb : b < 0x80) (s : GoString) :
    decodeRune (b :: s) = (b.toNat, 1) := by
  simp [decodeRune, hb]

/-- **The decoder does not look past a byte that starts a rune.** -/
theorem decodeRune_append {y z : GoString} (hy : y ≠ []) (hz : ∀ b ∈ z.head?, isCont b = false) :
    decodeRune (y ++ z) = decodeRune y := by
  rcases z with _ | ⟨c, z⟩
  · rw [List.append_nil]
  have hc : isCont c = false := hz c rfl
  rcases y with _ | ⟨b0, _ | ⟨b1, _ | ⟨b2, _ | ⟨b3, y⟩⟩⟩⟩
  · exact absurd rfl hy
  · simp only [List.cons_append, List.nil_append, decodeRune, hc]
    rcases z with _ | ⟨c1, _ | ⟨c2, z⟩⟩ <;> simp [hc]
  · simp only [List.cons_append, List.nil_append, decodeRune, hc]
    rcases z with _ | ⟨c1, z⟩ <;> simp [hc]
  · simp [decodeRune, hc]
  · simp [decodeRune]

theorem decodeRune_width_pos (b : UInt8) (s : GoString) : 0 < (decodeRune (b :: s)).2 := by
  simp only [decodeRune]
  repeat' split
  all_goals simp

theorem decodeRune_width_le (s : GoString) : (decodeRune s).2 ≤ s.length := by
  rcases s with _ | ⟨b0, _ | ⟨b1, _ | ⟨b2, _ | ⟨b3, s⟩⟩⟩⟩ <;> simp only [decodeRune] <;>
    (repeat' split) <;> simp

theorem runesFrom_fuel : ∀ (n m : Nat) (s : GoString), s.length ≤ n → s.length ≤ m →
    runesFrom n s = runesFrom m s
  | 0, m, s, hn, _ => by
    obtain rfl := List.length_eq_zero_iff.mp (Nat.le_zero.mp hn)
    cases m <;> rfl
  | n + 1, 0, s, _, hm => by
    obtain rfl := List.length_eq_zero_iff.mp (Nat.le_zero.mp hm)
    rfl
  | n + 1, m + 1, [], _, _ => rfl
  | n + 1, m + 1, b :: s, hn, hm => by
    have hw := decodeRune_width_pos b s
    have hlen : ((b :: s).drop (decodeRune (b :: s)).2).length ≤ s.length := by
      simp only [List.length_drop, List.length_cons]; omega
    simp only [List.length_cons] at hn hm
    rw [runesFrom, runesFrom, runesFrom_fuel n m _ (by omega) (by omega)]

theorem runes_cons (b : UInt8) (s : GoString) :
    runes (b :: s) =
      decodeRune (b :: s) :: runes ((b :: s).drop (decodeRune (b :: s)).2) := by
  have hw := decodeRune_width_pos b s
  rw [runes, List.length_cons, runesFrom, runes]
  congr 1
  exact runesFrom_fuel _ _ _ (by simp only [List.length_drop, List.length_cons]; omega) le_rfl

theorem runes_ascii_cons {b : UInt8} (hb : b < 0x80) (s : GoString) :
    runes (b :: s) = (b.toNat, 1) :: runes s := by
  rw [runes_cons, decodeRune_ascii hb]; rfl

/-- **Decoding resynchronises**: a string decodes as its parts wherever the second part does not
start with a continuation byte. -/
theorem runes_append {z : GoString} (hz : ∀ b ∈ z.head?, isCont b = false) : ∀ y : GoString,
    runes (y ++ z) = runes y ++ runes z
  | [] => rfl
  | b :: y => by
    have hd := decodeRune_append (y := b :: y) (by simp) hz
    have hw := decodeRune_width_le (b :: y)
    have hp := decodeRune_width_pos b y
    rw [List.cons_append] at hd
    rw [List.cons_append, runes_cons, hd, runes_cons b y, List.cons_append,
      ← runes_append hz ((b :: y).drop (decodeRune (b :: y)).2)]
    congr 2
    rw [← List.cons_append, List.drop_append_of_le_length hw]
  termination_by y => y.length
  decreasing_by simp only [List.length_drop, List.length_cons]; omega

end Utf8

/-! ## Package `unicode` -/

/-- The tables of package `unicode` that differ between Unicode versions, with what the program
relies on: ASCII letters map as in ASCII, white space has no lower case, and no format character
(`unicode.Cf`) is ASCII or the ellipsis. -/
structure Unicode where
  toLower : Nat → Nat
  isPrint : Nat → Bool
  isCf : Nat → Bool
  toLower_ascii : ∀ r < 0x80, toLower r = if 0x41 ≤ r ∧ r ≤ 0x5A then r + 0x20 else r
  toLower_space : ∀ r ∈ [0x85, 0xA0, 0x1680, 0x2000, 0x2001, 0x2002, 0x2003, 0x2004, 0x2005,
    0x2006, 0x2007, 0x2008, 0x2009, 0x200A, 0x2028, 0x2029, 0x202F, 0x205F, 0x3000], toLower r = r
  isCf_ascii : ∀ r < 0x80, isCf r = false
  isCf_ellipsis : isCf 0x2026 = false

/-- The tables cut down to ASCII, the two letters whose lower case is ASCII although they are not
(`U+0130` and the Kelvin sign), and the bidirectional format characters. -/
def Unicode.basic : Unicode where
  toLower r :=
    if 0x41 ≤ r ∧ r ≤ 0x5A then r + 0x20 else if r = 0x130 then 0x69 else
      if r = 0x212A then 0x6B else r
  isPrint r := 0x20 ≤ r && r < 0x7F
  isCf r := (0x200B ≤ r && r ≤ 0x200F) || (0x202A ≤ r && r ≤ 0x202E) || (0x2066 ≤ r && r ≤ 0x2069)
  toLower_ascii r hr := by
    rw [if_neg (show r ≠ 0x130 by omega), if_neg (show r ≠ 0x212A by omega)]
  toLower_space := by decide
  isCf_ascii r hr := by
    simp only [Bool.or_eq_false_iff, Bool.and_eq_false_iff, decide_eq_false_iff_not]
    omega
  isCf_ellipsis := rfl

/-! ## Package `strings` -/

namespace Strings

/-- The encodings of the white space runes (`unicode.IsSpace`). -/
def spaces : List GoString :=
  [[0x09], [0x0A], [0x0B], [0x0C], [0x0D], [0x20], [0xC2, 0x85], [0xC2, 0xA0], [0xE1, 0x9A, 0x80],
    [0xE2, 0x80, 0x80], [0xE2, 0x80, 0x81], [0xE2, 0x80, 0x82], [0xE2, 0x80, 0x83],
    [0xE2, 0x80, 0x84], [0xE2, 0x80, 0x85], [0xE2, 0x80, 0x86], [0xE2, 0x80, 0x87],
    [0xE2, 0x80, 0x88], [0xE2, 0x80, 0x89], [0xE2, 0x80, 0x8A], [0xE2, 0x80, 0xA8],
    [0xE2, 0x80, 0xA9], [0xE2, 0x80, 0xAF], [0xE2, 0x81, 0x9F], [0xE3, 0x80, 0x80]]

/-- Strip prefixes found in `sp`, at most `n` times. -/
def stripPrefixes (sp : List GoString) : Nat → GoString → GoString
  | 0, s => s
  | n + 1, s =>
    match sp.find? (·.isPrefixOf s) with
    | some e => stripPrefixes sp n (s.drop e.length)
    | none => s

/-- `strings.TrimLeftFunc(s, unicode.IsSpace)`. -/
def trimLeft (s : GoString) : GoString := stripPrefixes spaces s.length s

/-- `strings.TrimRightFunc(s, unicode.IsSpace)`: the same from the other end. -/
def trimRight (s : GoString) : GoString :=
  (stripPrefixes (spaces.map List.reverse) s.length s.reverse).reverse

/-- `strings.TrimSpace` (and `bytes.TrimSpace`). -/
def trimSpace (s : GoString) : GoString := trimRight (trimLeft s)

/-- `strings.ToLower`: rune by rune, an invalid byte becoming the replacement character. -/
def toLower (U : Unicode) (s : GoString) : GoString :=
  (Utf8.runes s).flatMap fun p => Utf8.encodeRune (U.toLower p.1)

/-- `strings.HasPrefix`. -/
def hasPrefix (s p : GoString) : Bool := p.isPrefixOf s

/-- `strings.HasSuffix`. -/
def hasSuffix (s p : GoString) : Bool := p.isSuffixOf s

/-- `strings.CutSuffix`. -/
def cutSuffix (s p : GoString) : Option GoString :=
  if hasSuffix s p then some (s.take (s.length - p.length)) else none

/-- `strings.Index` of `k` in `s`. -/
def index (s k : GoString) : Option Nat := s.tails.findIdx? (k.isPrefixOf ·)

/-- `strings.Contains`. -/
def contains (s k : GoString) : Bool := (index s k).isSome

/-- `strings.LastIndex` of one byte. -/
def lastIndexByte (s : GoString) (b : UInt8) : Option Nat :=
  (s.reverse.findIdx? (· == b)).map (s.length - 1 - ·)

/-- `strings.SplitN` at one byte, for a positive `n`. -/
def splitN (b : UInt8) : Nat → GoString → List GoString
  | 0, _ => []
  | 1, s => [s]
  | n + 2, s =>
    match s.findIdx? (· == b) with
    | some i => s.take i :: splitN b (n + 1) (s.drop (i + 1))
    | none => [s]

/-- `strings.TrimPrefix`. -/
def trimPrefix (s p : GoString) : GoString := if hasPrefix s p then s.drop p.length else s

/-- `strings.Join`. -/
def join (xs : List GoString) (sep : GoString) : GoString := List.intercalate sep xs

/-- `sort.Strings`. -/
def sort (xs : List GoString) : List GoString := xs.insertionSort (· ≤ ·)

end Strings

/-! ## Package `strconv` -/

namespace Strconv

/-- The decimal numeral of `n` (`%d`). -/
def itoa (n : Nat) : GoString := GoString.ofString (toString n)

/-- The lower-case hexadecimal digits of `n`, `w` of them. -/
def hex : Nat → Nat → GoString
  | 0, _ => []
  | w + 1, n =>
    let d := n / 16 ^ w % 16
    UInt8.ofNat (if d < 10 then 0x30 + d else 0x57 + d) :: hex w n

/-- The hexadecimal numeral of `n`, padded to `w` digits. -/
def hexPad (w n : Nat) : GoString := hex (max w (Nat.log2 n / 4 + 1)) n

/-- One rune of a quoted string; `w` is its width in the source string and `b` its first byte. -/
def quoteRune (U : Unicode) (r w : Nat) (b : UInt8) : GoString :=
  if r = Utf8.runeError ∧ w = 1 then ("\\x" : GoString) ++ hex 2 b.toNat
  else if r = 0x22 ∨ r = 0x5C then [0x5C, UInt8.ofNat r]
  else if U.isPrint r then Utf8.encodeRune r
  else if r = 0x07 then "\\a" else if r = 0x08 then "\\b" else if r = 0x0C then "\\f"
  else if r = 0x0A then "\\n" else if r = 0x0D then "\\r" else if r = 0x09 then "\\t"
  else if r = 0x0B then "\\v"
  else if r < 0x20 ∨ r = 0x7F then ("\\x" : GoString) ++ hex 2 r
  else if r < 0x10000 then ("\\u" : GoString) ++ hex 4 r
  else ("\\U" : GoString) ++ hex 8 r

/-- The body of `strconv.Quote`. -/
def quoteFrom (U : Unicode) : List (Nat × Nat) → GoString → GoString
  | [], _ => []
  | (r, w) :: rs, s => quoteRune U r w (s.headD 0) ++ quoteFrom U rs (s.drop w)

/-- `strconv.Quote` (`%q`). -/
def quote (U : Unicode) (s : GoString) : GoString :=
  [0x22] ++ quoteFrom U (Utf8.runes s) s ++ [0x22]

end Strconv

end Idryx
