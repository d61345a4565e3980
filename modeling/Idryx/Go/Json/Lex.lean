import Idryx.Go.Url
import Idryx.Go.Utf8

/-!
# JSON tokens

The lexical part of package `encoding/json`: the scanner's strings, numbers and literals, and the
`unquote` of a string, which replaces what is not valid UTF-8 or not a pair of surrogates by `U+FFFD`.

* `rawString`, `unquote`, `number`, `token`, `lex`;
* `RawString`, **`token_cases`**: what a token takes; `lexFrom_fuel`: the bytes of a text are turns
  enough;
* `escape`, `Token.text`; **`unquote_escape`**, **`lex_text`**: strings and tokens are read back from
  their text.
-/

namespace Idryx.Json

open Url (unhex)

/-! ## Strings -/

/-- The escapes of one character. -/
def simpleEscapes : List UInt8 := [0x22, 0x5C, 0x2F, 0x62, 0x66, 0x6E, 0x72, 0x74]

/-- A digit of a number of base 16. -/
def isHex (c : UInt8) : Bool := (unhex c).isSome

/-- The bytes of a string up to its closing quote, and what is behind it. -/
def rawString : GoString → Option (GoString × GoString)
  | [] => none
  | c :: s =>
    if c = 0x22 then some ([], s)
    else if c = 0x5C then
      match s with
      | [] => none
      | e :: s =>
        if e = 0x75 then
          match s with
          | i :: j :: k :: l :: s =>
            if isHex i && isHex j && isHex k && isHex l then
              (rawString s).map fun p => (0x5C :: 0x75 :: i :: j :: k :: l :: p.1, p.2)
            else none
          | _ => none
        else if e ∈ simpleEscapes then (rawString s).map fun p => (0x5C :: e :: p.1, p.2)
        else none
    else if c < 0x20 then none
    else (rawString s).map fun p => (c :: p.1, p.2)

/-- The byte an escape of one character stands for. -/
def unescapeSimple (e : UInt8) : UInt8 :=
  if e = 0x62 then 0x08 else if e = 0x66 then 0x0C else if e = 0x6E then 0x0A
  else if e = 0x72 then 0x0D else if e = 0x74 then 0x09 else e

/-- The four digits behind a `\u` at the front. -/
def getu4 : GoString → Option Nat
  | b :: u :: i :: j :: k :: l :: _ =>
    if b = 0x5C ∧ u = 0x75 then
      match unhex i, unhex j, unhex k, unhex l with
      | some x, some y, some z, some w => some (4096 * x + 256 * y + 16 * z + w)
      | _, _, _, _ => none
    else none
  | _ => none

/-- `utf16.IsSurrogate`. -/
def isSurrogate (r : Nat) : Bool := 0xD800 ≤ r && r < 0xE000

/-- `utf16.DecodeRune`. -/
def decodeSurrogates (r r' : Nat) : Nat :=
  if 0xD800 ≤ r ∧ r < 0xDC00 ∧ 0xDC00 ≤ r' ∧ r' < 0xE000 then
    (r - 0xD800) * 1024 + (r' - 0xDC00) + 0x10000
  else Utf8.runeError

/-- The rune of the `\u` escapes at the front, and their width. -/
def unicodeEscape (s : GoString) : Option (Nat × Nat) :=
  (getu4 s).map fun r =>
    if isSurrogate r then
      match getu4 (s.drop 6) with
      | some r' =>
        if decodeSurrogates r r' ≠ Utf8.runeError then (decodeSurrogates r r', 12)
        else (Utf8.runeError, 6)
      | none => (Utf8.runeError, 6)
    else (r, 6)

/-- The text of the character at the front of a string, and its width there. -/
def unquoteRune (s : GoString) : GoString × Nat :=
  if s.head? = some 0x5C then
    match unicodeEscape s with
    | some (r, w) => (Utf8.encodeRune r, w)
    | none => ([unescapeSimple (s.tail.headD 0)], 2)
  else (Utf8.encodeRune (Utf8.decodeRune s).1, (Utf8.decodeRune s).2)

/-- At most `n` characters of a string. -/
def unquoteFrom : Nat → GoString → GoString
  | 0, _ => []
  | _, [] => []
  | n + 1, b :: s =>
    (unquoteRune (b :: s)).1 ++ unquoteFrom n ((b :: s).drop (unquoteRune (b :: s)).2)

/-- The string that is written so. -/
def unquote (raw : GoString) : GoString := unquoteFrom raw.length raw

/-! ## Numbers -/

/-- A digit of a number. -/
def isDigit (c : UInt8) : Bool := 0x30 ≤ c && c ≤ 0x39

/-- What is behind one digit or more. -/
def digits (s : GoString) : Option GoString :=
  if s.head?.any isDigit then some (s.dropWhile isDigit) else none

/-- What is behind the integer part: no digit follows a leading zero. -/
def integer (s : GoString) : Option GoString :=
  if s.head? = some 0x30 then some s.tail else digits s

/-- What is left behind the fraction of a number, if it has one. -/
def fraction (s : GoString) : Option GoString :=
  if s.head? = some 0x2E then digits s.tail else some s

/-- What is left behind the exponent of a number, if it has one. -/
def exponent (s : GoString) : Option GoString :=
  if s.head? = some 0x65 ∨ s.head? = some 0x45 then
    digits (if s.tail.head? = some 0x2B ∨ s.tail.head? = some 0x2D then s.tail.tail else s.tail)
  else some s

/-- What is behind the number at the front. -/
def number (s : GoString) : Option GoString :=
  ((integer (if s.head? = some 0x2D then s.tail else s)).bind fraction).bind exponent

/-! ## Tokens -/

/-- The tokens of a text of JSON. -/
inductive Token where
  | lbrace
  | rbrace
  | lbracket
  | rbracket
  | comma
  | colon
  | null
  | bool (b : Bool)
  | num (text : GoString)
  | str (s : GoString)
  deriving DecidableEq

/-- The token of one character. -/
def punctuation (c : UInt8) : Option Token :=
  if c = 0x7B then some .lbrace else if c = 0x7D then some .rbrace
  else if c = 0x5B then some .lbracket else if c = 0x5D then some .rbracket
  else if c = 0x2C then some .comma else if c = 0x3A then some .colon
  else none

/-- What may stand between two tokens. -/
def isSpace (c : UInt8) : Bool := c == 0x20 || c == 0x09 || c == 0x0D || c == 0x0A

/-- The token at the front, and what is behind it. -/
def token (s : GoString) : Option (Token × GoString) :=
  match s.head?.bind punctuation with
  | some t => some (t, s.tail)
  | none =>
    if s.head? = some 0x22 then (rawString s.tail).map fun p => (.str (unquote p.1), p.2)
    else if Strings.hasPrefix s "null" then some (.null, s.drop 4)
    else if Strings.hasPrefix s "true" then some (.bool true, s.drop 4)
    else if Strings.hasPrefix s "false" then some (.bool false, s.drop 5)
    else (number s).map fun rest => (.num (s.take (s.length - rest.length)), rest)

/-- The tokens of a text, in at most `n` turns. -/
def lexFrom : Nat → GoString → Option (List Token)
  | _, [] => some []
  | 0, _ :: _ => none
  | n + 1, c :: s =>
    if isSpace c then lexFrom n s
    else (token (c :: s)).bind fun p => (lexFrom n p.2).map (p.1 :: ·)

/-- All tokens of a text. -/
def lex (s : GoString) : Option (List Token) := lexFrom s.length s

example : lex " [\"a\\u0041\", -1.5e3]" =
    some [.lbracket, .str "aA", .comma, .num "-1.5e3", .rbracket] := by decide +kernel

/-! ## What a token takes -/

/-- What stands between the quotes of a string. -/
inductive RawString : GoString → Prop
  | nil : RawString []
  | plain {c : UInt8} {s : GoString} (hquote : c ≠ 0x22) (hslash : c ≠ 0x5C) (hc : ¬ c < 0x20)
      (h : RawString s) : RawString (c :: s)
  | simple {e : UInt8} {s : GoString} (he : e ∈ simpleEscapes) (h : RawString s) :
      RawString (0x5C :: e :: s)
  | unicode {i j k l : UInt8} {s : GoString}
      (hex : (isHex i && isHex j && isHex k && isHex l) = true) (h : RawString s) :
      RawString (0x5C :: 0x75 :: i :: j :: k :: l :: s)

theorem simple_ne_u {e : UInt8} (he : e ∈ simpleEscapes) : e ≠ 0x75 := by
  rintro rfl
  revert he
  decide

theorem raw_of_rawString {s raw rest : GoString} (h : rawString s = some (raw, rest)) :
    s = raw ++ 0x22 :: rest ∧ RawString raw := by
  fun_induction rawString s generalizing raw with
  | case1 => cases h
  | case2 s =>
    cases h
    exact ⟨rfl, RawString.nil⟩
  | case3 => cases h
  | case4 i j k l s hex _ ih =>
    obtain ⟨p, hp, hraw⟩ := Option.map_eq_some_iff.mp h
    cases hraw
    obtain ⟨hs, hraw⟩ := ih hp
    exact ⟨congrArg (fun s => 0x5C :: 0x75 :: i :: j :: k :: l :: s) hs, RawString.unicode hex hraw⟩
  | case5 => cases h
  | case6 => cases h
  | case7 e s _ he _ ih =>
    obtain ⟨p, hp, hraw⟩ := Option.map_eq_some_iff.mp h
    cases hraw
    obtain ⟨hs, hraw⟩ := ih hp
    exact ⟨congrArg (fun s => 0x5C :: e :: s) hs, RawString.simple he hraw⟩
  | case8 => cases h
  | case9 => cases h
  | case10 c s hquote hslash hc ih =>
    obtain ⟨p, hp, hraw⟩ := Option.map_eq_some_iff.mp h
    cases hraw
    obtain ⟨hs, hraw⟩ := ih hp
    exact ⟨congrArg (List.cons c) hs, RawString.plain hquote hslash hc hraw⟩

theorem rawString_of_raw {raw : GoString} (hraw : RawString raw) (rest : GoString) :
    rawString (raw ++ 0x22 :: rest) = some (raw, rest) := by
  induction hraw with
  | nil =>
    rw [List.nil_append, rawString.eq_def]
    exact if_pos rfl
  | @plain c s hquote hslash hc _ ih =>
    rw [List.cons_append, rawString.eq_def]
    simp only [if_neg hquote, if_neg hslash, if_neg hc, ih, Option.map_some]
  | @simple e s he _ ih =>
    rw [List.cons_append, List.cons_append, rawString.eq_def]
    simp only [if_neg (simple_ne_u he), if_pos he, ih, Option.map_some]
    rfl
  | @unicode i j k l s hex _ ih =>
    simp only [List.cons_append]
    rw [rawString.eq_def]
    simp only [if_pos hex, ih, Option.map_some]
    rfl

/-- What is left of a text when some bytes are taken from its front. -/
def Behind (rest s : GoString) : Prop := rest <:+ s ∧ rest.length < s.length

theorem digits_behind {s rest : GoString} (h : digits s = some rest) : Behind rest s := by
  unfold digits at h
  split_ifs at h with hd
  cases h
  cases s with
  | nil => cases hd
  | cons c s =>
    have hc : isDigit c = true := hd
    rw [List.dropWhile_cons_of_pos hc]
    refine ⟨(List.dropWhile_suffix _).trans (List.suffix_cons c s), ?_⟩
    exact Nat.lt_succ_of_le (List.dropWhile_suffix _).length_le

theorem integer_behind {s rest : GoString} (h : integer s = some rest) : Behind rest s := by
  unfold integer at h
  split_ifs at h with h0
  · cases h
    refine ⟨List.tail_suffix s, ?_⟩
    cases s with
    | nil => cases h0
    | cons c s => exact Nat.lt_succ_self _
  · exact digits_behind h

theorem fraction_suffix {s rest : GoString} (h : fraction s = some rest) : rest <:+ s := by
  unfold fraction at h
  split_ifs at h
  · exact (digits_behind h).1.trans (List.tail_suffix s)
  · cases h
    exact List.suffix_refl s

theorem exponent_suffix {s rest : GoString} (h : exponent s = some rest) : rest <:+ s := by
  unfold exponent at h
  split_ifs at h
  · exact (digits_behind h).1.trans ((List.tail_suffix _).trans (List.tail_suffix s))
  · exact (digits_behind h).1.trans (List.tail_suffix s)
  · cases h
    exact List.suffix_refl s

theorem number_behind {s rest : GoString} (h : number s = some rest) : Behind rest s := by
  unfold number at h
  simp only [Option.bind_eq_some_iff] at h
  obtain ⟨s2, ⟨s1, hinteger, hfraction⟩, hexponent⟩ := h
  have hsign : (if s.head? = some 0x2D then s.tail else s) <:+ s := by
    split_ifs
    · exact List.tail_suffix s
    · exact List.suffix_refl s
  obtain ⟨h1, hlt⟩ := integer_behind hinteger
  have h2 : rest <:+ s1 := (exponent_suffix hexponent).trans (fraction_suffix hfraction)
  exact ⟨h2.trans (h1.trans hsign), (h2.length_le.trans_lt hlt).trans_le hsign.length_le⟩

theorem punctuation_ne_str (c : UInt8) (v : GoString) : punctuation c ≠ some (.str v) := by
  unfold punctuation
  split_ifs <;> simp

/-- **What a token takes**: a string its quotes and what is between them, any other token some bytes. -/
theorem token_cases {s rest : GoString} {t : Token} (h : token s = some (t, rest)) :
    (∃ raw, s = 0x22 :: (raw ++ 0x22 :: rest) ∧ RawString raw ∧ t = .str (unquote raw)) ∨
      Behind rest s ∧ ∀ v, t ≠ .str v := by
  have hdrop : ∀ k : GoString, 0 < k.length → Strings.hasPrefix s k = true →
      Behind (s.drop k.length) s := by
    intro k hk hprefix
    have hle := (List.isPrefixOf_iff_prefix.mp hprefix).length_le
    refine ⟨List.drop_suffix _ s, ?_⟩
    rw [List.length_drop]
    omega
  unfold token at h
  split at h
  · rename_i p hp
    cases h
    obtain ⟨c, hc, hpunct⟩ := Option.bind_eq_some_iff.mp hp
    obtain ⟨s', rfl⟩ := List.head?_eq_some_iff.mp hc
    refine Or.inr ⟨⟨List.suffix_cons c s', Nat.lt_succ_self _⟩, ?_⟩
    rintro v rfl
    exact punctuation_ne_str c v hpunct
  split_ifs at h with hquote hnull htrue hfalse
  · obtain ⟨⟨raw, rest'⟩, hraw, heq⟩ := Option.map_eq_some_iff.mp h
    cases heq
    obtain ⟨s', rfl⟩ := List.head?_eq_some_iff.mp hquote
    obtain ⟨htail, hraw⟩ := raw_of_rawString hraw
    exact Or.inl ⟨raw, congrArg (List.cons _) htail, hraw, rfl⟩
  · cases h
    exact Or.inr ⟨hdrop "null" (by decide) hnull, fun v hv => by cases hv⟩
  · cases h
    exact Or.inr ⟨hdrop "true" (by decide) htrue, fun v hv => by cases hv⟩
  · cases h
    exact Or.inr ⟨hdrop "false" (by decide) hfalse, fun v hv => by cases hv⟩
  · obtain ⟨rest', hnumber, heq⟩ := Option.map_eq_some_iff.mp h
    cases heq
    exact Or.inr ⟨number_behind hnumber, fun v hv => by cases hv⟩

theorem token_behind {s rest : GoString} {t : Token} (h : token s = some (t, rest)) :
    Behind rest s := by
  rcases token_cases h with ⟨raw, rfl, -, -⟩ | ⟨hbehind, -⟩
  · refine ⟨⟨0x22 :: (raw ++ [0x22]), by simp⟩, ?_⟩
    simp only [List.length_cons, List.length_append]
    omega
  · exact hbehind

theorem lexFrom_fuel (n m : Nat) (s : GoString) (hn : s.length ≤ n) (hm : s.length ≤ m) :
    lexFrom n s = lexFrom m s := by
  induction n generalizing m s with
  | zero =>
    obtain rfl := List.length_eq_zero_iff.mp (Nat.le_zero.mp hn)
    cases m <;> rfl
  | succ n ih =>
    cases s with
    | nil => cases m <;> rfl
    | cons c s =>
      cases m with
      | zero => exact absurd hm (Nat.not_succ_le_zero _)
      | succ m =>
        rw [List.length_cons] at hn hm
        rw [lexFrom, lexFrom, ih m s (by omega) (by omega)]
        congr 1
        cases htoken : token (c :: s) with
        | none => rfl
        | some p =>
          have hlt := (token_behind htoken).2
          rw [List.length_cons] at hlt
          rw [Option.bind_some, Option.bind_some, ih m p.2 (by omega) (by omega)]

theorem lex_token {c : UInt8} (hc : isSpace c = false) (s : GoString) :
    lex (c :: s) = (token (c :: s)).bind fun p => (lex p.2).map (p.1 :: ·) := by
  rw [lex, List.length_cons, lexFrom, if_neg (by simp [hc])]
  cases htoken : token (c :: s) with
  | none => rfl
  | some p =>
    have hlt := (token_behind htoken).2
    rw [List.length_cons] at hlt
    rw [Option.bind_some, Option.bind_some, lex, lexFrom_fuel _ p.2.length _ (by omega) le_rfl]

/-! ## Writing strings -/

/-- A byte as it stands in a string. -/
def escapeByte (b : UInt8) : GoString :=
  if b = 0x22 ∨ b = 0x5C then [0x5C, b]
  else if b = 0x08 then [0x5C, 0x62] else if b = 0x0C then [0x5C, 0x66]
  else if b = 0x0A then [0x5C, 0x6E] else if b = 0x0D then [0x5C, 0x72]
  else if b = 0x09 then [0x5C, 0x74]
  else if b < 0x20 then 0x5C :: 0x75 :: Strconv.hex 4 b.toNat
  else [b]

/-- A string as the encoder prints it, without its quotes. -/
def escape (s : GoString) : GoString := s.flatMap escapeByte

theorem escape_append (y z : GoString) : escape (y ++ z) = escape y ++ escape z := List.flatMap_append

theorem escape_singleton (b : UInt8) : escape [b] = escapeByte b := List.flatMap_singleton _ _

theorem escapeByte_cases (b : UInt8) :
    (∃ e ∈ simpleEscapes, escapeByte b = [0x5C, e] ∧ unescapeSimple e = b) ∨
    (∃ i j k l, escapeByte b = [0x5C, 0x75, i, j, k, l] ∧
      (isHex i && isHex j && isHex k && isHex l) = true ∧
      getu4 [0x5C, 0x75, i, j, k, l] = some b.toNat ∧ b < 0x20) ∨
    escapeByte b = [b] ∧ b ≠ 0x22 ∧ b ≠ 0x5C ∧ ¬ b < 0x20 := by
  have hall : ∀ b : UInt8,
      ((escapeByte b).tail.headD 0 ∈ simpleEscapes ∧
        escapeByte b = [0x5C, (escapeByte b).tail.headD 0] ∧
        unescapeSimple ((escapeByte b).tail.headD 0) = b) ∨
      (escapeByte b = 0x5C :: 0x75 :: Strconv.hex 4 b.toNat ∧
        (Strconv.hex 4 b.toNat).all isHex = true ∧
        getu4 (0x5C :: 0x75 :: Strconv.hex 4 b.toNat) = some b.toNat ∧ b < 0x20) ∨
      escapeByte b = [b] ∧ b ≠ 0x22 ∧ b ≠ 0x5C ∧ ¬ b < 0x20 := forall_byte (by decide +kernel)
  rcases hall b with ⟨he, hb, hval⟩ | ⟨hb, hhex, hval, hlt⟩ | h
  · exact Or.inl ⟨_, he, hb, hval⟩
  · refine Or.inr (Or.inl ⟨_, _, _, _, hb, ?_, hval, hlt⟩)
    simpa [Strconv.hex, and_assoc] using hhex
  · exact Or.inr (Or.inr h)

theorem escapeByte_high {b : UInt8} (hb : 0x80 ≤ b) : escapeByte b = [b] := by
  have hall : ∀ b : UInt8, 0x80 ≤ b → escapeByte b = [b] := forall_byte (by decide +kernel)
  exact hall b hb

theorem escape_high {s : GoString} (hs : ∀ b ∈ s, 0x80 ≤ b) : escape s = s := by
  rw [escape, List.flatMap_congr fun b hb => escapeByte_high (hs b hb)]
  exact List.flatMap_singleton' s

theorem raw_escape (s : GoString) : RawString (escape s) := by
  induction s with
  | nil => exact RawString.nil
  | cons b s ih =>
    rw [escape, List.flatMap_cons]
    rcases escapeByte_cases b with ⟨e, he, hb, -⟩ | ⟨i, j, k, l, hb, hhex, -, -⟩ |
      ⟨hb, hquote, hslash, hc⟩
    · rw [hb]
      exact RawString.simple he ih
    · rw [hb]
      exact RawString.unicode hhex ih
    · rw [hb]
      exact RawString.plain hquote hslash hc ih

/-! ## Reading strings -/

theorem unquoteRune_width_pos (b : UInt8) (s : GoString) : 0 < (unquoteRune (b :: s)).2 := by
  unfold unquoteRune
  split_ifs
  · split
    · rename_i r w h
      unfold unicodeEscape at h
      obtain ⟨r', -, hrw⟩ := Option.map_eq_some_iff.mp h
      split_ifs at hrw
      · split at hrw
        · split_ifs at hrw <;> (cases hrw; exact Nat.succ_pos _)
        · cases hrw
          exact Nat.succ_pos _
      · cases hrw
        exact Nat.succ_pos _
    · exact Nat.succ_pos _
  · exact Utf8.decodeRune_width_pos b s

theorem unquoteFrom_fuel (n m : Nat) (s : GoString) (hn : s.length ≤ n) (hm : s.length ≤ m) :
    unquoteFrom n s = unquoteFrom m s := by
  induction n generalizing m s with
  | zero =>
    obtain rfl := List.length_eq_zero_iff.mp (Nat.le_zero.mp hn)
    cases m <;> rfl
  | succ n ih =>
    cases s with
    | nil => cases m <;> rfl
    | cons b s =>
      cases m with
      | zero => exact absurd hm (Nat.not_succ_le_zero _)
      | succ m =>
        have hpos := unquoteRune_width_pos b s
        rw [List.length_cons] at hn hm
        rw [unquoteFrom, unquoteFrom, ih m]
        all_goals
          rw [List.length_drop, List.length_cons]
          omega

/-- **A string is read character by character.** -/
theorem unquote_cons (b : UInt8) (s : GoString) : unquote (b :: s) =
    (unquoteRune (b :: s)).1 ++ unquote ((b :: s).drop (unquoteRune (b :: s)).2) := by
  have hpos := unquoteRune_width_pos b s
  rw [unquote, List.length_cons, unquoteFrom, unquote]
  congr 1
  refine unquoteFrom_fuel _ _ _ ?_ le_rfl
  rw [List.length_drop, List.length_cons]
  omega

theorem getu4_simple {e : UInt8} (he : e ≠ 0x75) (b : UInt8) (s : GoString) :
    getu4 (b :: e :: s) = none := by
  unfold getu4
  split
  · rename_i heq
    cases heq
    simp [he]
  · rfl

theorem unquoteRune_simple {e : UInt8} (he : e ≠ 0x75) (s : GoString) :
    unquoteRune (0x5C :: e :: s) = ([unescapeSimple e], 2) := by
  rw [unquoteRune, List.head?_cons, if_pos rfl, unicodeEscape, getu4_simple he]
  rfl

theorem unquoteRune_plain {b : UInt8} (hb : b ≠ 0x5C) (s : GoString) : unquoteRune (b :: s) =
    (Utf8.encodeRune (Utf8.decodeRune (b :: s)).1, (Utf8.decodeRune (b :: s)).2) := by
  rw [unquoteRune, List.head?_cons, if_neg]
  exact fun h => hb (Option.some.inj h)

theorem unquote_escapeByte {b : UInt8} (hb : b < 0x80) (s : GoString) :
    unquote (escapeByte b ++ s) = b :: unquote s := by
  rcases escapeByte_cases b with ⟨e, he, hesc, hval⟩ | ⟨i, j, k, l, hesc, -, hval, hlt⟩ |
    ⟨hesc, -, hslash, -⟩
  · rw [hesc, List.cons_append, List.cons_append, List.nil_append, unquote_cons,
      unquoteRune_simple (simple_ne_u he), hval]
    rfl
  · have hrune : unquoteRune (0x5C :: 0x75 :: i :: j :: k :: l :: s) = ([b], 6) := by
      have hfour : getu4 (0x5C :: 0x75 :: i :: j :: k :: l :: s) = some b.toNat := hval
      have hsmall : b.toNat < 0x20 := UInt8.lt_iff_toNat_lt.mp hlt
      have hsurrogate : isSurrogate b.toNat = false := by
        rw [isSurrogate, Bool.and_eq_false_iff]
        exact Or.inl (decide_eq_false (by omega))
      have hencode : Utf8.encodeRune b.toNat = [b] := (Utf8.Encodes.one hb).encodeRune
      rw [unquoteRune, List.head?_cons, if_pos rfl, unicodeEscape, hfour, Option.map_some,
        hsurrogate]
      simp only [Bool.false_eq_true, if_false, hencode]
    rw [hesc]
    simp only [List.cons_append, List.nil_append]
    rw [unquote_cons, hrune]
    rfl
  · rw [hesc, List.singleton_append, unquote_cons, unquoteRune_plain hslash,
      Utf8.decodeRune_ascii hb, (Utf8.Encodes.one hb).encodeRune]
    rfl

/-- **A string is read back from what is written for it**, if it is valid UTF-8. -/
theorem unquote_escape {s : GoString} (hs : Utf8.valid s = true) : unquote (escape s) = s := by
  induction s, hs using Utf8.valid_rec with
  | nil => rfl
  | cons r y z hr hz ih =>
    rw [escape_append]
    rcases hr.ascii_or with ⟨b, hb, rfl, -⟩ | ⟨-, -, hhigh⟩
    · rw [escape_singleton, unquote_escapeByte hb, ih]
      rfl
    · have hsame := escape_high hhigh
      obtain ⟨b, y', rfl⟩ := List.exists_cons_of_ne_nil hr.ne_nil
      have hslash : b ≠ 0x5C := by
        rintro rfl
        exact absurd (hhigh _ List.mem_cons_self) (by decide)
      have hdecode := hr.decodeRune (escape z)
      rw [List.cons_append] at hdecode
      rw [hsame, List.cons_append, unquote_cons, unquoteRune_plain hslash, hdecode, hr.encodeRune,
        ← List.cons_append, List.drop_left, ih]

theorem valid_ascii_append {y : GoString} (hy : ∀ b ∈ y, b < 0x80) (z : GoString) :
    Utf8.valid (y ++ z) = Utf8.valid z := by
  induction y with
  | nil => rfl
  | cons b y ih =>
    obtain ⟨hb, hy⟩ := List.forall_mem_cons.mp hy
    have hcons : b :: y ++ z = [b] ++ (y ++ z) := rfl
    rw [hcons, Utf8.valid_encodes (Utf8.Encodes.one hb), ih hy]

theorem valid_escape {s : GoString} (hs : Utf8.valid s = true) : Utf8.valid (escape s) = true := by
  induction s, hs using Utf8.valid_rec with
  | nil => rfl
  | cons r y z hr hz ih =>
    rw [escape_append]
    rcases hr.ascii_or with ⟨b, hb, rfl, -⟩ | ⟨-, -, hhigh⟩
    · have hall : ∀ b : UInt8, b < 0x80 → (escapeByte b).all (· < 0x80) = true :=
        forall_byte (by decide +kernel)
      have hascii : ∀ c ∈ escapeByte b, c < 0x80 :=
        fun c hc => of_decide_eq_true (List.all_eq_true.mp (hall b hb) c hc)
      rw [escape_singleton, valid_ascii_append hascii, ih]
    · rw [escape_high hhigh, Utf8.valid_encodes hr, ih]

/-! ## Writing tokens -/

/-- A token as it is printed. -/
def Token.text : Token → GoString
  | .lbrace => "\x7b"
  | .rbrace => "\x7d"
  | .lbracket => "["
  | .rbracket => "]"
  | .comma => ","
  | .colon => ":"
  | .null => "null"
  | .bool true => "true"
  | .bool false => "false"
  | .num text => text
  | .str s => 0x22 :: (escape s ++ [0x22])

/-- A token that is read back from its text: no number, and no string that is not valid. -/
def Token.Fits : Token → Prop
  | .num _ => False
  | .str s => Utf8.valid s = true
  | _ => True

theorem token_text {t : Token} (ht : t.Fits) (rest : GoString) :
    token (t.text ++ rest) = some (t, rest) := by
  cases t with
  | num text => exact ht.elim
  | str s =>
    have hraw : rawString (escape s ++ [0x22] ++ rest) = some (escape s, rest) := by
      rw [List.append_assoc]
      exact rawString_of_raw (raw_escape s) rest
    have htext : (Token.str s).text ++ rest = 0x22 :: (escape s ++ [0x22] ++ rest) := rfl
    rw [htext, token]
    simp only [List.head?_cons, Option.bind_some, List.tail_cons]
    rw [hraw, Option.map_some, unquote_escape ht]
    rfl
  | bool b => cases b <;> rfl
  | _ => rfl

theorem valid_token {t : Token} (ht : t.Fits) : Utf8.valid t.text = true := by
  cases t with
  | num text => exact ht.elim
  | str s =>
    have htext : (Token.str s).text = [0x22] ++ (escape s ++ [0x22]) := rfl
    have hquote : ∀ b ∈ ([0x22] : GoString), b < 0x80 := List.forall_mem_singleton.mpr (by decide)
    rw [htext, valid_ascii_append hquote, Utf8.valid_append (valid_escape ht)]
    decide
  | bool b => cases b <;> decide +kernel
  | _ => decide

theorem token_head {t : Token} (ht : t.Fits) : ∃ c s, t.text = c :: s ∧ isSpace c = false := by
  cases t with
  | num text => exact ht.elim
  | str s => exact ⟨_, _, rfl, rfl⟩
  | bool b => cases b <;> exact ⟨_, _, rfl, rfl⟩
  | _ => exact ⟨_, _, rfl, rfl⟩

/-- **Tokens are read back from their text.** -/
theorem lex_text {ts : List Token} (hts : ∀ t ∈ ts, t.Fits) : lex (ts.flatMap Token.text) = some ts := by
  induction ts with
  | nil => rfl
  | cons t ts ih =>
    obtain ⟨ht, hts⟩ := List.forall_mem_cons.mp hts
    obtain ⟨c, s, htext, hspace⟩ := token_head ht
    have htoken := token_text ht (ts.flatMap Token.text)
    rw [List.flatMap_cons]
    rw [htext, List.cons_append] at htoken ⊢
    rw [lex_token hspace, htoken, Option.bind_some, ih hts, Option.map_some]

end Idryx.Json
