import Idryx.Go.Json.Parse

/-!
# JSON as it is written

`json.Encoder` with an indent of two blanks. A string is written rune by rune; what is not valid UTF-8 in it
becomes an escape of the replacement character.

* `quoteByte`, `quoteRune`, `appendString`; **`unquote_quote`**: a string is read back with its invalid
  bytes replaced;
* `Spells`, `SpellsBefore`: the tokens a piece of text is, before anything and before a byte that no
  numeral goes on with;
* `indent`, `encode`; **`parse_encode`**: a value is read back so, if its numerals are.
-/

namespace Idryx.Json

/-! ## Strings -/

/-- How an ASCII byte is written. -/
def quoteByte (b : UInt8) : GoString :=
  if b = 0x5C ∨ b = 0x22 then [0x5C, b]
  else if b = 0x08 then [0x5C, 0x62] else if b = 0x0C then [0x5C, 0x66]
  else if b = 0x0A then [0x5C, 0x6E] else if b = 0x0D then [0x5C, 0x72]
  else if b = 0x09 then [0x5C, 0x74]
  -- a script could end inside of these three
  else if b < 0x20 ∨ b = 0x3C ∨ b = 0x3E ∨ b = 0x26 then 0x5C :: 0x75 :: Strconv.hex 4 b.toNat
  else [b]

/-- How a rune of a string is written, given its width there. -/
def quoteRune (p : ℕ × ℕ) : GoString :=
  if p.1 < 0x80 then quoteByte (UInt8.ofNat p.1)
  else if p.1 = Utf8.runeError ∧ p.2 = 1 then 0x5C :: 0x75 :: Strconv.hex 4 Utf8.runeError
  else if p.1 = 0x2028 ∨ p.1 = 0x2029 then 0x5C :: 0x75 :: Strconv.hex 4 p.1
  else Utf8.encodeRune p.1

/-- A string between its quotes. -/
def quote (s : GoString) : GoString := (Utf8.runes s).flatMap quoteRune

/-- `appendString`. -/
def appendString (s : GoString) : GoString := 0x22 :: (quote s ++ [0x22])

example : appendString "a<\n" = "\"a\\u003c\\n\"" := by decide +kernel

theorem quote_error {b : UInt8} {s : GoString} (h : Utf8.decodeRune (b :: s) = (Utf8.runeError, 1)) :
    quote (b :: s) = 0x5C :: 0x75 :: Strconv.hex 4 Utf8.runeError ++ quote s := by
  rw [quote, Utf8.runes_error h, List.flatMap_cons]
  rfl

theorem quote_encodes {r : ℕ} {y : GoString} (h : Utf8.Encodes r y) (z : GoString) :
    quote (y ++ z) = quoteRune (r, y.length) ++ quote z := by
  rw [quote, Utf8.runes_encodes h, List.flatMap_cons]
  rfl

theorem quoteByte_cases {b : UInt8} (hb : b < 0x80) :
    (∃ e ∈ simpleEscapes, quoteByte b = [0x5C, e] ∧ unescapeSimple e = b) ∨
    quoteByte b = 0x5C :: 0x75 :: Strconv.hex 4 b.toNat ∨
    quoteByte b = [b] ∧ b ≠ 0x22 ∧ b ≠ 0x5C ∧ ¬ b < 0x20 := by
  have hall : ∀ b : UInt8, b < 0x80 →
      ((quoteByte b).tail.headD 0 ∈ simpleEscapes ∧ quoteByte b = [0x5C, (quoteByte b).tail.headD 0] ∧
        unescapeSimple ((quoteByte b).tail.headD 0) = b) ∨
      quoteByte b = 0x5C :: 0x75 :: Strconv.hex 4 b.toNat ∨
      quoteByte b = [b] ∧ b ≠ 0x22 ∧ b ≠ 0x5C ∧ ¬ b < 0x20 := forall_byte (by decide +kernel)
  rcases hall b hb with ⟨he, hq, hval⟩ | h | h
  · exact Or.inl ⟨_, he, hq, hval⟩
  · exact Or.inr (Or.inl h)
  · exact Or.inr (Or.inr h)

theorem quoteRune_cases {r : ℕ} {y : GoString} (h : Utf8.Encodes r y) :
    (∃ b : UInt8, b < 0x80 ∧ y = [b] ∧ quoteRune (r, y.length) = quoteByte b) ∨
    (r = 0x2028 ∨ r = 0x2029) ∧ quoteRune (r, y.length) = 0x5C :: 0x75 :: Strconv.hex 4 r ∨
    (∀ b ∈ y, 0x80 ≤ b) ∧ quoteRune (r, y.length) = y := by
  unfold quoteRune
  rcases h.ascii_or with ⟨b, hb, rfl, rfl⟩ | ⟨hr, hlen, hhigh⟩
  · refine Or.inl ⟨b, hb, rfl, ?_⟩
    have hlt : b.toNat < 0x80 := UInt8.lt_iff_toNat_lt.mp hb
    rw [if_pos hlt, UInt8.ofNat_toNat]
  · rw [if_neg (by omega), if_neg (by omega)]
    split_ifs with hsep
    · exact Or.inr (Or.inl ⟨hsep, rfl⟩)
    · exact Or.inr (Or.inr ⟨hhigh, h.encodeRune⟩)

/-! ## Strings read back -/

theorem raw_hex {w r : ℕ} (hw : w = 4) {z : GoString} (hz : RawString z) :
    RawString (0x5C :: 0x75 :: Strconv.hex w r ++ z) := by
  subst hw
  have hdigit : ∀ d < 16, isHex (UInt8.ofNat (if d < 10 then 0x30 + d else 0x57 + d)) = true := by decide
  refine RawString.unicode ?_ hz
  simp only [Bool.and_eq_true]
  exact ⟨⟨⟨hdigit _ (Nat.mod_lt _ (by decide)), hdigit _ (Nat.mod_lt _ (by decide))⟩,
    hdigit _ (Nat.mod_lt _ (by decide))⟩, hdigit _ (Nat.mod_lt _ (by decide))⟩

theorem raw_high {y z : GoString} (hy : ∀ b ∈ y, 0x80 ≤ b) (hz : RawString z) : RawString (y ++ z) := by
  induction y with
  | nil => exact hz
  | cons b y ih =>
    obtain ⟨hb, hy⟩ := List.forall_mem_cons.mp hy
    have hplain : ∀ b : UInt8, 0x80 ≤ b → b ≠ 0x22 ∧ b ≠ 0x5C ∧ ¬ b < 0x20 := forall_byte (by decide +kernel)
    obtain ⟨hquote, hslash, hc⟩ := hplain b hb
    exact RawString.plain hquote hslash hc (ih hy)

theorem raw_quote (s : GoString) : RawString (quote s) := by
  induction s using Utf8.text_rec with
  | nil => exact RawString.nil
  | error b s herr ih =>
    rw [quote_error herr]
    exact raw_hex rfl ih
  | encodes r y z hr ih =>
    rw [quote_encodes hr]
    rcases quoteRune_cases hr with ⟨b, hb, -, hq⟩ | ⟨-, hq⟩ | ⟨hhigh, hq⟩
    · rw [hq]
      rcases quoteByte_cases hb with ⟨e, he, hq, -⟩ | hq | ⟨hq, hquote, hslash, hc⟩
      · rw [hq]
        exact RawString.simple he ih
      · rw [hq]
        exact raw_hex rfl ih
      · rw [hq]
        exact RawString.plain hquote hslash hc ih
    · rw [hq]
      exact raw_hex rfl ih
    · rw [hq]
      exact raw_high hhigh ih

theorem unquote_hex {r : ℕ} (hr : r < 0x10000) (hsurrogate : isSurrogate r = false) (z : GoString) :
    unquote (0x5C :: 0x75 :: Strconv.hex 4 r ++ z) = Utf8.encodeRune r ++ unquote z := by
  have hdigit : ∀ d < 16, Url.unhex (UInt8.ofNat (if d < 10 then 0x30 + d else 0x57 + d)) = some d := by decide
  have hfour : getu4 (0x5C :: 0x75 :: Strconv.hex 4 r ++ z) = some r := by
    have hsum : 4096 * (r / 16 ^ 3 % 16) + 256 * (r / 16 ^ 2 % 16) + 16 * (r / 16 ^ 1 % 16) + r / 16 ^ 0 % 16 = r := by
      omega
    simp only [Strconv.hex, List.cons_append, List.nil_append, getu4, and_self, if_true]
    rw [hdigit _ (Nat.mod_lt _ (by decide)), hdigit _ (Nat.mod_lt _ (by decide)),
      hdigit _ (Nat.mod_lt _ (by decide)), hdigit _ (Nat.mod_lt _ (by decide))]
    exact congrArg some hsum
  have hrune : unquoteRune (0x5C :: 0x75 :: Strconv.hex 4 r ++ z) = (Utf8.encodeRune r, 6) := by
    rw [unquoteRune, unicodeEscape, hfour, Option.map_some, hsurrogate]
    rfl
  rw [List.cons_append, List.cons_append] at hrune ⊢
  rw [unquote_cons, hrune]
  rfl

/-- **A string is read back**, with the bytes replaced that are no part of a rune. -/
theorem unquote_quote (s : GoString) : unquote (quote s) = Utf8.replaceInvalid s := by
  induction s using Utf8.text_rec with
  | nil => rfl
  | error b s herr ih =>
    rw [quote_error herr, unquote_hex (by decide) (by decide), ih, Utf8.replaceInvalid_error herr]
  | encodes r y z hr ih =>
    rw [quote_encodes hr, Utf8.replaceInvalid_encodes hr, ← ih]
    rcases quoteRune_cases hr with ⟨b, hb, rfl, hq⟩ | ⟨hsep, hq⟩ | ⟨hhigh, hq⟩
    · rw [hq]
      have hascii := (Utf8.Encodes.one hb).encodeRune
      rcases quoteByte_cases hb with ⟨e, he, hq, hval⟩ | hq | ⟨hq, -, hslash, -⟩
      · rw [hq, List.cons_append, List.cons_append, List.nil_append, unquote_cons,
          unquoteRune_simple (simple_ne_u he), hval]
        rfl
      · have hlt : b.toNat < 0x80 := UInt8.lt_iff_toNat_lt.mp hb
        have hsurrogate : isSurrogate b.toNat = false := by
          rw [isSurrogate, Bool.and_eq_false_iff]
          exact Or.inl (decide_eq_false (by omega))
        rw [hq, unquote_hex (by omega) hsurrogate, hascii]
      · rw [hq, List.singleton_append, unquote_cons, unquoteRune_plain hslash, Utf8.decodeRune_ascii hb, hascii]
        rfl
    · have hfits : r < 0x10000 ∧ isSurrogate r = false := by
        rcases hsep with rfl | rfl <;> decide
      rw [hq, unquote_hex hfits.1 hfits.2, hr.encodeRune]
    · obtain ⟨b, y', rfl⟩ := List.exists_cons_of_ne_nil hr.ne_nil
      have hslash : b ≠ 0x5C := by
        rintro rfl
        exact absurd (hhigh _ List.mem_cons_self) (by decide)
      have hdecode := hr.decodeRune (quote z)
      rw [List.cons_append] at hdecode
      rw [hq, List.cons_append, unquote_cons, unquoteRune_plain hslash, hdecode, hr.encodeRune,
        ← List.cons_append, List.drop_left]

/-! ## Pieces of text -/

/-- The piece is these tokens, whatever follows. -/
def Spells (ts : List Token) (s : GoString) : Prop := ∀ rest, lex (s ++ rest) = (lex rest).map (ts ++ ·)

/-- A byte that no numeral goes on with. -/
def endsNumeral (c : UInt8) : Bool := c == 0x2C || c == 0x0A

/-- The piece is these tokens, if such a byte follows. -/
def SpellsBefore (ts : List Token) (s : GoString) : Prop :=
  ∀ c rest, endsNumeral c = true → lex (s ++ c :: rest) = (lex (c :: rest)).map (ts ++ ·)

variable {ts us : List Token} {s t : GoString}

theorem Spells.nil : Spells [] [] := fun rest => by simp

theorem Spells.append (hs : Spells ts s) (ht : Spells us t) : Spells (ts ++ us) (s ++ t) := by
  intro rest
  rw [List.append_assoc, hs, ht, Option.map_map]
  simp only [Function.comp_def, List.append_assoc]

theorem Spells.before (hs : Spells ts s) (ht : SpellsBefore us t) : SpellsBefore (ts ++ us) (s ++ t) := by
  intro c rest hc
  rw [List.append_assoc, hs, ht c rest hc, Option.map_map]
  simp only [Function.comp_def, List.append_assoc]

theorem SpellsBefore.close {c : UInt8} (hs : SpellsBefore ts s) (hc : endsNumeral c = true)
    (ht : Spells us (c :: t)) : Spells (ts ++ us) (s ++ c :: t) := by
  intro rest
  rw [List.append_assoc, List.cons_append, hs c _ hc, ← List.cons_append, ht, Option.map_map]
  simp only [Function.comp_def, List.append_assoc]

theorem Spells.toBefore (hs : Spells ts s) : SpellsBefore ts s := fun c rest _ => hs (c :: rest)

theorem spells_space {c : UInt8} (hc : isSpace c = true) : Spells [] [c] := by
  intro rest
  rw [List.singleton_append, lex, List.length_cons, lexFrom, if_pos hc]
  simp [lex]

theorem spells_spaces {s : GoString} (hs : ∀ c ∈ s, isSpace c = true) : Spells [] s := by
  induction s with
  | nil => exact Spells.nil
  | cons c s ih =>
    obtain ⟨hc, hs⟩ := List.forall_mem_cons.mp hs
    exact (spells_space hc).append (ih hs)

theorem spells_token {t : Token} {c : UInt8} {s : GoString} (hc : isSpace c = false)
    (h : ∀ rest, token (c :: s ++ rest) = some (t, rest)) : Spells [t] (c :: s) := by
  intro rest
  have htoken := h rest
  rw [List.cons_append] at htoken ⊢
  rw [lex_token hc, htoken]
  rfl

/-- **A string is one token.** -/
theorem spells_appendString (s : GoString) : Spells [.str (Utf8.replaceInvalid s)] (appendString s) := by
  refine spells_token (by decide) fun rest => ?_
  have hraw : rawString (quote s ++ [0x22] ++ rest) = some (quote s, rest) := by
    rw [List.append_assoc]
    exact rawString_of_raw (raw_quote s) rest
  rw [List.cons_append, token]
  simp only [List.head?_cons, Option.bind_some, List.tail_cons]
  rw [hraw, Option.map_some, unquote_quote]
  rfl

/-! ## Values with other strings -/

mutual

/-- The value with `f` applied to its strings and names. -/
def mapStr (f : GoString → GoString) : Json → Json
  | .null => .null
  | .bool b => .bool b
  | .num text => .num text
  | .str s => .str (f s)
  | .arr xs => .arr (mapElems f xs)
  | .obj ms => .obj (mapMembers f ms)

@[inherit_doc mapStr]
def mapElems (f : GoString → GoString) : List Json → List Json
  | [] => []
  | x :: xs => mapStr f x :: mapElems f xs

@[inherit_doc mapStr]
def mapMembers (f : GoString → GoString) : List (GoString × Json) → List (GoString × Json)
  | [] => []
  | (k, x) :: ms => (f k, mapStr f x) :: mapMembers f ms

end

theorem mapElems_eq (f : GoString → GoString) (xs : List Json) : mapElems f xs = xs.map (mapStr f) := by
  induction xs with
  | nil => rfl
  | cons x xs ih => rw [mapElems, ih, List.map_cons]

/-- A token with its string changed. -/
def Token.mapStr (f : GoString → GoString) : Token → Token
  | .str s => .str (f s)
  | t => t

mutual

theorem tokens_mapStr (f : GoString → GoString) : ∀ j : Json,
    tokens (mapStr f j) = (tokens j).map (Token.mapStr f)
  | .null => rfl
  | .bool _ => rfl
  | .num _ => rfl
  | .str _ => rfl
  | .arr xs => by
    rw [mapStr, tokens, tokens, elemTokens_map f xs, List.map_cons, List.map_append]
    rfl
  | .obj ms => by
    rw [mapStr, tokens, tokens, memberTokens_map f ms, List.map_cons, List.map_append]
    rfl

theorem elemTokens_map (f : GoString → GoString) : ∀ xs : List Json,
    elemTokens (mapElems f xs) = (elemTokens xs).map (Token.mapStr f)
  | [] => rfl
  | [x] => tokens_mapStr f x
  | x :: y :: xs => by
    have ih := elemTokens_map f (y :: xs)
    rw [mapElems] at ih
    rw [mapElems, mapElems, elemTokens, ih, tokens_mapStr f x, elemTokens, List.map_append, List.map_cons]
    rfl

theorem memberTokens_map (f : GoString → GoString) : ∀ ms : List (GoString × Json),
    memberTokens (mapMembers f ms) = (memberTokens ms).map (Token.mapStr f)
  | [] => rfl
  | [(k, x)] => by
    rw [mapMembers, mapMembers, memberTokens, tokens_mapStr f x]
    rfl
  | (k, x) :: (l, y) :: ms => by
    have ih := memberTokens_map f ((l, y) :: ms)
    rw [mapMembers] at ih
    rw [mapMembers, mapMembers, memberTokens, ih, tokens_mapStr f x, memberTokens, List.map_cons, List.map_cons,
      List.map_append, List.map_cons]
    rfl

end

mutual

theorem depth_mapStr (f : GoString → GoString) : ∀ j : Json, depth (mapStr f j) = depth j
  | .null => rfl
  | .bool _ => rfl
  | .num _ => rfl
  | .str _ => rfl
  | .arr xs => by rw [mapStr, depth, depth, elemDepth_map f xs]
  | .obj ms => by rw [mapStr, depth, depth, memberDepth_map f ms]

theorem elemDepth_map (f : GoString → GoString) : ∀ xs : List Json, elemDepth (mapElems f xs) = elemDepth xs
  | [] => rfl
  | x :: xs => by rw [mapElems, elemDepth, elemDepth, depth_mapStr f x, elemDepth_map f xs]

theorem memberDepth_map (f : GoString → GoString) : ∀ ms : List (GoString × Json),
    memberDepth (mapMembers f ms) = memberDepth ms
  | [] => rfl
  | (k, x) :: ms => by rw [mapMembers, memberDepth, memberDepth, depth_mapStr f x, memberDepth_map f ms]

end

/-! ## Values -/

/-- The end of a line, and the indent of the next. -/
def newline (n : ℕ) : GoString := 0x0A :: List.replicate (2 * n) 0x20

mutual

/-- A value as it stands at an indent of `n` steps. -/
def indent (n : ℕ) : Json → GoString
  | .null => "null"
  | .bool true => "true"
  | .bool false => "false"
  | .num text => text
  | .str s => appendString s
  | .arr [] => [0x5B, 0x5D]
  | .arr (x :: xs) => 0x5B :: newline (n + 1) ++ indentElems (n + 1) (x :: xs) ++ newline n ++ [0x5D]
  | .obj [] => [0x7B, 0x7D]
  | .obj (m :: ms) => 0x7B :: newline (n + 1) ++ indentMembers (n + 1) (m :: ms) ++ newline n ++ [0x7D]

/-- The elements of an array, one a line. -/
def indentElems (n : ℕ) : List Json → GoString
  | [] => []
  | [x] => indent n x
  | x :: y :: xs => indent n x ++ 0x2C :: newline n ++ indentElems n (y :: xs)

/-- The members of an object, one a line. -/
def indentMembers (n : ℕ) : List (GoString × Json) → GoString
  | [] => []
  | [(k, x)] => appendString k ++ [0x3A, 0x20] ++ indent n x
  | (k, x) :: m :: ms =>
    appendString k ++ [0x3A, 0x20] ++ indent n x ++ 0x2C :: newline n ++ indentMembers n (m :: ms)

end

/-- What `Encoder.Encode` writes of a value after `SetIndent("", "  ")`. -/
def encode (j : Json) : GoString := indent 0 j ++ [0x0A]

/-- The text of a number that is read as it is. -/
def Numeral (text : GoString) : Prop := SpellsBefore [.num text] text

theorem numeral_digit {d : UInt8} (hd : d = 0x30 ∨ d = 0x31) : Numeral [d] := by
  intro c rest hc
  have hends : c = 0x2C ∨ c = 0x0A := by simpa [endsNumeral] using hc
  have hnumber : number (d :: c :: rest) = some (c :: rest) := by
    rcases hd with rfl | rfl <;> rcases hends with rfl | rfl <;> rfl
  have htoken : token (d :: c :: rest) = some (.num [d], c :: rest) := by
    have hlen : (d :: c :: rest).length - (c :: rest).length = 1 := by
      rw [List.length_cons]
      omega
    have htake : (d :: c :: rest).take 1 = [d] := rfl
    have hbyte : token (d :: c :: rest) = (number (d :: c :: rest)).map fun r =>
        (.num ((d :: c :: rest).take ((d :: c :: rest).length - r.length)), r) := by
      rcases hd with rfl | rfl <;> rfl
    rw [hbyte, hnumber, Option.map_some, hlen, htake]
  have hspace : isSpace d = false := by
    rcases hd with rfl | rfl <;> decide
  rw [List.singleton_append, lex_token hspace, htoken]
  rfl

theorem numeral_zero : Numeral [0x30] := numeral_digit (Or.inl rfl)

theorem spells_newline (n : ℕ) : Spells [] (newline n) := by
  refine spells_spaces (List.forall_mem_cons.mpr ⟨by decide, fun c hc => ?_⟩)
  rw [List.eq_of_mem_replicate hc]
  decide

theorem spells_punctuation {c : UInt8} {t : Token} (hc : punctuation c = some t) (hspace : isSpace c = false) :
    Spells [t] [c] := by
  refine spells_token hspace fun rest => ?_
  rw [token, List.cons_append, List.head?_cons, Option.bind_some, hc]
  rfl

theorem spells_enclosed {n : ℕ} {o c : UInt8} {l r : Token} (ho : punctuation o = some l)
    (ho' : isSpace o = false) (hc : punctuation c = some r) (hc' : isSpace c = false) (hs : SpellsBefore ts s) :
    Spells (l :: (ts ++ [r])) (o :: newline (n + 1) ++ s ++ newline n ++ [c]) := by
  have hopen : Spells [l] (o :: newline (n + 1)) := (spells_punctuation ho ho').append (spells_newline (n + 1))
  have hclose : Spells [r] (newline n ++ [c]) := (spells_newline n).append (spells_punctuation hc hc')
  have h := (hopen.before hs).close (by decide) hclose
  rw [List.append_assoc _ (newline n)]
  exact h

mutual

/-- **What is written of a value** is its tokens. -/
theorem spells_indent : ∀ (j : Json) (n : ℕ), (∀ text, Token.num text ∈ tokens j → Numeral text) →
    SpellsBefore ((tokens j).map (Token.mapStr Utf8.replaceInvalid)) (indent n j)
  | .null, _, _ => (spells_token (by decide) fun _ => rfl : Spells [.null] "null").toBefore
  | .bool true, _, _ => (spells_token (by decide) fun _ => rfl : Spells [.bool true] "true").toBefore
  | .bool false, _, _ => (spells_token (by decide) fun _ => rfl : Spells [.bool false] "false").toBefore
  | .num text, _, h => h text (List.mem_singleton_self _)
  | .str s, _, _ => (spells_appendString s).toBefore
  | .arr [], _, _ => ((spells_punctuation (by decide) (by decide)).append
      (spells_punctuation (by decide) (by decide)) : Spells ([.lbracket] ++ [.rbracket]) ([0x5B] ++ [0x5D])).toBefore
  | .arr (x :: xs), n, h => by
    have helems := spells_elems (x :: xs) (n + 1) (List.cons_ne_nil x xs) fun text htext =>
      h text (List.mem_cons_of_mem _ (List.mem_append_left _ htext))
    rw [tokens, List.map_cons, List.map_append]
    exact (spells_enclosed (by decide) (by decide) (by decide) (by decide) helems).toBefore
  | .obj [], _, _ => ((spells_punctuation (by decide) (by decide)).append
      (spells_punctuation (by decide) (by decide)) : Spells ([.lbrace] ++ [.rbrace]) ([0x7B] ++ [0x7D])).toBefore
  | .obj (m :: ms), n, h => by
    have hmembers := spells_members (m :: ms) (n + 1) (List.cons_ne_nil m ms) fun text htext =>
      h text (List.mem_cons_of_mem _ (List.mem_append_left _ htext))
    rw [tokens, List.map_cons, List.map_append]
    exact (spells_enclosed (by decide) (by decide) (by decide) (by decide) hmembers).toBefore

theorem spells_elems : ∀ (xs : List Json) (n : ℕ), xs ≠ [] →
    (∀ text, Token.num text ∈ elemTokens xs → Numeral text) →
    SpellsBefore ((elemTokens xs).map (Token.mapStr Utf8.replaceInvalid)) (indentElems n xs)
  | [], _, hne, _ => absurd rfl hne
  | [x], n, _, h => spells_indent x n h
  | x :: y :: xs, n, _, h => by
    have hx := spells_indent x n fun text htext => h text (List.mem_append_left _ htext)
    have hxs := spells_elems (y :: xs) n (List.cons_ne_nil y xs) fun text htext =>
      h text (List.mem_append_right _ (List.mem_cons_of_mem _ htext))
    have hcomma : Spells [.comma] (0x2C :: newline n) :=
      (spells_punctuation (by decide) (by decide)).append (spells_newline n)
    have hall := (hx.close (by decide) hcomma).before hxs
    rw [elemTokens, List.map_append, List.map_cons]
    rw [List.append_assoc] at hall
    exact hall

theorem spells_members : ∀ (ms : List (GoString × Json)) (n : ℕ), ms ≠ [] →
    (∀ text, Token.num text ∈ memberTokens ms → Numeral text) →
    SpellsBefore ((memberTokens ms).map (Token.mapStr Utf8.replaceInvalid)) (indentMembers n ms)
  | [], _, hne, _ => absurd rfl hne
  | [(k, x)], n, _, h => by
    have hx := spells_indent x n fun text htext =>
      h text (List.mem_cons_of_mem _ (List.mem_cons_of_mem _ htext))
    have hcolon : Spells [.colon] [0x3A, 0x20] :=
      (spells_punctuation (by decide) (by decide)).append (spells_space (by decide))
    exact ((spells_appendString k).append hcolon).before hx
  | (k, x) :: m :: ms, n, _, h => by
    have hx := spells_indent x n fun text htext =>
      h text (List.mem_cons_of_mem _ (List.mem_cons_of_mem _ (List.mem_append_left _ htext)))
    have hms := spells_members (m :: ms) n (List.cons_ne_nil m ms) fun text htext =>
      h text (List.mem_cons_of_mem _ (List.mem_cons_of_mem _ (List.mem_append_right _
        (List.mem_cons_of_mem _ htext))))
    have hcolon : Spells [.colon] [0x3A, 0x20] :=
      (spells_punctuation (by decide) (by decide)).append (spells_space (by decide))
    have hcomma : Spells [.comma] (0x2C :: newline n) :=
      (spells_punctuation (by decide) (by decide)).append (spells_newline n)
    have hall := ((((spells_appendString k).append hcolon).before hx).close (by decide) hcomma).before hms
    rw [memberTokens, List.map_cons, List.map_cons, List.map_append, List.map_cons]
    simp only [List.append_assoc, List.cons_append, List.nil_append] at hall
    simp only [indentMembers, List.append_assoc, List.cons_append, List.nil_append]
    exact hall

end

/-- **A value is read back from what is written of it**, with the invalid bytes of its strings replaced. -/
theorem parse_encode {j : Json} (hd : depth j ≤ maxNestingDepth)
    (hnum : ∀ text, Token.num text ∈ tokens j → Numeral text) :
    parse (encode j) = some (mapStr Utf8.replaceInvalid j) := by
  have hlex : lex (encode j) = some (tokens (mapStr Utf8.replaceInvalid j)) := by
    have hend : lex [0x0A] = some [] := rfl
    rw [encode, spells_indent j 0 hnum 0x0A [] (by decide), hend, tokens_mapStr, Option.map_some, List.append_nil]
  have hrun := run_tokens (mapStr Utf8.replaceInvalid j) [] (by simpa [depth_mapStr] using hd) []
  rw [List.append_nil] at hrun
  rw [parse, hlex, Option.bind_some, parseTokens, hrun]
  rfl

end Idryx.Json
