import Idryx.Go.Json.Parse
import Mathlib.Algebra.GroupWithZero.Nat

/-!
# Scales

Weights of the bytes of a text and of the bytes of a string, such that no string weighs more than what
is written for it. Then no value weighs more than its text.

* `Scale`; `ofString_unquote`, `sum_ofToken`, **`ofJson_le`**: what is read weighs no more;
* `Scale.Tight`; **`ofText_text`**: a value weighs what its own text does, on a tight scale;
* `signs`; **`ofText_queryUnescape`**: a scale on which a text with a percent or plus sign loses by
  `url.QueryUnescape`.
-/

namespace Idryx.Json

open Url (unhex)

/-- Weights of the bytes of a literal and of the string it is for, such that no escape weighs less than what it
stands for. -/
structure Scale where
  text : UInt8 → Nat
  value : UInt8 → Nat
  value_high : ∀ b, 0x80 ≤ b → value b = 0
  value_plain : ∀ b, ¬ b < 0x20 → b ≠ 0x22 → b ≠ 0x5C → value b ≤ text b
  value_simple : ∀ e ∈ simpleEscapes, value (unescapeSimple e) ≤ text 0x5C + text e
  value_unicode : ∀ k l x y, unhex k = some x → unhex l = some y → 16 * x + y < 0x80 →
    value (UInt8.ofNat (16 * x + y)) ≤ text 0x5C + text k + text l

namespace Scale

variable (σ : Scale)

/-- How heavy a literal is, and how heavy a string. -/
def ofText (s : GoString) : Nat := (s.map σ.text).sum

@[inherit_doc ofText]
def ofString (s : GoString) : Nat := (s.map σ.value).sum

@[simp] theorem ofText_nil : σ.ofText [] = 0 := rfl

@[simp] theorem ofText_cons (b : UInt8) (s : GoString) : σ.ofText (b :: s) = σ.text b + σ.ofText s :=
  rfl

@[simp] theorem ofString_nil : σ.ofString [] = 0 := rfl

@[simp] theorem ofString_cons (b : UInt8) (s : GoString) :
    σ.ofString (b :: s) = σ.value b + σ.ofString s := rfl

@[simp] theorem ofText_append (s t : GoString) : σ.ofText (s ++ t) = σ.ofText s + σ.ofText t := by
  simp [ofText]

@[simp] theorem ofString_append (s t : GoString) :
    σ.ofString (s ++ t) = σ.ofString s + σ.ofString t := by
  simp [ofString]

theorem ofString_high {s : GoString} (hs : ∀ b ∈ s, 0x80 ≤ b) : σ.ofString s = 0 := by
  induction s with
  | nil => rfl
  | cons b s ih =>
    obtain ⟨hb, hs⟩ := List.forall_mem_cons.mp hs
    rw [ofString_cons, σ.value_high b hb, ih hs]

/-! ## Strings -/

theorem ofString_encodeRune {r : Nat} (hr : 0x80 ≤ r) : σ.ofString (Utf8.encodeRune r) = 0 := by
  obtain ⟨r', hr'⟩ := Utf8.exists_encodes_encodeRune r
  rcases hr'.ascii_or with ⟨b, -, hb, -⟩ | ⟨-, -, hhigh⟩
  · have hlen := congrArg List.length hb
    unfold Utf8.encodeRune at hlen
    rw [if_neg (by omega)] at hlen
    split_ifs at hlen <;> simp at hlen
  · exact σ.ofString_high hhigh

theorem raw_tail {b : UInt8} {s : GoString} (hb : 0x80 ≤ b) (h : RawString (b :: s)) : RawString s := by
  cases h with
  | plain _ _ _ h => exact h
  | simple => exact absurd hb (by decide)
  | unicode => exact absurd hb (by decide)

theorem raw_of_high {y z : GoString} (hy : ∀ b ∈ y, 0x80 ≤ b) (h : RawString (y ++ z)) :
    RawString z := by
  induction y with
  | nil => exact h
  | cons b y ih =>
    obtain ⟨hb, hy⟩ := List.forall_mem_cons.mp hy
    exact ih hy (raw_tail hb h)

theorem getu4_raw {s : GoString} (h : RawString s) {r : Nat} (hr : getu4 s = some r) :
    RawString (s.drop 6) := by
  cases h with
  | nil => cases hr
  | @plain c s _ hslash =>
    unfold getu4 at hr
    split at hr
    · rename_i heq
      cases heq
      simp [hslash] at hr
    · cases hr
  | simple he => rw [getu4_simple (simple_ne_u he)] at hr; cases hr
  | unicode _ h => exact h

theorem unicodeEscape_raw {i j k l : UInt8} {s : GoString}
    (hex : (isHex i && isHex j && isHex k && isHex l) = true) (h : RawString s) :
    ∃ r w, unicodeEscape (0x5C :: 0x75 :: i :: j :: k :: l :: s) = some (r, w + 6) ∧
      RawString (s.drop w) ∧
      σ.ofString (Utf8.encodeRune r) ≤ σ.text 0x5C + σ.text k + σ.text l := by
  simp only [isHex, Bool.and_eq_true, Option.isSome_iff_exists] at hex
  obtain ⟨⟨⟨⟨x, hx⟩, ⟨y, hy⟩⟩, ⟨z, hz⟩⟩, ⟨w, hw⟩⟩ := hex
  have hfour : getu4 (0x5C :: 0x75 :: i :: j :: k :: l :: s) =
      some (4096 * x + 256 * y + 16 * z + w) := by
    simp [getu4, hx, hy, hz, hw]
  have hzero : ∀ r, 0x80 ≤ r →
      σ.ofString (Utf8.encodeRune r) ≤ σ.text 0x5C + σ.text k + σ.text l := by
    intro r hr
    rw [σ.ofString_encodeRune hr]
    exact Nat.zero_le _
  rw [unicodeEscape, hfour, Option.map_some]
  split_ifs with hsurrogate
  · have hdrop : (0x5C :: 0x75 :: i :: j :: k :: l :: s).drop 6 = s := rfl
    rw [hdrop]
    split
    · rename_i r' hr'
      split_ifs with hpair
      · refine ⟨_, 6, rfl, getu4_raw h hr', hzero _ ?_⟩
        unfold decodeSurrogates at hpair ⊢
        split_ifs at hpair ⊢
        · omega
        · exact absurd rfl hpair
      · exact ⟨_, 0, rfl, h, hzero _ (by decide)⟩
    · exact ⟨_, 0, rfl, h, hzero _ (by decide)⟩
  · refine ⟨_, 0, rfl, h, ?_⟩
    by_cases hlt : 4096 * x + 256 * y + 16 * z + w < 0x80
    · -- an ASCII character, written by its last two digits
      have hsmall : 4096 * x + 256 * y + 16 * z + w = 16 * z + w := by omega
      rw [Utf8.encodeRune, if_pos hlt, hsmall]
      simpa using σ.value_unicode k l z w hz hw (by omega)
    · exact hzero _ (Nat.le_of_not_lt hlt)

/-- **One character**: what is behind it is the rest of the string, and it weighs no more than what is
written for it. -/
theorem unquoteRune_raw {b : UInt8} {s : GoString} (h : RawString (b :: s)) :
    RawString ((b :: s).drop (unquoteRune (b :: s)).2) ∧
      σ.ofString (unquoteRune (b :: s)).1 ≤ σ.ofText ((b :: s).take (unquoteRune (b :: s)).2) := by
  cases h with
  | plain hquote hslash hc h =>
    rw [unquoteRune_plain hslash]
    rcases Utf8.decodeRune_cases b s with herr | ⟨r, y, z, hyz, hdecode, hr⟩
    · rw [herr]
      refine ⟨h, ?_⟩
      rw [σ.ofString_encodeRune (by decide)]
      exact Nat.zero_le _
    · rw [hdecode, hyz, hr.encodeRune, List.drop_left, List.take_left]
      rcases hr.ascii_or with ⟨b', -, rfl, -⟩ | ⟨-, -, hhigh⟩
      · obtain ⟨rfl, rfl⟩ := List.cons.inj hyz
        refine ⟨h, ?_⟩
        simpa using σ.value_plain b hc hquote hslash
      · refine ⟨raw_of_high hhigh (hyz ▸ RawString.plain hquote hslash hc h), ?_⟩
        rw [σ.ofString_high hhigh]
        exact Nat.zero_le _
  | @simple e s he h =>
    rw [unquoteRune_simple (simple_ne_u he)]
    refine ⟨h, ?_⟩
    simpa using σ.value_simple e he
  | @unicode i j k l s hex h =>
    obtain ⟨r, w, hr, hraw, hle⟩ := σ.unicodeEscape_raw hex h
    have hrune : unquoteRune (0x5C :: 0x75 :: i :: j :: k :: l :: s) = (Utf8.encodeRune r, w + 6) := by
      rw [unquoteRune, List.head?_cons, if_pos rfl, hr]
    rw [hrune]
    refine ⟨hraw, hle.trans ?_⟩
    simp only [List.take_succ_cons, ofText_cons]
    omega

/-- **No string weighs more than what is written for it.** -/
theorem ofString_unquote {raw : GoString} (h : RawString raw) :
    σ.ofString (unquote raw) ≤ σ.ofText raw := by
  induction hn : raw.length using Nat.strong_induction_on generalizing raw with
  | _ n ih =>
    cases raw with
    | nil => exact Nat.zero_le _
    | cons b s =>
      obtain ⟨hrest, hle⟩ := σ.unquoteRune_raw h
      have hpos := unquoteRune_width_pos b s
      have hlt : ((b :: s).drop (unquoteRune (b :: s)).2).length < n := by
        rw [List.length_drop, ← hn, List.length_cons]
        omega
      have hih := ih _ hlt hrest rfl
      have hsplit := congrArg σ.ofText (List.take_append_drop (unquoteRune (b :: s)).2 (b :: s))
      rw [ofText_append] at hsplit
      rw [unquote_cons, ofString_append]
      omega

/-! ## Tokens -/

/-- A token that is no string weighs nothing. -/
def ofToken : Token → Nat
  | .str s => σ.ofString s
  | _ => 0

theorem ofText_behind {rest s : GoString} (h : Behind rest s) : σ.ofText rest ≤ σ.ofText s := by
  obtain ⟨y, rfl⟩ := h.1
  rw [ofText_append]
  exact Nat.le_add_left _ _

theorem ofToken_le {s rest : GoString} {t : Token} (h : token s = some (t, rest)) :
    σ.ofToken t + σ.ofText rest ≤ σ.ofText s := by
  rcases token_cases h with ⟨raw, rfl, hraw, rfl⟩ | ⟨hbehind, hstr⟩
  · have hle := σ.ofString_unquote hraw
    simp only [ofToken, ofText_cons, ofText_append]
    omega
  · have hzero : σ.ofToken t = 0 := by
      cases t with
      | str v => exact absurd rfl (hstr v)
      | _ => rfl
    rw [hzero, Nat.zero_add]
    exact σ.ofText_behind hbehind

theorem sum_ofToken {n : Nat} {s : GoString} {ts : List Token} (h : lexFrom n s = some ts) :
    (ts.map σ.ofToken).sum ≤ σ.ofText s := by
  induction n generalizing s ts with
  | zero =>
    cases s with
    | nil =>
      cases h
      exact Nat.zero_le _
    | cons => cases h
  | succ n ih =>
    cases s with
    | nil =>
      cases h
      exact Nat.zero_le _
    | cons c s =>
      rw [lexFrom] at h
      split_ifs at h
      · exact (ih h).trans (Nat.le_add_left _ _)
      · obtain ⟨⟨t, rest⟩, htoken, hrest⟩ := Option.bind_eq_some_iff.mp h
        obtain ⟨ts', hts', rfl⟩ := Option.map_eq_some_iff.mp hrest
        calc (σ.ofToken t + (ts'.map σ.ofToken).sum)
            ≤ σ.ofToken t + σ.ofText rest := Nat.add_le_add_left (ih hts') _
          _ ≤ σ.ofText (c :: s) := σ.ofToken_le htoken

/-! ## Values -/

mutual

/-- The weight of the strings of a value, the names of members included. -/
def ofJson : Json → Nat
  | .str s => σ.ofString s
  | .arr xs => ofElems xs
  | .obj ms => ofMembers ms
  | _ => 0

@[inherit_doc ofJson]
def ofElems : List Json → Nat
  | [] => 0
  | x :: xs => ofJson x + ofElems xs

@[inherit_doc ofJson]
def ofMembers : List (GoString × Json) → Nat
  | [] => 0
  | (k, x) :: ms => σ.ofString k + ofJson x + ofMembers ms

end

theorem ofElems_append (xs ys : List Json) :
    σ.ofElems (xs ++ ys) = σ.ofElems xs + σ.ofElems ys := by
  induction xs with
  | nil => simp [ofElems]
  | cons x xs ih => rw [List.cons_append, ofElems, ofElems, ih, Nat.add_assoc]

theorem ofMembers_append (ms ns : List (GoString × Json)) :
    σ.ofMembers (ms ++ ns) = σ.ofMembers ms + σ.ofMembers ns := by
  induction ms with
  | nil => simp [ofMembers]
  | cons m ms ih =>
    rw [List.cons_append, ofMembers, ofMembers, ih]
    omega

/-- The weight of what the scanner has read and not closed. -/
def ofFrame : Frame → Nat
  | .arr xs => σ.ofElems xs
  | .obj ms k => σ.ofMembers ms + σ.ofString k

@[inherit_doc ofFrame]
def ofMode : Mode → Nat
  | .key ms => σ.ofMembers ms
  | .colon ms k => σ.ofMembers ms + σ.ofString k
  | .after v => σ.ofJson v
  | _ => 0

@[inherit_doc ofFrame]
def ofState (st : Mode × List Frame) : Nat := σ.ofMode st.1 + (st.2.map σ.ofFrame).sum

theorem ofState_beginValue {fs : List Frame} {t : Token} {st : Mode × List Frame}
    (h : beginValue fs t = some st) : σ.ofState st = (fs.map σ.ofFrame).sum + σ.ofToken t := by
  unfold beginValue at h
  split at h
  all_goals first | split_ifs at h | skip
  all_goals cases h
  all_goals simp [ofState, ofMode, ofJson, ofToken, Nat.add_comm]

/-- **A token adds its weight.** -/
theorem ofState_step {st st' : Mode × List Frame} {t : Token} (h : step st t = some st') :
    σ.ofState st' = σ.ofState st + σ.ofToken t := by
  unfold step at h
  split at h
  · rename_i fs t
    rw [σ.ofState_beginValue h]
    simp [ofState, ofMode]
  · cases h
    simp [ofState, ofMode, ofJson, ofElems, ofToken]
  · rw [σ.ofState_beginValue h]
    simp [ofState, ofMode, ofFrame, ofElems]
  -- every other token is a name, closes the value or separates its parts
  all_goals cases h
  all_goals
    simp only [ofState, ofMode, ofFrame, ofJson, ofElems, ofMembers, ofElems_append, ofMembers_append,
      ofToken, List.map_cons, List.sum_cons]
    omega

/-- **No value weighs more than its text.** -/
theorem ofJson_le {s : GoString} {j : Json} (h : parse s = some j) : σ.ofJson j ≤ σ.ofText s := by
  obtain ⟨ts, hts, hj⟩ := Option.bind_eq_some_iff.mp h
  have hrun : ∀ (ts : List Token) (st st' : Mode × List Frame), ts.foldlM step st = some st' →
      σ.ofState st' = σ.ofState st + (ts.map σ.ofToken).sum := by
    intro ts
    induction ts with
    | nil =>
      intro st st' h
      cases h
      rfl
    | cons t ts ih =>
      intro st st' h
      rw [List.foldlM_cons] at h
      obtain ⟨st1, hst1, hrest⟩ := Option.bind_eq_some_iff.mp h
      rw [ih _ _ hrest, σ.ofState_step hst1, List.map_cons, List.sum_cons, Nat.add_assoc]
  unfold parseTokens at hj
  split at hj
  · rename_i v hv
    cases hj
    have hsum := hrun _ _ _ hv
    have hle := σ.sum_ofToken hts
    simp only [ofState, ofMode, List.map_nil, List.sum_nil] at hsum
    omega
  · cases hj

/-! ## What is written -/

/-- A string weighs what the shortest text for it does, and nothing else has a weight. -/
structure Tight : Prop where
  escaped : ∀ b, σ.ofText (escapeByte b) = σ.value b
  quote : σ.text 0x22 = 0
  other : ∀ t : Token, t ∈ [.lbrace, .rbrace, .lbracket, .rbracket, .comma, .colon, .null,
    .bool true, .bool false] → σ.ofText t.text = 0

variable {σ}

theorem Tight.ofText_escape (h : σ.Tight) (s : GoString) : σ.ofText (escape s) = σ.ofString s := by
  induction s with
  | nil => rfl
  | cons b s ih =>
    rw [escape, List.flatMap_cons, ofText_append, h.escaped, ofString_cons]
    exact congrArg _ ih

theorem Tight.ofText_token (h : σ.Tight) {t : Token} (ht : t.Fits) : σ.ofText t.text = σ.ofToken t := by
  cases t with
  | num text => exact ht.elim
  | str s => simp [Token.text, ofToken, h.quote, h.ofText_escape]
  | bool b => exact h.other _ (by cases b <;> simp)
  | _ => exact h.other _ (by simp)

variable (σ)

mutual

theorem sum_tokens : ∀ j : Json, ((tokens j).map σ.ofToken).sum = σ.ofJson j
  | .null => rfl
  | .bool _ => rfl
  | .num _ => rfl
  | .str _ => rfl
  | .arr xs => by
    have h := sum_elemTokens xs
    simp only [tokens, ofJson, List.map_cons, List.map_append, List.sum_cons, List.sum_append, ofToken,
      List.map_nil, List.sum_nil]
    omega
  | .obj ms => by
    have h := sum_memberTokens ms
    simp only [tokens, ofJson, List.map_cons, List.map_append, List.sum_cons, List.sum_append, ofToken,
      List.map_nil, List.sum_nil]
    omega

theorem sum_elemTokens : ∀ xs : List Json, ((elemTokens xs).map σ.ofToken).sum = σ.ofElems xs
  | [] => rfl
  | [x] => by rw [elemTokens, sum_tokens x, ofElems, ofElems, Nat.add_zero]
  | x :: y :: xs => by
    have hx := sum_tokens x
    have h := sum_elemTokens (y :: xs)
    simp only [elemTokens, ofElems, List.map_cons, List.map_append, List.sum_cons, List.sum_append,
      ofToken] at h ⊢
    omega

theorem sum_memberTokens : ∀ ms : List (GoString × Json),
    ((memberTokens ms).map σ.ofToken).sum = σ.ofMembers ms
  | [] => rfl
  | [(k, x)] => by
    have hx := sum_tokens x
    simp only [memberTokens, ofMembers, List.map_cons, List.sum_cons, ofToken]
    omega
  | (k, x) :: m :: ms => by
    have hx := sum_tokens x
    have h := sum_memberTokens (m :: ms)
    simp only [memberTokens, ofMembers, List.map_cons, List.map_append, List.sum_cons, List.sum_append,
      ofToken] at h ⊢
    omega

end

variable {σ}

/-- **A value weighs what its own text does**. -/
theorem Tight.ofText_text (h : σ.Tight) {j : Json} (hj : j.Fits) :
    σ.ofText (Json.text j) = σ.ofJson j := by
  have hsum : ∀ ts : List Token, (∀ t ∈ ts, t.Fits) →
      σ.ofText (ts.flatMap Token.text) = (ts.map σ.ofToken).sum := by
    intro ts
    induction ts with
    | nil => exact fun _ => rfl
    | cons t ts ih =>
      intro hts
      obtain ⟨ht, hts⟩ := List.forall_mem_cons.mp hts
      rw [List.flatMap_cons, ofText_append, h.ofText_token ht, ih hts, List.map_cons, List.sum_cons]
  rw [← σ.sum_tokens j]
  exact hsum _ hj

/-! ## Percent and plus signs -/

/-- The weight of a byte of a text: the signs that `url.QueryUnescape` looks for weigh what any writing of
them does, and so do the bytes they can be turned into. -/
def signWeight (b : UInt8) : Nat :=
  if b = 0x25 then 2 else if b = 0x2B ∨ b = 0x5C ∨ b = 0x35 then 1 else 0

/-- What a digit of an escape weighs. -/
def digitWeight (n : Nat) : Nat := if n = 5 then 1 else 0

theorem signWeight_of_unhex {c : UInt8} {x : Nat} (hx : unhex c = some x) :
    x < 16 ∧ signWeight c = digitWeight x := by
  have hall : ∀ c : UInt8,
      (unhex c).all (fun x => decide (x < 16 ∧ signWeight c = digitWeight x)) = true :=
    forall_byte (by decide +kernel)
  have hc := hall c
  rw [hx] at hc
  exact of_decide_eq_true hc

/-- The scale of the signs. -/
def signs : Scale where
  text := signWeight
  value b := ((escapeByte b).map signWeight).sum
  value_high := forall_byte (by decide +kernel)
  value_plain := forall_byte (by decide +kernel)
  value_simple := by decide +kernel
  value_unicode k l x y hk hl hlt := by
    obtain ⟨hx, hwx⟩ := signWeight_of_unhex hk
    obtain ⟨hy, hwy⟩ := signWeight_of_unhex hl
    have hall : ∀ x < 8, ∀ y < 16, ((escapeByte (UInt8.ofNat (16 * x + y))).map signWeight).sum ≤
        signWeight 0x5C + digitWeight x + digitWeight y := by decide +kernel
    rw [hwx, hwy]
    exact hall x (by omega) y hy

theorem signs_text (b : UInt8) : signs.text b = signWeight b := rfl

theorem signs_tight : signs.Tight where
  escaped _ := rfl
  quote := rfl
  other := by decide

/-- **What is unescaped weighs less.** -/
theorem ofText_queryUnescape {s t : GoString} (h : Url.queryUnescape s = some t) :
    signs.ofText t ≤ signs.ofText s ∧ (0x25 ∈ s ∨ 0x2B ∈ s → signs.ofText t < signs.ofText s) := by
  fun_induction Url.queryUnescape s generalizing t with
  | case1 =>
    cases h
    exact ⟨le_rfl, by simp⟩
  | case2 hi lo s x y hy hx ih =>
    obtain ⟨t', ht', rfl⟩ := Option.map_eq_some_iff.mp h
    have hle := (ih ht').1
    obtain ⟨hx, hwx⟩ := signWeight_of_unhex hx
    obtain ⟨hy, hwy⟩ := signWeight_of_unhex hy
    have hall : ∀ x < 16, ∀ y < 16, signWeight (UInt8.ofNat (16 * x + y)) <
        signWeight 0x25 + digitWeight x + digitWeight y := by decide +kernel
    have hlt : signs.ofText (UInt8.ofNat (16 * x + y) :: t') < signs.ofText (0x25 :: hi :: lo :: s) := by
      have hbyte := hall x hx y hy
      simp only [ofText_cons, signs_text, hwx, hwy]
      omega
    exact ⟨hlt.le, fun _ => hlt⟩
  | case3 => cases h
  | case4 => cases h
  | case5 c s hc ih =>
    obtain ⟨t', ht', rfl⟩ := Option.map_eq_some_iff.mp h
    obtain ⟨hle, hlt⟩ := ih ht'
    by_cases hplus : c = 0x2B
    · subst hplus
      have hblank : signs.text 0x20 < signs.text 0x2B := by decide
      have hless : signs.ofText ((if (0x2B : UInt8) = 0x2B then 0x20 else 0x2B) :: t') <
          signs.ofText (0x2B :: s) := by
        rw [if_pos rfl, ofText_cons, ofText_cons]
        omega
      exact ⟨hless.le, fun _ => hless⟩
    · rw [if_neg hplus, ofText_cons, ofText_cons]
      refine ⟨Nat.add_le_add_left hle _, fun hsign => Nat.add_lt_add_left (hlt ?_) _⟩
      rw [List.mem_cons, List.mem_cons] at hsign
      rcases hsign with (h | h) | (h | h)
      · exact absurd h.symm hc
      · exact Or.inl h
      · exact absurd h.symm hplus
      · exact Or.inr h

end Scale

end Idryx.Json
