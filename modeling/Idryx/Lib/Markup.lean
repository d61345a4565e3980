import Mathlib.Data.List.Nodup
import Mathlib.Data.Nat.Notation

/-!
# Texts inside texts

What a page makes of text in its markup and of text in its scripts, over UTF-16 code units.

* `Entities`: the character references of the markup; `reference`, `decode`: a text with its references
  replaced; `decode_plain`, **`decode_named`**, **`decode_numeric`**;
* `escapeSequence`, `literal`: a string literal of a script, up to the quote that ends it;
  `literal_plain`, **`literal_escape`**, `literal_quote`.
-/

namespace Markup

/-- UTF-16 code units. -/
abbrev Text : Type := List UInt16

/-- The code units of ASCII text. -/
def units (s : String) : Text := s.toList.map fun c => UInt16.ofNat c.toNat

/-- A digit, a letter, and either. -/
def isDigit (c : UInt16) : Bool := 0x30 ≤ c && c ≤ 0x39

@[inherit_doc isDigit]
def isLetter (c : UInt16) : Bool := (0x41 ≤ c && c ≤ 0x5A) || (0x61 ≤ c && c ≤ 0x7A)

@[inherit_doc isDigit]
def isAlnum (c : UInt16) : Bool := isDigit c || isLetter c

/-- The value of a hexadecimal digit. -/
def hexDigit (c : UInt16) : Option ℕ :=
  if 0x30 ≤ c ∧ c ≤ 0x39 then some (c.toNat - 0x30)
  else if 0x61 ≤ c ∧ c ≤ 0x66 then some (c.toNat - 0x57)
  else if 0x41 ≤ c ∧ c ≤ 0x46 then some (c.toNat - 0x37)
  else none

/-- A text of digits in base `b`. -/
def numeral (b : ℕ) (s : Text) : ℕ := s.foldl (fun v c => b * v + (hexDigit c).getD 0) 0

/-! ## Character references -/

/-- The character references: the names as they stand behind the ampersand, with their semicolon if they
have one, and what a number stands for. -/
structure Entities where
  named : List (Text × Text)
  numeric : ℕ → Text
  nodup : (named.map Prod.fst).Nodup
  semicolon : ∀ row ∈ named, 0x3B ∉ row.1.dropLast
  basic : ∀ row ∈ [(units "amp;", units "&"), (units "lt;", units "<"), (units "gt;", units ">"),
    (units "quot;", units "\"")], row ∈ named
  ascii : ∀ n, 0x20 ≤ n → n < 0x7F → numeric n = [UInt16.ofNat n]

namespace Entities

variable (E : Entities) (inAttr : Bool)

/-- The longest name a text starts with. -/
def longest (s : Text) : Option (Text × Text) :=
  (E.named.filter fun row => row.1.isPrefixOf s).foldl (fun best row =>
    if best.elim 0 (fun b => b.1.length) < row.1.length then some row else best) none

/-- What stands behind an ampersand: what the reference stands for, and the rest. An ampersand that starts
no reference is itself, as in an attribute is one whose name has no semicolon and goes on. -/
def reference (s : Text) : Text × Text :=
  match s with
  | 0x23 :: t =>
    let hex := t.head? = some 0x78 ∨ t.head? = some 0x58
    let t := if hex then t.tail else t
    let digits := t.takeWhile fun c => if hex then (hexDigit c).isSome else isDigit c
    let rest := t.drop digits.length
    if digits = [] then ([0x26], s)
    else (E.numeric (numeral (if hex then 16 else 10) digits),
      if rest.head? = some 0x3B then rest.tail else rest)
  | _ =>
    match E.longest s with
    | none => ([0x26], s)
    | some (name, value) =>
      let rest := s.drop name.length
      if inAttr ∧ name.getLast? ≠ some 0x3B ∧ rest.head?.any (fun c => c == 0x3D || isAlnum c) then
        ([0x26], s)
      else (value, rest)

/-- A text with its references replaced, in at most `n` steps. -/
def decodeFrom : ℕ → Text → Text
  | 0, _ => []
  | _ + 1, [] => []
  | n + 1, c :: s =>
    if c = 0x26 then (E.reference inAttr s).1 ++ decodeFrom n (E.reference inAttr s).2
    else c :: decodeFrom n s

/-- A text with its references replaced. -/
def decode (s : Text) : Text := E.decodeFrom inAttr s.length s

end Entities

/-! ## String literals -/

/-- The values of the escapes of one letter. -/
def singleEscapes : List (UInt16 × UInt16) :=
  [(0x62, 0x08), (0x74, 0x09), (0x6E, 0x0A), (0x76, 0x0B), (0x66, 0x0C), (0x72, 0x0D)]

/-- A code point as code units. -/
def encode (n : ℕ) : Text :=
  if n < 0x10000 then [UInt16.ofNat n]
  else [UInt16.ofNat (0xD800 + (n - 0x10000) / 0x400), UInt16.ofNat (0xDC00 + (n - 0x10000) % 0x400)]

/-- The escape of two hexadecimal digits. -/
def hexEscape : Text → Option (Text × Text)
  | a :: b :: rest =>
    match hexDigit a, hexDigit b with
    | some x, some y => some ([UInt16.ofNat (16 * x + y)], rest)
    | _, _ => none
  | _ => none

/-- The escape of four hexadecimal digits. -/
def quadEscape : Text → Option (Text × Text)
  | a :: b :: c :: d :: rest =>
    match hexDigit a, hexDigit b, hexDigit c, hexDigit d with
    | some x, some y, some z, some w => some ([UInt16.ofNat (4096 * x + 256 * y + 16 * z + w)], rest)
    | _, _, _, _ => none
  | _ => none

/-- The escape of a code point in braces, behind the first brace. -/
def pointEscape (s : Text) : Option (Text × Text) :=
  let digits := s.takeWhile fun c => (hexDigit c).isSome
  let rest := s.drop digits.length
  if digits ≠ [] ∧ numeral 16 digits ≤ 0x10FFFF ∧ rest.head? = some 0x7D then
    some (encode (numeral 16 digits), rest.tail)
  else none

/-- The escape of up to three octal digits, below 256. -/
def octalEscape (c : UInt16) (s : Text) : Text × Text :=
  let more := (s.take (if c ≤ 0x33 then 2 else 1)).takeWhile fun c => 0x30 ≤ c && c ≤ 0x37
  ([UInt16.ofNat (numeral 8 (c :: more))], s.drop more.length)

/-- What stands behind a backslash: what it stands for, and the rest. -/
def escapeSequence : Text → Option (Text × Text)
  | [] => none
  | c :: s =>
    if c = 0x78 then hexEscape s
    else if c = 0x75 then if s.head? = some 0x7B then pointEscape s.tail else quadEscape s
    else if 0x30 ≤ c ∧ c ≤ 0x37 then some (octalEscape c s)
    else if c = 0x0D then some ([], if s.head? = some 0x0A then s.tail else s)
    else if c = 0x0A ∨ c = 0x2028 ∨ c = 0x2029 then some ([], s)
    else some ([((singleEscapes.find? fun row => row.1 == c).map Prod.snd).getD c], s)

/-- The rest of a string literal, in at most `n` steps: its value, and what stands behind its quote. -/
def literalFrom (quote : UInt16) : ℕ → Text → Option (Text × Text)
  | 0, _ => none
  | _ + 1, [] => none
  | n + 1, c :: s =>
    if c = quote then some ([], s)
    else if c = 0x0A ∨ c = 0x0D then none
    else if c = 0x5C then
      match escapeSequence s with
      | none => none
      | some (v, rest) => (literalFrom quote n rest).map fun r => (v ++ r.1, r.2)
    else (literalFrom quote n s).map fun r => (c :: r.1, r.2)

/-- A string literal behind its first quote: its value, and what stands behind its last. -/
def literal (quote : UInt16) (s : Text) : Option (Text × Text) := literalFrom quote s.length s

/-! ## Decoding -/

namespace Entities

variable {E : Entities} {inAttr : Bool} {s : Text} {row : Text × Text}

theorem length_reference_le (s : Text) : (E.reference inAttr s).2.length ≤ s.length := by
  unfold reference
  split
  · rename_i t
    dsimp only
    have htail : ∀ u : Text, u.tail.length ≤ u.length := fun u => by simp
    split_ifs <;> simp only [List.length_cons, List.length_tail, List.length_drop] <;> omega
  · cases E.longest s with
    | none => exact (Nat.le_refl _)
    | some r =>
      obtain ⟨name, value⟩ := r
      dsimp only
      split_ifs
      · exact (Nat.le_refl _)
      · rw [List.length_drop]
        omega

theorem decodeFrom_fuel : ∀ {n m : ℕ} {s : Text}, s.length ≤ n → s.length ≤ m →
    E.decodeFrom inAttr n s = E.decodeFrom inAttr m s
  | 0, m, s, hn, _ => by
    obtain rfl := List.length_eq_zero_iff.mp (Nat.le_zero.mp hn)
    cases m <;> rfl
  | n + 1, 0, s, _, hm => by
    obtain rfl := List.length_eq_zero_iff.mp (Nat.le_zero.mp hm)
    rfl
  | n + 1, m + 1, [], _, _ => rfl
  | n + 1, m + 1, c :: s, hn, hm => by
    have hn' : s.length ≤ n := Nat.le_of_succ_le_succ hn
    have hm' : s.length ≤ m := Nat.le_of_succ_le_succ hm
    have hrest : (E.reference inAttr s).2.length ≤ s.length := length_reference_le s
    rw [decodeFrom, decodeFrom, decodeFrom_fuel hn' hm',
      decodeFrom_fuel (Nat.le_trans hrest hn') (Nat.le_trans hrest hm')]

@[simp] theorem decode_nil : E.decode inAttr [] = [] := rfl

theorem decode_cons {c : UInt16} (hc : c ≠ 0x26) (s : Text) :
    E.decode inAttr (c :: s) = c :: E.decode inAttr s := by
  rw [decode, List.length_cons, decodeFrom, if_neg hc]
  rfl

theorem decode_amp (s : Text) : E.decode inAttr (0x26 :: s) =
    (E.reference inAttr s).1 ++ E.decode inAttr (E.reference inAttr s).2 := by
  rw [decode, List.length_cons, decodeFrom, if_pos rfl, decode,
    decodeFrom_fuel (length_reference_le s) (Nat.le_refl _)]

/-- **Text without ampersands is itself.** -/
theorem decode_plain (h : 0x26 ∉ s) : E.decode inAttr s = s := by
  induction s with
  | nil => rfl
  | cons c s ih =>
    rw [List.mem_cons, not_or] at h
    rw [decode_cons (Ne.symm h.1), ih h.2]

theorem foldl_longest {rows : List (Text × Text)} (hpos : 0 < row.1.length)
    (hmax : ∀ r ∈ rows, r = row ∨ r.1.length < row.1.length) {best : Option (Text × Text)}
    (hbest : best = some row ∨ row ∈ rows ∧ ∀ b ∈ best, b.1.length < row.1.length) :
    rows.foldl (fun best row =>
      if best.elim 0 (fun b => b.1.length) < row.1.length then some row else best) best = some row := by
  induction rows generalizing best with
  | nil =>
    rcases hbest with h | ⟨h, -⟩
    · exact h
    · cases h
  | cons r rows ih =>
    rw [List.foldl_cons]
    refine ih (fun r hr => hmax r (List.mem_cons_of_mem _ hr)) ?_
    have hr := hmax r List.mem_cons_self
    rcases hbest with rfl | ⟨hmem, hlt⟩
    · have hnot : ¬ row.1.length < r.1.length := by
        rcases hr with rfl | hr <;> omega
      exact Or.inl (if_neg hnot)
    · by_cases hrow : r = row
      · subst hrow
        refine Or.inl (if_pos ?_)
        cases best with
        | none => exact hpos
        | some b => exact hlt b rfl
      · refine Or.inr ⟨(List.mem_cons.mp hmem).resolve_left (Ne.symm hrow), ?_⟩
        split_ifs
        · rintro b ⟨⟩
          exact hr.resolve_left hrow
        · exact hlt

/-- **A reference with a semicolon** is the one that is read. -/
theorem longest_eq {name value : Text} (hrow : (name ++ [0x3B], value) ∈ E.named) (s : Text) :
    E.longest (name ++ 0x3B :: s) = some (name ++ [0x3B], value) := by
  have htext : name ++ 0x3B :: s = (name ++ [0x3B]) ++ s := List.append_cons name 0x3B s
  refine foldl_longest (by simp) ?_ (Or.inr ⟨List.mem_filter.mpr ⟨hrow, ?_⟩, by simp⟩)
  · intro r hr
    obtain ⟨hmem, hpre⟩ := List.mem_filter.mp hr
    have hpre' : r.1 <+: (name ++ [0x3B]) ++ s := htext ▸ List.isPrefixOf_iff_prefix.mp hpre
    by_cases hlen : r.1.length < (name ++ [0x3B]).length
    · exact Or.inr hlen
    · have hle : name ++ [0x3B] <+: r.1 :=
        List.prefix_of_prefix_length_le (List.prefix_append _ s) hpre' (by omega)
      obtain ⟨t, ht⟩ := hle
      -- a longer name would have a semicolon before its end
      have hnil : t = [] := by
        by_contra hne
        refine E.semicolon r hmem ?_
        rw [← ht, List.dropLast_append_of_ne_nil hne]
        exact List.mem_append_left _ (List.mem_append_right _ List.mem_cons_self)
      rw [hnil, List.append_nil] at ht
      exact Or.inl (List.inj_on_of_nodup_map E.nodup hmem hrow ht.symm)
  · rw [htext]
    exact List.isPrefixOf_iff_prefix.mpr (List.prefix_append _ s)

/-- **A reference by name** is replaced by what it stands for. -/
theorem decode_named {name value : Text} (hrow : (name ++ [0x3B], value) ∈ E.named)
    (hname : ∀ t, name ≠ 0x23 :: t) (s : Text) :
    E.decode inAttr (0x26 :: (name ++ 0x3B :: s)) = value ++ E.decode inAttr s := by
  have href : E.reference inAttr (name ++ 0x3B :: s) = (value, s) := by
    unfold reference
    split
    · rename_i t ht
      cases name with
      | nil => simp at ht
      | cons c name => exact absurd (congrArg (· :: name) (List.cons.inj ht).1) (hname name)
    · rw [longest_eq hrow]
      simp
  rw [decode_amp, href]

/-- **A reference by number**, in decimal digits. -/
theorem decode_numeric {digits : Text} (hne : digits ≠ []) (hdigits : ∀ c ∈ digits, isDigit c = true)
    (s : Text) : E.decode inAttr (0x26 :: 0x23 :: (digits ++ 0x3B :: s)) =
      E.numeric (numeral 10 digits) ++ E.decode inAttr s := by
  have hhead : ¬ ((digits ++ 0x3B :: s).head? = some 0x78 ∨ (digits ++ 0x3B :: s).head? = some 0x58) := by
    obtain ⟨c, t, rfl⟩ := List.exists_cons_of_ne_nil hne
    have hc := hdigits c List.mem_cons_self
    rintro (h | h)
    · cases h
      exact absurd hc (by decide)
    · cases h
      exact absurd hc (by decide)
  have htake : (digits ++ 0x3B :: s).takeWhile isDigit = digits := by
    rw [List.takeWhile_append_of_pos hdigits, List.takeWhile_cons_of_neg (by decide), List.append_nil]
  have href : E.reference inAttr (0x23 :: (digits ++ 0x3B :: s)) = (E.numeric (numeral 10 digits), s) := by
    simp only [reference, if_neg hhead, htake, if_neg hne, List.drop_left]
    rfl
  rw [decode_amp, href]

end Entities

/-! ## Reading literals -/

variable {quote : UInt16}

theorem length_hexEscape {s v rest : Text} (h : hexEscape s = some (v, rest)) : rest.length ≤ s.length := by
  unfold hexEscape at h
  split at h
  · split at h
    · cases h
      simp only [List.length_cons]
      omega
    · cases h
  · cases h

theorem length_quadEscape {s v rest : Text} (h : quadEscape s = some (v, rest)) :
    rest.length ≤ s.length := by
  unfold quadEscape at h
  split at h
  · split at h
    · cases h
      simp only [List.length_cons]
      omega
    · cases h
  · cases h

theorem length_pointEscape {s v rest : Text} (h : pointEscape s = some (v, rest)) :
    rest.length ≤ s.length := by
  unfold pointEscape at h
  dsimp only at h
  split_ifs at h
  cases h
  simp only [List.length_tail, List.length_drop]
  omega

theorem length_escapeSequence {s v rest : Text} (h : escapeSequence s = some (v, rest)) :
    rest.length < s.length := by
  cases s with
  | nil => cases h
  | cons c s =>
    have htail : s.tail.length ≤ s.length := by simp
    have hbelow : rest.length ≤ s.length := by
      rw [escapeSequence] at h
      by_cases hx : c = 0x78
      · rw [if_pos hx] at h
        exact length_hexEscape h
      rw [if_neg hx] at h
      by_cases hu : c = 0x75
      · rw [if_pos hu] at h
        split_ifs at h
        · exact Nat.le_trans (length_pointEscape h) htail
        · exact length_quadEscape h
      rw [if_neg hu] at h
      by_cases hoctal : 0x30 ≤ c ∧ c ≤ 0x37
      · rw [if_pos hoctal] at h
        cases h
        rw [List.length_drop]
        omega
      rw [if_neg hoctal] at h
      by_cases hcr : c = 0x0D
      · rw [if_pos hcr] at h
        cases h
        split_ifs
        · exact htail
        · exact Nat.le_refl _
      rw [if_neg hcr] at h
      split_ifs at h <;> cases h <;> exact Nat.le_refl _
    exact Nat.lt_succ_of_le hbelow

theorem literalFrom_fuel : ∀ {n m : ℕ} {s : Text}, s.length ≤ n → s.length ≤ m →
    literalFrom quote n s = literalFrom quote m s
  | 0, m, s, hn, _ => by
    obtain rfl := List.length_eq_zero_iff.mp (Nat.le_zero.mp hn)
    cases m <;> rfl
  | n + 1, 0, s, _, hm => by
    obtain rfl := List.length_eq_zero_iff.mp (Nat.le_zero.mp hm)
    rfl
  | n + 1, m + 1, [], _, _ => rfl
  | n + 1, m + 1, c :: s, hn, hm => by
    have hn' : s.length ≤ n := Nat.le_of_succ_le_succ hn
    have hm' : s.length ≤ m := Nat.le_of_succ_le_succ hm
    rw [literalFrom, literalFrom, literalFrom_fuel hn' hm']
    cases hesc : escapeSequence s with
    | none => rfl
    | some r =>
      obtain ⟨v, rest⟩ := r
      have hrest := length_escapeSequence hesc
      dsimp only
      rw [literalFrom_fuel (n := n) (m := m) (s := rest) (by omega) (by omega)]

theorem literal_quote (s : Text) : literal quote (quote :: s) = some ([], s) := by
  rw [literal, List.length_cons, literalFrom, if_pos rfl]

theorem literal_plain {c : UInt16} (hq : c ≠ quote) (hline : c ≠ 0x0A ∧ c ≠ 0x0D) (hc : c ≠ 0x5C)
    (s : Text) : literal quote (c :: s) = (literal quote s).map fun r => (c :: r.1, r.2) := by
  rw [literal, List.length_cons, literalFrom, if_neg hq, if_neg (by simp [hline]), if_neg hc]
  rfl

/-- **An escape** is what it stands for. -/
theorem literal_escape (hq : quote ≠ 0x5C) {s v rest : Text} (h : escapeSequence s = some (v, rest)) :
    literal quote (0x5C :: s) = (literal quote rest).map fun r => (v ++ r.1, r.2) := by
  have hrest := length_escapeSequence h
  rw [literal, List.length_cons, literalFrom, if_neg (Ne.symm hq), if_neg (by decide), if_pos rfl, h]
  dsimp only
  rw [literalFrom_fuel (n := s.length) (m := rest.length) (by omega) (Nat.le_refl _)]
  rfl

theorem escapeSequence_x {a b : UInt16} {x y : ℕ} (ha : hexDigit a = some x) (hb : hexDigit b = some y)
    (s : Text) : escapeSequence (0x78 :: a :: b :: s) = some ([UInt16.ofNat (16 * x + y)], s) := by
  rw [escapeSequence, if_pos rfl, hexEscape, ha, hb]

theorem escapeSequence_u {a b c d : UInt16} {x y z w : ℕ} (ha : hexDigit a = some x)
    (hb : hexDigit b = some y) (hc : hexDigit c = some z) (hd : hexDigit d = some w) (s : Text) :
    escapeSequence (0x75 :: a :: b :: c :: d :: s) =
      some ([UInt16.ofNat (4096 * x + 256 * y + 16 * z + w)], s) := by
  have hbrace : (a :: b :: c :: d :: s).head? ≠ some 0x7B := by
    rintro ⟨⟩
    cases ha
  rw [escapeSequence, if_neg (by decide), if_pos rfl, if_neg hbrace, quadEscape, ha, hb, hc, hd]

end Markup
