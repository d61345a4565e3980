import Idryx.Go.Strings
import Mathlib.Data.List.Find

/-!
# Searching and ASCII text

* `Strings.index_eq_some`, `Strings.index_eq_none`: `strings.Index` finds the first occurrence;
  `Strings.contains_iff`, `Strings.splitN_append`, `Strings.sort_perm`;
* `Strings.lowerByte`, `Strings.equalFold`; `Strings.toLower_ascii`: ASCII text is lowered byte by
  byte;
* `Strings.trimSpace_printable`, **`Strings.trimSpace_of_toLower`**: text that is printable without
  blanks, or is so in lower case, is not trimmed.
-/

namespace Idryx.Strings

/-! ## Searching -/

theorem index_eq_some {s k : GoString} {i : Nat} : index s k = some i ↔
    i ≤ s.length ∧ k <+: s.drop i ∧ ∀ j < i, ¬ k <+: s.drop j := by
  unfold index
  rw [List.findIdx?_eq_some_iff_getElem]
  simp only [List.length_tails, List.getElem_tails, List.isPrefixOf_iff_prefix]
  constructor
  · rintro ⟨hi, hk, hj⟩
    exact ⟨by omega, hk, hj⟩
  · rintro ⟨hi, hk, hj⟩
    exact ⟨by omega, hk, hj⟩

theorem index_eq_none {s k : GoString} : index s k = none ↔ ∀ i ≤ s.length, ¬ k <+: s.drop i := by
  unfold index
  rw [List.findIdx?_eq_none_iff]
  simp only [List.mem_tails]
  constructor
  · intro h i _ hk
    have := h (s.drop i) (List.drop_suffix i s)
    rw [List.isPrefixOf_iff_prefix.mpr hk] at this
    cases this
  · rintro h t ⟨u, rfl⟩
    rw [Bool.eq_false_iff]
    intro ht
    have hlen : u.length ≤ (u ++ t).length := by simp
    refine h u.length hlen ?_
    rw [List.drop_left]
    exact List.isPrefixOf_iff_prefix.mp ht

theorem contains_iff {s k : GoString} : contains s k = true ↔ k <:+: s := by
  unfold contains
  rw [Option.isSome_iff_exists]
  constructor
  · rintro ⟨i, hi⟩
    exact (index_eq_some.mp hi).2.1.isInfix.trans (List.drop_suffix i s).isInfix
  · rintro ⟨u, v, rfl⟩
    rw [← Option.isSome_iff_exists, Option.isSome_iff_ne_none]
    intro hnone
    refine index_eq_none.mp hnone u.length ?_ ?_
    · simp only [List.length_append]
      omega
    · rw [List.append_assoc, List.drop_left]
      exact List.prefix_append k v

theorem cutSuffix_append (s p : GoString) : cutSuffix (s ++ p) p = some s := by
  rw [cutSuffix, hasSuffix, if_pos (List.isSuffixOf_iff_suffix.mpr (List.suffix_append s p)),
    List.length_append, Nat.add_sub_cancel, List.take_left]

theorem cutSuffix_eq_none {s p : GoString} : cutSuffix s p = none ↔ ¬ p <:+ s := by
  rw [cutSuffix, hasSuffix, ← List.isSuffixOf_iff_suffix]
  simp

theorem splitN_append {b : UInt8} {x : GoString} (hx : b ∉ x) (n : Nat) (y : GoString) :
    splitN b (n + 2) (x ++ b :: y) = x :: splitN b (n + 1) y := by
  have hfind : (x ++ b :: y).findIdx? (· == b) = some x.length := by
    have hno : x.findIdx? (· == b) = none := by
      rw [List.findIdx?_eq_none_iff]
      intro c hc
      exact beq_eq_false_iff_ne.mpr fun h => hx (h ▸ hc)
    rw [List.findIdx?_append, hno, List.findIdx?_cons, if_pos (beq_self_eq_true b)]
    simp
  rw [splitN, hfind]
  simp

theorem splitN_of_not_mem {b : UInt8} {s : GoString} (h : b ∉ s) (n : Nat) :
    splitN b (n + 1) s = [s] := by
  cases n with
  | zero => rfl
  | succ n =>
    have hno : s.findIdx? (· == b) = none := by
      rw [List.findIdx?_eq_none_iff]
      intro c hc
      exact beq_eq_false_iff_ne.mpr fun hcb => h (hcb ▸ hc)
    rw [splitN, hno]

theorem splitN_ne_nil {b : UInt8} (n : Nat) (s : GoString) : splitN b (n + 1) s ≠ [] := by
  cases n with
  | zero => exact List.cons_ne_nil _ _
  | succ n =>
    rw [splitN]
    split <;> exact List.cons_ne_nil _ _

/-- **Fields are read back**, the last of them with whatever it holds. -/
theorem splitN_join {b : UInt8} {xs : List GoString} (hxs : ∀ x ∈ xs, b ∉ x) (y : GoString) :
    splitN b (xs.length + 1) (join (xs ++ [y]) [b]) = xs ++ [y] := by
  induction xs with
  | nil => simp [join, splitN]
  | cons x xs ih =>
    obtain ⟨hx, hxs⟩ := List.forall_mem_cons.mp hxs
    have hjoin : join (x :: (xs ++ [y])) [b] = x ++ b :: join (xs ++ [y]) [b] := by
      unfold join
      rw [List.intercalate_cons_of_ne_nil (by simp), List.append_assoc, List.singleton_append]
    rw [List.cons_append, hjoin, List.length_cons, splitN_append hx, ih hxs]

theorem splitN_spec {b : UInt8} (n : Nat) (s : GoString) :
    join (splitN b (n + 1) s) [b] = s ∧ (∀ x ∈ (splitN b (n + 1) s).dropLast, b ∉ x) ∧
      ((splitN b (n + 1) s).length ≤ n → ∀ x ∈ splitN b (n + 1) s, b ∉ x) := by
  induction n generalizing s with
  | zero => simp [join, splitN]
  | succ n ih =>
    by_cases hb : b ∈ s
    · obtain ⟨x, y, rfl, hx⟩ := List.eq_append_cons_of_mem hb
      obtain ⟨hjoin, hfree, hfew⟩ := ih y
      rw [splitN_append hx]
      refine ⟨?_, ?_, fun hlen => ?_⟩
      · unfold join at *
        rw [List.intercalate_cons_of_ne_nil (splitN_ne_nil n y), hjoin, List.append_assoc,
          List.singleton_append]
      · rw [List.dropLast_cons_of_ne_nil (splitN_ne_nil n y)]
        exact List.forall_mem_cons.mpr ⟨hx, hfree⟩
      · rw [List.length_cons] at hlen
        exact List.forall_mem_cons.mpr ⟨hx, hfew (by omega)⟩
    · rw [splitN_of_not_mem hb]
      refine ⟨by simp [join], by simp, fun _ => ?_⟩
      exact List.forall_mem_singleton.mpr hb

/-! ## Sorting -/

theorem pairwise_sort (xs : List GoString) : (sort xs).Pairwise (· ≤ ·) :=
  List.pairwise_insertionSort (· ≤ ·) xs

theorem sort_perm {xs ys : List GoString} (h : xs.Perm ys) : sort xs = sort ys := by
  have hperm : (sort xs).Perm (sort ys) :=
    (List.perm_insertionSort _ xs).trans (h.trans (List.perm_insertionSort _ ys).symm)
  exact hperm.eq_of_pairwise' (pairwise_sort xs) (pairwise_sort ys)

/-! ## ASCII -/

/-- The lower case of an ASCII letter. -/
def lowerByte (b : UInt8) : UInt8 := if 0x41 ≤ b ∧ b ≤ 0x5A then b + 0x20 else b

/-- `strings.EqualFold` with a `t` of ASCII letters other than `K` and `S`, whose only folds are the
two cases of the letter. -/
def equalFold (s t : GoString) : Bool := s.map lowerByte == t.map lowerByte

theorem encodeRune_lower (U : Unicode) {b : UInt8} (hb : b < 0x80) :
    Utf8.encodeRune (U.toLower b.toNat) = [lowerByte b] := by
  have hn : b.toNat < 0x80 := UInt8.lt_iff_toNat_lt.mp hb
  rw [U.toLower_ascii _ hn]
  unfold lowerByte
  simp only [UInt8.le_iff_toNat_le]
  by_cases h : 0x41 ≤ b.toNat ∧ b.toNat ≤ 0x5A
  · have h' : (0x41 : UInt8).toNat ≤ b.toNat ∧ b.toNat ≤ (0x5A : UInt8).toNat := h
    rw [if_pos h, if_pos h', Utf8.encodeRune, if_pos (by omega)]
    simp [UInt8.ofNat_add]
  · have h' : ¬ ((0x41 : UInt8).toNat ≤ b.toNat ∧ b.toNat ≤ (0x5A : UInt8).toNat) := h
    rw [if_neg h, if_neg h', Utf8.encodeRune, if_pos hn]
    simp

/-- **ASCII text is lowered byte by byte.** -/
theorem toLower_ascii (U : Unicode) {s : GoString} (hs : ∀ b ∈ s, b < 0x80) :
    toLower U s = s.map lowerByte := by
  induction s with
  | nil => rfl
  | cons b s ih =>
    have hb : b < 0x80 := hs b List.mem_cons_self
    rw [toLower, Utf8.runes_ascii_cons hb, List.flatMap_cons, encodeRune_lower U hb]
    exact congrArg (lowerByte b :: ·) (ih fun c hc => hs c (List.mem_cons_of_mem _ hc))

theorem lowerByte_lowerByte (b : UInt8) : lowerByte (lowerByte b) = lowerByte b := by
  by_cases h : 0x41 ≤ b ∧ b ≤ 0x5A
  · have hb : lowerByte b = b + 0x20 := if_pos h
    rw [hb, lowerByte, if_neg]
    intro h'
    have h1 : (b + 0x20).toNat ≤ 0x5A := UInt8.le_iff_toNat_le.mp h'.2
    have h2 : 0x41 ≤ b.toNat := UInt8.le_iff_toNat_le.mp h.1
    have h3 : b.toNat ≤ 0x5A := UInt8.le_iff_toNat_le.mp h.2
    have h4 : (b + 0x20).toNat = (b.toNat + 0x20) % 256 := UInt8.toNat_add b 0x20
    omega
  · have hb : lowerByte b = b := if_neg h
    rw [hb, hb]

/-! ## White space -/

theorem stripPrefixes_eq_self {sp : List GoString} {s : GoString}
    (h : ∀ e ∈ sp, ¬ e <+: s) (n : Nat) : stripPrefixes sp n s = s := by
  cases n with
  | zero => rfl
  | succ n =>
    have hnone : sp.find? (·.isPrefixOf s) = none := by
      rw [List.find?_eq_none]
      intro e he hp
      exact h e he (List.isPrefixOf_iff_prefix.mp hp)
    rw [stripPrefixes, hnone]

theorem trimSpace_eq_self {s : GoString} (h : ∀ e ∈ spaces, ¬ e <+: s ∧ ¬ e <:+ s) :
    trimSpace s = s := by
  have hleft : trimLeft s = s := stripPrefixes_eq_self (fun e he => (h e he).1) _
  have hright : trimRight s = s := by
    unfold trimRight
    rw [stripPrefixes_eq_self, List.reverse_reverse]
    intro r hr hp
    obtain ⟨e, he, rfl⟩ := List.mem_map.mp hr
    exact (h e he).2 (List.reverse_prefix.mp hp)
  rw [trimSpace, hleft, hright]

/-- A byte of no white space. -/
def Printable (b : UInt8) : Prop := 0x21 ≤ b ∧ b < 0x7F

instance : DecidablePred Printable := fun _ => inferInstanceAs (Decidable (_ ∧ _))

theorem exists_not_printable {e : GoString} (he : e ∈ spaces) : ∃ b ∈ e, ¬ Printable b := by
  have hall : ∀ e ∈ spaces, e.any (fun b => decide (¬ Printable b)) = true := by decide
  obtain ⟨b, hb, hnot⟩ := List.any_eq_true.mp (hall e he)
  exact ⟨b, hb, of_decide_eq_true hnot⟩

/-- **Printable text without blanks is not trimmed.** -/
theorem trimSpace_printable {s : GoString} (hs : ∀ b ∈ s, Printable b) : trimSpace s = s := by
  apply trimSpace_eq_self
  intro e he
  obtain ⟨b, hb, hnot⟩ := exists_not_printable he
  exact ⟨fun h => hnot (hs b (h.subset hb)), fun h => hnot (hs b (h.subset hb))⟩

/-! ## White space in lower case -/

/-- The white space runes. -/
def spaceRunes : List Nat :=
  [0x09, 0x0A, 0x0B, 0x0C, 0x0D, 0x20, 0x85, 0xA0, 0x1680, 0x2000, 0x2001, 0x2002, 0x2003, 0x2004,
    0x2005, 0x2006, 0x2007, 0x2008, 0x2009, 0x200A, 0x2028, 0x2029, 0x202F, 0x205F, 0x3000]

theorem toLower_spaceRunes (U : Unicode) : ∀ r ∈ spaceRunes, U.toLower r = r := by
  have hascii : ∀ r ∈ [0x09, 0x0A, 0x0B, 0x0C, 0x0D, 0x20], U.toLower r = r := by
    intro r hr
    have hlt : r < 0x80 ∧ ¬ (0x41 ≤ r ∧ r ≤ 0x5A) := by
      revert r
      decide
    rw [U.toLower_ascii r hlt.1, if_neg hlt.2]
  intro r hr
  rcases List.mem_append.mp (show r ∈ [0x09, 0x0A, 0x0B, 0x0C, 0x0D, 0x20] ++ _ from hr) with h | h
  · exact hascii r h
  · exact U.toLower_space r h

theorem decodeRune_space : ∀ e ∈ spaces, ∀ t, Utf8.decodeRune (e ++ t) = Utf8.decodeRune e := by
  simp only [spaces, List.forall_mem_cons]
  and_intros
  all_goals first | exact fun t => rfl | simp

theorem space_lower (U : Unicode) {e : GoString} (he : e ∈ spaces) :
    ∃ r, Utf8.decodeRune e = (r, e.length) ∧ Utf8.encodeRune (U.toLower r) = e := by
  have htable : ∀ e ∈ spaces, ∃ r ∈ spaceRunes, Utf8.decodeRune e = (r, e.length) ∧
      Utf8.encodeRune r = e := by decide +kernel
  obtain ⟨r, hr, hd, henc⟩ := htable e he
  refine ⟨r, hd, ?_⟩
  rw [toLower_spaceRunes U r hr]
  exact henc

theorem toLower_space_append (U : Unicode) {e : GoString} (he : e ∈ spaces) (t : GoString) :
    toLower U (e ++ t) = e ++ toLower U t := by
  obtain ⟨r, hd, henc⟩ := space_lower U he
  have hne : ∀ e ∈ spaces, e ≠ [] := by decide
  obtain ⟨b, u, rfl⟩ := List.exists_cons_of_ne_nil (hne e he)
  have hrunes : Utf8.runes (b :: u ++ t) = (r, (b :: u).length) :: Utf8.runes t := by
    have hdec := decodeRune_space _ he t
    rw [List.cons_append] at hdec ⊢
    rw [Utf8.runes_cons, hdec, hd]
    congr 2
    rw [← List.cons_append]
    exact List.drop_left
  unfold toLower
  rw [hrunes, List.flatMap_cons, henc]

theorem toLower_append_space (U : Unicode) {e : GoString} (he : e ∈ spaces) (t : GoString) :
    toLower U (t ++ e) = toLower U t ++ e := by
  have htable : ∀ e ∈ spaces, e.head?.any Utf8.isCont = false := by decide
  have hstart : ∀ b ∈ e.head?, Utf8.isCont b = false := by
    intro b hb
    have h := htable e he
    rw [Option.mem_def.mp hb] at h
    exact h
  have hself : toLower U e = e := by
    have h := toLower_space_append U he []
    rw [List.append_nil] at h
    exact h.trans (List.append_nil e)
  have happ : toLower U (t ++ e) = toLower U t ++ toLower U e := by
    unfold toLower
    rw [Utf8.runes_append hstart, List.flatMap_append]
  rw [happ, hself]

/-- **A text is not trimmed if it is printable in lower case**: its lower case would start or end with
the white space it starts or ends with. -/
theorem trimSpace_of_toLower {U : Unicode} {s : GoString} (hs : ∀ b ∈ toLower U s, Printable b) :
    trimSpace s = s := by
  apply trimSpace_eq_self
  intro e he
  obtain ⟨b, hb, hnot⟩ := exists_not_printable he
  constructor
  · rintro ⟨t, rfl⟩
    rw [toLower_space_append U he] at hs
    exact hnot (hs b (List.mem_append_left _ hb))
  · rintro ⟨t, rfl⟩
    rw [toLower_append_space U he] at hs
    exact hnot (hs b (List.mem_append_right _ hb))

end Idryx.Strings
