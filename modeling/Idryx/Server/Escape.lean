import Idryx.Go.Strings
import Idryx.Lib.Markup

/-!
# The escapers of the dashboard

`esc` and `escJS` of the script in `internal/server/dashboard.go`, over UTF-16 code units, and the row of an
identity, which has its id twice: in its text, and in a string literal in an attribute.

* `esc`, `escJS`, `onclick`; `attributeValue`, `selected`: what the page makes of the attribute;
* `Escaped`: alphanumerics and escapes; `escaped_escJS`, **`literal_escJS`**: the literal is the id;
* `mem_esc`, `amp_esc`, **`decode_esc`**: so is the text;
* **`escape_lossless`**.
-/

namespace Idryx.Server

open Markup

/-- `toString(16)`. -/
def toString16 (n : ℕ) : Text := (Nat.toDigits 16 n).map fun c => UInt16.ofNat c.toNat

/-- `padStart`, with zeros. -/
def padStart (w : ℕ) (s : Text) : Text := List.replicate (w - s.length) 0x30 ++ s

/-- What `esc` replaces a code unit by. -/
def escUnit (c : UInt16) : Text :=
  if c = 0x26 then units "&amp;" else if c = 0x3C then units "&lt;" else if c = 0x3E then units "&gt;"
  else if c = 0x22 then units "&quot;" else if c = 0x27 then units "&#39;" else [c]

/-- `esc`. -/
def esc (s : Text) : Text := s.flatMap escUnit

/-- What `escJS` replaces a code unit by. -/
def escJSUnit (c : UInt16) : Text :=
  if isAlnum c then [c]
  else if c.toNat < 256 then units "\\x" ++ padStart 2 (toString16 c.toNat)
  else units "\\u" ++ padStart 4 (toString16 c.toNat)

/-- `escJS`. -/
def escJS (s : Text) : Text := s.flatMap escJSUnit

/-- The handler in the row of an identity. -/
def onclick (id : Text) : Text := units "selectIdentity('" ++ escJS id ++ units "')"

/-- The value of an attribute, read from its first quote on, and what stands behind its last. -/
def attributeValue (E : Entities) (s : Text) : Text × Text :=
  (E.decode true (s.takeWhile (· != 0x22)), (s.dropWhile (· != 0x22)).tail)

/-- The id a handler selects; `none` if it is anything but one call with one literal. -/
def selected (handler : Text) : Option Text :=
  if (units "selectIdentity('").isPrefixOf handler then
    match literal 0x27 (handler.drop (units "selectIdentity('").length) with
    | some (id, rest) => if rest = units ")" then some id else none
    | none => none
  else none

/-! ## Digits -/

/-- A digit as it is written. -/
def hexUnit (d : ℕ) : UInt16 := UInt16.ofNat (Nat.digitChar d).toNat

theorem hexDigit_hexUnit : ∀ d < 16, hexDigit (hexUnit d) = some d := by decide

theorem padStart_two : ∀ n < 256, padStart 2 (toString16 n) = [hexUnit (n / 16), hexUnit (n % 16)] := by
  decide +kernel

theorem toString16_eq {n : ℕ} (h : 16 ≤ n) : toString16 n = toString16 (n / 16) ++ [hexUnit (n % 16)] := by
  rw [toString16, Nat.toDigits_of_base_le (by decide) h, List.map_append]
  rfl

theorem padStart_append (w : ℕ) (s t : Text) : padStart (w + t.length) (s ++ t) = padStart w s ++ t := by
  rw [padStart, padStart, List.length_append, List.append_assoc, Nat.add_sub_add_right]

theorem padStart_four {n : ℕ} (hlow : 256 ≤ n) (hhigh : n < 65536) : padStart 4 (toString16 n) =
    [hexUnit (n / 4096), hexUnit (n / 256 % 16), hexUnit (n / 16 % 16), hexUnit (n % 16)] := by
  have hdiv : n / 16 / 16 = n / 256 := Nat.div_div_eq_div_mul n 16 16
  have hdiv' : n / 256 / 16 = n / 4096 := Nat.div_div_eq_div_mul n 256 16
  have hsplit : toString16 n = toString16 (n / 256) ++ [hexUnit (n / 16 % 16), hexUnit (n % 16)] := by
    rw [toString16_eq (by omega), toString16_eq (by omega), hdiv, List.append_assoc]
    rfl
  have hpad := padStart_append 2 (toString16 (n / 256)) [hexUnit (n / 16 % 16), hexUnit (n % 16)]
  rw [hsplit]
  refine hpad.trans ?_
  rw [padStart_two _ (by omega), hdiv']
  rfl

/-! ## The literal -/

/-- ASCII letters, digits, and escapes of two or of four hexadecimal digits. -/
inductive Escaped : Text → Prop
  | nil : Escaped []
  | alnum {c : UInt16} {s : Text} (hc : isAlnum c = true) (hs : Escaped s) : Escaped (c :: s)
  | x {a b : UInt16} {s : Text} (ha : (hexDigit a).isSome) (hb : (hexDigit b).isSome) (hs : Escaped s) :
      Escaped (0x5C :: 0x78 :: a :: b :: s)
  | u {a b c d : UInt16} {s : Text} (ha : (hexDigit a).isSome) (hb : (hexDigit b).isSome)
      (hc : (hexDigit c).isSome) (hd : (hexDigit d).isSome) (hs : Escaped s) :
      Escaped (0x5C :: 0x75 :: a :: b :: c :: d :: s)

theorem escJSUnit_cases (c : UInt16) :
    (isAlnum c = true ∧ escJSUnit c = [c]) ∨
    (∃ x < 16, ∃ y < 16, escJSUnit c = [0x5C, 0x78, hexUnit x, hexUnit y] ∧ c = UInt16.ofNat (16 * x + y)) ∨
    ∃ x < 16, ∃ y < 16, ∃ z < 16, ∃ w < 16,
      escJSUnit c = [0x5C, 0x75, hexUnit x, hexUnit y, hexUnit z, hexUnit w] ∧
        c = UInt16.ofNat (4096 * x + 256 * y + 16 * z + w) := by
  have hlt : c.toNat < 65536 := c.toNat_lt
  unfold escJSUnit
  split_ifs with halnum hbyte
  · exact Or.inl ⟨halnum, rfl⟩
  · have hvalue : 16 * (c.toNat / 16) + c.toNat % 16 = c.toNat := Nat.div_add_mod _ _
    refine Or.inr (Or.inl ⟨c.toNat / 16, by omega, c.toNat % 16, by omega, ?_, ?_⟩)
    · rw [padStart_two _ hbyte]
      rfl
    · rw [hvalue, UInt16.ofNat_toNat]
  · have hvalue : 4096 * (c.toNat / 4096) + 256 * (c.toNat / 256 % 16) + 16 * (c.toNat / 16 % 16) +
        c.toNat % 16 = c.toNat := by omega
    refine Or.inr (Or.inr ⟨c.toNat / 4096, by omega, c.toNat / 256 % 16, by omega, c.toNat / 16 % 16,
      by omega, c.toNat % 16, by omega, ?_, ?_⟩)
    · rw [padStart_four (by omega) hlt]
      rfl
    · rw [hvalue, UInt16.ofNat_toNat]

/-- **What `escJS` writes** is alphanumerics and escapes. -/
theorem escaped_escJS (s : Text) : Escaped (escJS s) := by
  have hdigit : ∀ {d}, d < 16 → (hexDigit (hexUnit d)).isSome := fun hd => by
    rw [hexDigit_hexUnit _ hd]
    rfl
  induction s with
  | nil => exact .nil
  | cons c s ih =>
    have hcons : escJS (c :: s) = escJSUnit c ++ escJS s := List.flatMap_cons
    rw [hcons]
    rcases escJSUnit_cases c with ⟨hc, h⟩ | ⟨x, hx, y, hy, h, -⟩ | ⟨x, hx, y, hy, z, hz, w, hw, h, -⟩
    · rw [h]
      exact .alnum hc ih
    · rw [h]
      exact .x (hdigit hx) (hdigit hy) ih
    · rw [h]
      exact .u (hdigit hx) (hdigit hy) (hdigit hz) (hdigit hw) ih

theorem isAlnum_of_hexDigit {c : UInt16} (h : (hexDigit c).isSome) : isAlnum c = true := by
  unfold hexDigit at h
  simp only [isAlnum, isDigit, isLetter, Bool.or_eq_true, Bool.and_eq_true, decide_eq_true_eq]
  split_ifs at h with hdigit hlower hupper
  · exact Or.inl hdigit
  · exact Or.inr (Or.inr ⟨hlower.1, UInt16.le_trans hlower.2 (by decide)⟩)
  · exact Or.inr (Or.inl ⟨hupper.1, UInt16.le_trans hupper.2 (by decide)⟩)
  · cases h

theorem mem_escaped {s : Text} (h : Escaped s) : ∀ c ∈ s, c = 0x5C ∨ isAlnum c = true := by
  induction h with
  | nil => exact fun _ hc => absurd hc List.not_mem_nil
  | alnum hc _ ih => exact List.forall_mem_cons.mpr ⟨Or.inr hc, ih⟩
  | x ha hb _ ih =>
    simp only [List.forall_mem_cons]
    exact ⟨Or.inl trivial, Or.inr (by decide), Or.inr (isAlnum_of_hexDigit ha),
      Or.inr (isAlnum_of_hexDigit hb), ih⟩
  | u ha hb hc hd _ ih =>
    simp only [List.forall_mem_cons]
    exact ⟨Or.inl trivial, Or.inr (by decide), Or.inr (isAlnum_of_hexDigit ha),
      Or.inr (isAlnum_of_hexDigit hb), Or.inr (isAlnum_of_hexDigit hc),
      Or.inr (isAlnum_of_hexDigit hd), ih⟩

theorem not_mem_escJS {c : UInt16} (hslash : c ≠ 0x5C) (halnum : isAlnum c = false) (s : Text) :
    c ∉ escJS s := by
  intro hc
  rcases mem_escaped (escaped_escJS s) c hc with h | h
  · exact hslash h
  · rw [halnum] at h
    cases h

/-- **The literal is the id**, and ends where it is closed. -/
theorem literal_escJS (s rest : Text) : literal 0x27 (escJS s ++ 0x27 :: rest) = some (s, rest) := by
  induction s with
  | nil => exact literal_quote rest
  | cons c s ih =>
    have hcons : escJS (c :: s) ++ 0x27 :: rest = escJSUnit c ++ (escJS s ++ 0x27 :: rest) := by
      rw [← List.append_assoc]
      rfl
    rw [hcons]
    rcases escJSUnit_cases c with ⟨hc, h⟩ | ⟨x, hx, y, hy, h, hvalue⟩ |
      ⟨x, hx, y, hy, z, hz, w, hw, h, hvalue⟩
    · have hplain : ∀ d : UInt16, isAlnum d = false → c ≠ d := by
        rintro d hd rfl
        rw [hc] at hd
        cases hd
      rw [h, List.singleton_append, literal_plain (hplain _ (by decide))
        ⟨hplain _ (by decide), hplain _ (by decide)⟩ (hplain _ (by decide)), ih]
      rfl
    · have hesc := escapeSequence_x (hexDigit_hexUnit x hx) (hexDigit_hexUnit y hy)
        (escJS s ++ 0x27 :: rest)
      rw [h]
      refine (literal_escape (by decide) hesc).trans ?_
      rw [ih, ← hvalue]
      rfl
    · have hesc := escapeSequence_u (hexDigit_hexUnit x hx) (hexDigit_hexUnit y hy)
        (hexDigit_hexUnit z hz) (hexDigit_hexUnit w hw) (escJS s ++ 0x27 :: rest)
      rw [h]
      refine (literal_escape (by decide) hesc).trans ?_
      rw [ih, ← hvalue]
      rfl

/-! ## The text -/

/-- The five entities, without their ampersand. -/
def entities : List Text := [units "amp;", units "lt;", units "gt;", units "quot;", units "#39;"]

theorem escUnit_cases (c : UInt16) :
    (∃ e ∈ entities, escUnit c = 0x26 :: e) ∨
      escUnit c = [c] ∧ c ≠ 0x26 ∧ c ≠ 0x3C ∧ c ≠ 0x3E ∧ c ≠ 0x22 ∧ c ≠ 0x27 := by
  unfold escUnit
  split_ifs with hamp hlt hgt hquot hapos
  · exact Or.inl ⟨units "amp;", by decide, by decide⟩
  · exact Or.inl ⟨units "lt;", by decide, by decide⟩
  · exact Or.inl ⟨units "gt;", by decide, by decide⟩
  · exact Or.inl ⟨units "quot;", by decide, by decide⟩
  · exact Or.inl ⟨units "#39;", by decide, by decide⟩
  · exact Or.inr ⟨rfl, hamp, hlt, hgt, hquot, hapos⟩

theorem esc_cons (c : UInt16) (s : Text) : esc (c :: s) = escUnit c ++ esc s := List.flatMap_cons

/-- **No markup comes through.** -/
theorem mem_esc {s : Text} {c : UInt16} (hc : c ∈ esc s) : c ≠ 0x3C ∧ c ≠ 0x3E ∧ c ≠ 0x22 ∧ c ≠ 0x27 := by
  have htable : ∀ e ∈ entities, (0x26 :: e).all (fun d => d ≠ 0x3C ∧ d ≠ 0x3E ∧ d ≠ 0x22 ∧ d ≠ 0x27) = true := by
    decide
  obtain ⟨b, -, hb⟩ := List.mem_flatMap.mp hc
  rcases escUnit_cases b with ⟨e, he, h⟩ | ⟨h, -, hlt, hgt, hquot, hapos⟩
  · rw [h] at hb
    exact of_decide_eq_true (List.all_eq_true.mp (htable e he) c hb)
  · rw [h, List.mem_singleton] at hb
    subst hb
    exact ⟨hlt, hgt, hquot, hapos⟩

/-- **An ampersand starts an entity.** -/
theorem amp_esc {s x y : Text} (h : esc s = x ++ 0x26 :: y) : ∃ e ∈ entities, e <+: y := by
  induction s generalizing x with
  | nil => simp [esc] at h
  | cons c s ih =>
    rw [esc_cons] at h
    rcases List.append_eq_append_iff.mp h with ⟨x', -, h'⟩ | ⟨t, hpiece, h'⟩
    · exact ih h'
    · cases t with
      | nil => exact ih (x := []) h'.symm
      | cons d t =>
        obtain ⟨rfl, rfl⟩ := List.cons.inj h'
        have hhead : ∀ e ∈ entities, (0x26 : UInt16) ∉ e := by decide
        rcases escUnit_cases c with ⟨e, he, hc⟩ | ⟨hc, hamp, -⟩
        · rw [hc] at hpiece
          cases x with
          | nil =>
            obtain ⟨-, rfl⟩ := List.cons.inj hpiece
            exact ⟨e, he, List.prefix_append e _⟩
          | cons b x =>
            obtain ⟨-, rfl⟩ := List.cons.inj hpiece
            exact absurd (List.mem_append_right x List.mem_cons_self) (hhead _ he)
        · have hmem : (0x26 : UInt16) ∈ escUnit c := hpiece ▸ List.mem_append_right x List.mem_cons_self
          rw [hc, List.mem_singleton] at hmem
          exact absurd hmem.symm hamp

/-- **The text is the id**, in an attribute or not. -/
theorem decode_esc (E : Entities) (inAttr : Bool) (s : Text) : E.decode inAttr (esc s) = s := by
  have hnamed : ∀ (name value t : Text), (name ++ [0x3B], value) ∈ E.named → (∀ u, name ≠ 0x23 :: u) →
      E.decode inAttr (0x26 :: (name ++ [0x3B]) ++ t) = value ++ E.decode inAttr t := by
    intro name value t hrow hname
    rw [← Entities.decode_named hrow hname, List.cons_append, ← List.append_cons]
  induction s with
  | nil => rfl
  | cons c s ih =>
    rw [esc_cons]
    unfold escUnit
    split_ifs with hamp hlt hgt hquot hapos
    · refine (hnamed (units "amp") (units "&") (esc s) (E.basic _ (by decide)) (by simp [units])).trans ?_
      rw [ih, hamp]
      rfl
    · refine (hnamed (units "lt") (units "<") (esc s) (E.basic _ (by decide)) (by simp [units])).trans ?_
      rw [ih, hlt]
      rfl
    · refine (hnamed (units "gt") (units ">") (esc s) (E.basic _ (by decide)) (by simp [units])).trans ?_
      rw [ih, hgt]
      rfl
    · refine (hnamed (units "quot") (units "\"") (esc s) (E.basic _ (by decide)) (by simp [units])).trans ?_
      rw [ih, hquot]
      rfl
    · refine (Entities.decode_numeric (E := E) (s := esc s) (List.cons_ne_nil 0x33 [0x39])
        (forall_mem_of_all (by decide))).trans ?_
      have hvalue : numeral 10 [0x33, 0x39] = 39 := by decide
      rw [ih, hapos, hvalue, E.ascii 39 (by decide) (by decide)]
      rfl
    · rw [List.singleton_append, Entities.decode_cons hamp, ih]

/-! ## The row of an identity -/

/-- **The handler selects the id** it was written for, and the attribute ends where it is closed. -/
theorem selected_onclick (E : Entities) (id rest : Text) :
    attributeValue E (onclick id ++ 0x22 :: rest) = (onclick id, rest) ∧ selected (onclick id) = some id := by
  have hmem : ∀ c : UInt16, c ≠ 0x5C → isAlnum c = false → c ∉ units "selectIdentity('" →
      c ∉ units "')" → c ∉ onclick id := by
    intro c hslash halnum hfront hback hc
    rcases List.mem_append.mp hc with hc | hc
    · rcases List.mem_append.mp hc with hc | hc
      · exact hfront hc
      · exact not_mem_escJS hslash halnum id hc
    · exact hback hc
  have hquote : (0x22 : UInt16) ∉ onclick id := hmem _ (by decide) (by decide) (by decide) (by decide)
  have hamp : (0x26 : UInt16) ∉ onclick id := hmem _ (by decide) (by decide) (by decide) (by decide)
  have hall : ∀ c ∈ onclick id, (c != 0x22) = true := by
    intro c hc
    rw [bne_iff_ne]
    rintro rfl
    exact hquote hc
  constructor
  · rw [attributeValue, List.takeWhile_append_of_pos hall, List.dropWhile_append_of_pos hall,
      List.takeWhile_cons_of_neg (by decide), List.dropWhile_cons_of_neg (by decide), List.append_nil,
      Entities.decode_plain hamp]
    rfl
  · have hpre : (units "selectIdentity('").isPrefixOf (onclick id) = true := by
      rw [List.isPrefixOf_iff_prefix, onclick, List.append_assoc]
      exact List.prefix_append _ _
    have hbody : (onclick id).drop (units "selectIdentity('").length = escJS id ++ 0x27 :: units ")" := by
      rw [onclick, List.append_assoc, List.drop_left]
      rfl
    rw [selected, if_pos hpre, hbody, literal_escJS]
    rfl

/-- The five entities alone. -/
def Entities.five : Entities where
  named := [(units "amp;", units "&"), (units "lt;", units "<"), (units "gt;", units ">"),
    (units "quot;", units "\"")]
  numeric n := [UInt16.ofNat n]
  nodup := by decide
  semicolon := by decide
  basic _ h := h
  ascii _ _ _ := rfl

/-- **The escapers are safe and lossless**: what `escJS` writes is alphanumerics and escapes, and as a
literal in an attribute it is the id and nothing more; what `esc` writes has no markup but entities, and as
text it is the id; so the row of an identity selects the id it shows. -/
theorem escape_lossless (E : Entities) :
    (∀ s, Escaped (escJS s) ∧ ∀ rest,
      literal 0x27 (E.decode true (escJS s) ++ 0x27 :: rest) = some (s, rest)) ∧
    (∀ s, (∀ c ∈ esc s, c ≠ 0x3C ∧ c ≠ 0x3E ∧ c ≠ 0x22 ∧ c ≠ 0x27) ∧
      (∀ x y, esc s = x ++ 0x26 :: y → ∃ e ∈ entities, e <+: y) ∧
      ∀ inAttr, E.decode inAttr (esc s) = s) ∧
    ∀ id rest, ∃ handler, attributeValue E (onclick id ++ 0x22 :: rest) = (handler, rest) ∧
      selected handler = some (E.decode false (esc id)) := by
  refine ⟨fun s => ⟨escaped_escJS s, fun rest => ?_⟩,
    fun s => ⟨fun c hc => mem_esc hc, fun x y h => amp_esc h, fun inAttr => decode_esc E inAttr s⟩,
    fun id rest => ⟨onclick id, (selected_onclick E id rest).1, ?_⟩⟩
  · rw [Entities.decode_plain (not_mem_escJS (by decide) (by decide) s), literal_escJS]
  · rw [decode_esc]
    exact (selected_onclick E id rest).2

end Idryx.Server
