import Idryx.Go.Search

/-!
# What trimming leaves

* `Blank`: texts of white space; `Solid`: texts that neither start nor end with white space;
* **`trimSpace_eq_iff`**: what is left of a text is the one solid text in it with blanks around;
* `trimSpace_blank_append`, `trimSpace_append_blank`; `Strings.split`, `Strings.cut`, and
  `map_trimSpace_split`: blanks around a text do not reach its trimmed parts.
-/

namespace Idryx.Strings

/-! ## Stripping -/

/-- The text is made of elements of `sp`. -/
def Made (sp : List GoString) (w : GoString) : Prop := ∃ es : List GoString, es ⊆ sp ∧ w = es.flatten

/-- The text starts with no element of `sp`. -/
def StartsNone (sp : List GoString) (s : GoString) : Prop := ∀ e ∈ sp, ¬ e <+: s

theorem stripPrefixes_spec {sp : List GoString} (hne : ∀ e ∈ sp, e ≠ []) : ∀ (n : Nat) (s : GoString),
    s.length ≤ n → ∃ w, Made sp w ∧ s = w ++ stripPrefixes sp n s ∧ StartsNone sp (stripPrefixes sp n s)
  | 0, s, hs => by
    obtain rfl := List.length_eq_zero_iff.mp (Nat.le_zero.mp hs)
    exact ⟨[], ⟨[], List.nil_subset _, rfl⟩, rfl, fun e he hp => hne e he (List.prefix_nil.mp hp)⟩
  | n + 1, s, hs => by
    rw [stripPrefixes]
    cases hf : sp.find? (·.isPrefixOf s) with
    | none =>
      rw [List.find?_eq_none] at hf
      refine ⟨[], ⟨[], List.nil_subset _, rfl⟩, rfl, fun e he hp => ?_⟩
      exact hf e he (List.isPrefixOf_iff_prefix.mpr hp)
    | some e =>
      have he : e ∈ sp := List.mem_of_find?_eq_some hf
      obtain ⟨t, rfl⟩ : e <+: s := List.isPrefixOf_iff_prefix.mp (by simpa using List.find?_some hf)
      have hpos := List.length_pos_of_ne_nil (hne e he)
      rw [List.length_append] at hs
      obtain ⟨w, ⟨es, hes, rfl⟩, ht, hnone⟩ := stripPrefixes_spec hne n t (by omega)
      simp only [List.drop_left]
      refine ⟨e ++ es.flatten, ⟨e :: es, List.cons_subset.mpr ⟨he, hes⟩, rfl⟩, ?_, hnone⟩
      rw [List.append_assoc, ← ht]

/-- **There is one way to strip** elements none of which is a prefix of another. -/
theorem made_append_unique {sp : List GoString}
    (hfree : ∀ e ∈ sp, ∀ e' ∈ sp, e <+: e' → e = e') {t u : GoString} (ht : StartsNone sp t)
    (hu : StartsNone sp u) {v w : GoString} (hv : Made sp v) (hw : Made sp w)
    (h : v ++ t = w ++ u) : v = w ∧ t = u := by
  obtain ⟨es, hes, rfl⟩ := hv
  obtain ⟨fs, hfs, rfl⟩ := hw
  induction es generalizing fs with
  | nil =>
    cases fs with
    | nil => exact ⟨rfl, h⟩
    | cons f fs =>
      refine absurd ?_ (ht f (hfs List.mem_cons_self))
      rw [List.flatten_nil, List.nil_append] at h
      rw [h, List.flatten_cons, List.append_assoc]
      exact List.prefix_append f _
  | cons e es ih =>
    have he : e ∈ sp := hes List.mem_cons_self
    rw [List.flatten_cons, List.append_assoc] at h
    cases fs with
    | nil =>
      refine absurd ?_ (hu e he)
      rw [List.flatten_nil, List.nil_append] at h
      rw [← h]
      exact List.prefix_append e _
    | cons f fs =>
      have hf : f ∈ sp := hfs List.mem_cons_self
      rw [List.flatten_cons, List.append_assoc] at h
      have hef : e = f := by
        have hpe : e <+: f ++ (fs.flatten ++ u) := h ▸ List.prefix_append e _
        rcases List.prefix_or_prefix_of_prefix hpe (List.prefix_append f _) with hp | hp
        · exact hfree e he f hf hp
        · exact (hfree f hf e he hp).symm
      subst hef
      obtain ⟨hflat, htu⟩ := ih (fun x hx => hes (List.mem_cons_of_mem _ hx)) fs
        (fun x hx => hfs (List.mem_cons_of_mem _ hx)) (List.append_cancel_left h)
      exact ⟨by rw [List.flatten_cons, List.flatten_cons, hflat], htu⟩

/-! ## White space -/

/-- A text of white space. -/
def Blank (w : GoString) : Prop := Made spaces w

/-- A text that neither starts nor ends with white space. -/
def Solid (m : GoString) : Prop := ∀ e ∈ spaces, ¬ e <+: m ∧ ¬ e <:+ m

theorem spaces_nonempty : ∀ e ∈ spaces, e ≠ [] := by decide

theorem spaces_free : ∀ e ∈ spaces, ∀ e' ∈ spaces, e <+: e' → e = e' := by decide

theorem spaces_reverse_free : ∀ e ∈ spaces.map List.reverse, ∀ e' ∈ spaces.map List.reverse,
    e <+: e' → e = e' := by decide

theorem blank_nil : Blank [] := ⟨[], List.nil_subset _, rfl⟩

theorem Blank.append {v w : GoString} (hv : Blank v) (hw : Blank w) : Blank (v ++ w) := by
  obtain ⟨es, hes, rfl⟩ := hv
  obtain ⟨fs, hfs, rfl⟩ := hw
  exact ⟨es ++ fs, List.append_subset.mpr ⟨hes, hfs⟩, List.flatten_append.symm⟩

theorem Blank.reverse {w : GoString} (hw : Blank w) : Made (spaces.map List.reverse) w.reverse := by
  obtain ⟨es, hes, rfl⟩ := hw
  refine ⟨(es.map List.reverse).reverse, ?_, List.reverse_flatten⟩
  intro e he
  obtain ⟨f, hf, rfl⟩ := List.mem_map.mp (List.mem_reverse.mp he)
  exact List.mem_map_of_mem (hes hf)

theorem Blank.not_mem {w : GoString} (hw : Blank w) {b : UInt8} (hb : Printable b) : b ∉ w := by
  obtain ⟨es, hes, rfl⟩ := hw
  have htable : ∀ e ∈ spaces, e.all (fun c => ¬ Printable c) = true := by decide
  intro hmem
  obtain ⟨e, he, hbe⟩ := List.mem_flatten.mp hmem
  exact of_decide_eq_true (List.all_eq_true.mp (htable e (hes he)) b hbe) hb

theorem solid_of_printable {m : GoString} (hm : ∀ b ∈ m, Printable b) : Solid m := by
  intro e he
  obtain ⟨b, hb, hnot⟩ := exists_not_printable he
  exact ⟨fun h => hnot (hm b (h.subset hb)), fun h => hnot (hm b (h.subset hb))⟩

theorem startsNone_append {m w : GoString} (hm : Solid m) (hne : m ≠ []) (hw : Blank w) :
    StartsNone spaces (m ++ w) := by
  intro e he hp
  rcases List.prefix_or_prefix_of_prefix hp (List.prefix_append m w) with h | ⟨r, rfl⟩
  · exact (hm e he).1 h
  · -- the rest of the space rune would start a blank with a continuation byte
    obtain ⟨b, m, rfl⟩ := List.exists_cons_of_ne_nil hne
    have hr : r ≠ [] := by
      rintro rfl
      rw [List.append_nil] at he
      exact (hm _ he).1 (List.prefix_refl _)
    obtain ⟨c, r, rfl⟩ := List.exists_cons_of_ne_nil hr
    have htail : ∀ e ∈ spaces, e.tail.all Utf8.isCont = true := by decide
    have hhead : ∀ e ∈ spaces, e.head?.all (fun c => !Utf8.isCont c) = true := by decide
    have hcont : Utf8.isCont c = true := List.all_eq_true.mp (htail _ he) c (by simp)
    obtain ⟨fs, hfs, rfl⟩ := hw
    cases fs with
    | nil =>
      rw [List.prefix_append_right_inj, List.flatten_nil] at hp
      exact List.cons_ne_nil c r (List.prefix_nil.mp hp)
    | cons f fs =>
      obtain ⟨d, f, rfl⟩ := List.exists_cons_of_ne_nil (spaces_nonempty f (hfs List.mem_cons_self))
      have hdc : c = d := by
        rw [List.prefix_append_right_inj, List.flatten_cons, List.cons_append,
          List.cons_prefix_cons] at hp
        exact hp.1
      have hd : (!Utf8.isCont d) = true := hhead _ (hfs List.mem_cons_self)
      rw [Bool.not_eq_true'] at hd
      rw [hdc, hd] at hcont
      cases hcont

/-! ## Trimming -/

theorem trimSpace_spec (s : GoString) :
    ∃ w w', Blank w ∧ Blank w' ∧ s = w ++ trimSpace s ++ w' ∧ Solid (trimSpace s) := by
  have hrev : ∀ e ∈ spaces.map List.reverse, e ≠ [] := by decide
  obtain ⟨w, hw, hs, hleft⟩ := stripPrefixes_spec spaces_nonempty s.length s le_rfl
  have hs' : s = w ++ trimLeft s := hs
  obtain ⟨v, ⟨es, hes, rfl⟩, hr, hright⟩ :=
    stripPrefixes_spec hrev (trimLeft s).length (trimLeft s).reverse (List.length_reverse ..).le
  have hv : Blank es.flatten.reverse := by
    refine ⟨(es.map List.reverse).reverse, ?_, List.reverse_flatten⟩
    intro e he
    obtain ⟨f, hf, rfl⟩ := List.mem_map.mp (List.mem_reverse.mp he)
    obtain ⟨g, hg, rfl⟩ := List.mem_map.mp (hes hf)
    rwa [List.reverse_reverse]
  have hleft' : trimLeft s = trimSpace s ++ es.flatten.reverse := by
    have h := congrArg List.reverse hr
    rw [List.reverse_reverse, List.reverse_append] at h
    exact h
  refine ⟨w, es.flatten.reverse, hw, hv, ?_, fun e he => ⟨fun hp => ?_, fun hp => ?_⟩⟩
  · rw [List.append_assoc, ← hleft']
    exact hs'
  · refine hleft e he ?_
    show e <+: trimLeft s
    rw [hleft']
    exact hp.trans (List.prefix_append _ _)
  · refine hright e.reverse (List.mem_map_of_mem he) ?_
    have h : e.reverse <+: (trimSpace s).reverse := List.reverse_prefix.mpr hp
    rwa [trimSpace, trimRight, List.reverse_reverse] at h

theorem startsNone_of_solid {m : GoString} (hm : Solid m) : StartsNone spaces m := fun e he => (hm e he).1

theorem solid_nil : Solid [] := by
  intro e he
  refine ⟨fun h => spaces_nonempty e he (List.prefix_nil.mp h), fun h => ?_⟩
  exact spaces_nonempty e he (List.suffix_nil.mp h)

/-- **The solid text in a text with blanks around it is unique.** -/
theorem solid_unique {v v' w w' m n : GoString} (hv : Blank v) (hv' : Blank v') (hw : Blank w)
    (hw' : Blank w') (hm : Solid m) (hn : Solid n) (h : v ++ m ++ v' = w ++ n ++ w') : m = n := by
  -- a text of blanks alone has nothing solid in it
  have hempty : ∀ {v v' w w' n : GoString}, Blank v → Blank v' → Blank w → Blank w' → Solid n →
      v ++ [] ++ v' = w ++ n ++ w' → n = [] := by
    intro v v' w w' n hv hv' hw hw' hn h
    by_contra hne
    rw [List.append_nil, List.append_assoc] at h
    have hnil := (made_append_unique spaces_free (startsNone_of_solid solid_nil)
      (startsNone_append hn hne hw') (hv.append hv') hw ((List.append_nil _).trans h)).2
    exact hne (List.append_eq_nil_iff.mp hnil.symm).1
  by_cases hm0 : m = []
  · subst hm0
    exact (hempty hv hv' hw hw' hn h).symm
  by_cases hn0 : n = []
  · subst hn0
    exact hempty hw hw' hv hv' hm h.symm
  rw [List.append_assoc, List.append_assoc] at h
  have hright := (made_append_unique spaces_free (startsNone_append hm hm0 hv')
    (startsNone_append hn hn0 hw') hv hw h).2
  have hrev := congrArg List.reverse hright
  rw [List.reverse_append, List.reverse_append] at hrev
  have hsolid : ∀ {m : GoString}, Solid m → StartsNone (spaces.map List.reverse) m.reverse := by
    intro m hm r hr hp
    obtain ⟨e, he, rfl⟩ := List.mem_map.mp hr
    exact (hm e he).2 (List.reverse_prefix.mp hp)
  have hmn := (made_append_unique spaces_reverse_free (hsolid hm) (hsolid hn) hv'.reverse
    hw'.reverse hrev).2
  exact List.reverse_injective hmn

/-- **Trimming finds the solid text.** -/
theorem trimSpace_eq_iff {s m : GoString} :
    trimSpace s = m ↔ ∃ w w', Blank w ∧ Blank w' ∧ s = w ++ m ++ w' ∧ Solid m := by
  constructor
  · rintro rfl
    exact trimSpace_spec s
  · rintro ⟨w, w', hw, hw', hs, hm⟩
    obtain ⟨v, v', hv, hv', hs', hsolid⟩ := trimSpace_spec s
    exact solid_unique hv hv' hw hw' hsolid hm (hs'.symm.trans hs)

theorem trimSpace_eq_nil_iff {s : GoString} : trimSpace s = [] ↔ Blank s := by
  rw [trimSpace_eq_iff]
  constructor
  · rintro ⟨w, w', hw, hw', rfl, -⟩
    rw [List.append_nil]
    exact hw.append hw'
  · intro hs
    exact ⟨s, [], hs, blank_nil, by simp, solid_nil⟩

theorem trimSpace_blank_append {w : GoString} (hw : Blank w) (s : GoString) :
    trimSpace (w ++ s) = trimSpace s := by
  obtain ⟨v, v', hv, hv', hs, hsolid⟩ := trimSpace_spec s
  refine trimSpace_eq_iff.mpr ⟨w ++ v, v', hw.append hv, hv', ?_, hsolid⟩
  rw [List.append_assoc, List.append_assoc, ← List.append_assoc v, ← hs]

theorem trimSpace_append_blank {w : GoString} (hw : Blank w) (s : GoString) :
    trimSpace (s ++ w) = trimSpace s := by
  obtain ⟨v, v', hv, hv', hs, hsolid⟩ := trimSpace_spec s
  refine trimSpace_eq_iff.mpr ⟨v, v' ++ w, hv, hv'.append hw, ?_, hsolid⟩
  rw [← List.append_assoc, ← hs]

theorem head_trimSpace {b : UInt8} (hb : Printable b) (s : GoString) :
    (trimSpace (b :: s)).head? = some b := by
  obtain ⟨w, w', hw, hw', hs, -⟩ := trimSpace_spec (b :: s)
  cases w with
  | cons c w =>
    obtain ⟨rfl, -⟩ := List.cons.inj hs
    exact absurd List.mem_cons_self (hw.not_mem hb)
  | nil =>
    cases htrim : trimSpace (b :: s) with
    | nil =>
      rw [htrim] at hs
      have hw'' : b :: s = w' := hs
      rw [← hw''] at hw'
      exact absurd List.mem_cons_self (hw'.not_mem hb)
    | cons c m =>
      rw [htrim] at hs
      exact congrArg some (List.cons.inj hs).1.symm

/-! ## Splitting -/

/-- `strings.Split` at one byte. -/
def split (s : GoString) (b : UInt8) : List GoString := s.splitOn b

/-- `strings.Cut` at one byte. -/
def cut (s : GoString) (b : UInt8) : Option (GoString × GoString) :=
  (s.findIdx? (· == b)).map fun i => (s.take i, s.drop (i + 1))

theorem split_of_not_mem {s : GoString} {b : UInt8} (h : b ∉ s) : split s b = [s] :=
  List.splitOn_eq_singleton h

theorem split_append {x : GoString} {b : UInt8} (h : b ∉ x) (y : GoString) :
    split (x ++ b :: y) b = x :: split y b := List.splitOn_append_cons_self_of_not_mem h y

theorem split_join {xs : List GoString} {b : UInt8} (hne : xs ≠ []) (h : ∀ x ∈ xs, b ∉ x) :
    split (join xs [b]) b = xs := List.splitOn_intercalate b h hne

theorem join_split (s : GoString) (b : UInt8) : join (split s b) [b] = s :=
  List.intercalate_splitOn b

theorem mem_join {xs : List GoString} {sep : GoString} {b : UInt8} (h : b ∈ join xs sep) :
    b ∈ sep ∨ ∃ x ∈ xs, b ∈ x := by
  induction xs with
  | nil => cases h
  | cons x xs ih =>
    cases xs with
    | nil => exact Or.inr ⟨x, List.mem_cons_self, by simpa [join] using h⟩
    | cons y xs =>
      rw [join, List.intercalate_cons_cons, List.mem_append, List.mem_append] at h
      rcases h with (h | h) | h
      · exact Or.inr ⟨x, List.mem_cons_self, h⟩
      · exact Or.inl h
      · rcases ih h with h | ⟨z, hz, hb⟩
        · exact Or.inl h
        · exact Or.inr ⟨z, List.mem_cons_of_mem x hz, hb⟩

theorem cut_eq_none {s : GoString} {b : UInt8} : cut s b = none ↔ b ∉ s := by
  rw [cut, Option.map_eq_none_iff, List.findIdx?_eq_none_iff]
  constructor
  · intro h hb
    exact Bool.noConfusion ((beq_self_eq_true b).symm.trans (h b hb))
  · intro h c hc
    exact beq_eq_false_iff_ne.mpr fun hcb => h (hcb ▸ hc)

theorem cut_append {x : GoString} {b : UInt8} (h : b ∉ x) (y : GoString) :
    cut (x ++ b :: y) b = some (x, y) := by
  have hno : x.findIdx? (· == b) = none := by
    rw [← Option.map_eq_none_iff (f := fun i => (x.take i, x.drop (i + 1)))]
    exact cut_eq_none.mpr h
  rw [cut, List.findIdx?_append, hno, List.findIdx?_cons, if_pos (beq_self_eq_true b)]
  simp

theorem exists_cut {s : GoString} {b : UInt8} (h : b ∈ s) :
    ∃ x y, s = x ++ b :: y ∧ b ∉ x ∧ cut s b = some (x, y) := by
  obtain ⟨x, y, rfl, hx⟩ := List.eq_append_cons_of_mem h
  exact ⟨x, y, rfl, hx, cut_append hx y⟩

theorem map_trimSpace_split {b : UInt8} (hb : Printable b) {w w' : GoString} (hw : Blank w)
    (hw' : Blank w') (s : GoString) :
    (split (w ++ s ++ w') b).map trimSpace = (split s b).map trimSpace := by
  have hbehind : ∀ (n : ℕ) (s : GoString), s.length ≤ n →
      (split (s ++ w') b).map trimSpace = (split s b).map trimSpace := by
    intro n
    induction n with
    | zero =>
      intro s hs
      obtain rfl := List.length_eq_zero_iff.mp (Nat.le_zero.mp hs)
      rw [List.nil_append, split_of_not_mem (hw'.not_mem hb), split_of_not_mem List.not_mem_nil,
        List.map_singleton, List.map_singleton, trimSpace_eq_nil_iff.mpr hw']
      rfl
    | succ n ih =>
      intro s hs
      by_cases hmem : b ∈ s
      · obtain ⟨x, y, rfl, hx⟩ := List.eq_append_cons_of_mem hmem
        rw [List.length_append, List.length_cons] at hs
        rw [List.append_assoc, List.cons_append, split_append hx, split_append hx, List.map_cons,
          List.map_cons, ih y (by omega)]
      · have hno : b ∉ s ++ w' := fun h =>
          (List.mem_append.mp h).elim hmem (hw'.not_mem hb)
        rw [split_of_not_mem hno, split_of_not_mem hmem, List.map_singleton, List.map_singleton,
          trimSpace_append_blank hw']
  have hbefore : (split (w ++ s) b).map trimSpace = (split s b).map trimSpace := by
    by_cases hmem : b ∈ s
    · obtain ⟨x, y, rfl, hx⟩ := List.eq_append_cons_of_mem hmem
      have hno : b ∉ w ++ x := fun h => (List.mem_append.mp h).elim (hw.not_mem hb) hx
      rw [← List.append_assoc, split_append hno, split_append hx, List.map_cons, List.map_cons,
        trimSpace_blank_append hw]
    · have hno : b ∉ w ++ s := fun h => (List.mem_append.mp h).elim (hw.not_mem hb) hmem
      rw [split_of_not_mem hno, split_of_not_mem hmem, List.map_singleton, List.map_singleton,
        trimSpace_blank_append hw]
  rw [hbehind _ _ le_rfl, hbefore]

end Idryx.Strings
