import Mathlib.Algebra.GroupWithZero.Nat
import Mathlib.Data.List.Forall2
import Mathlib.Data.List.Infix

/-!
# Literals in lines

Texts that are printed between quotes into a text of lines, and what a reader makes of them.

* `Literals`: how a literal is written; `Reads`: a literal as it is read, and what follows it;
* **`reads_self_iff`**: a text printed between quotes is read as itself exactly if it is `Plain`;
* `Line`: a line of a template, with the texts printed into it;
* `lines`: a text, cut at every character that ends a line; **`forall₂_reads_iff`**: the printed lines are read as
  the lines of the template exactly if each of them is.
-/

namespace Idryx.Quoted

variable {α : Type*}

/-- How literals are written: the quote, what starts an escape, the characters that end a line, of which one is
printed, and texts that open something other than text. An escape is lighter than what it is written with, by some
weights. -/
structure Literals (α : Type*) where
  quote : α
  escape : α
  newline : α
  breaks : List α
  openers : List (List α)
  unescape : List α → Option (List α × List α)
  weight : α → ℕ
  quote_ne_escape : quote ≠ escape
  newline_mem : newline ∈ breaks
  openers_ne_nil : ∀ m ∈ openers, m ≠ []
  quote_notMem : ∀ m ∈ openers, quote ∉ m
  lighter : ∀ {s w rest}, unescape s = some (w, rest) →
    (w.map weight).sum + (rest.map weight).sum < weight escape + (s.map weight).sum

/-- What stands behind the opening quote is read as a value, up to the rest behind the closing one. -/
inductive Reads (L : Literals α) : List α → List α → List α → Prop
  | close (rest : List α) : Reads L (L.quote :: rest) [] rest
  | char {c : α} {s value rest : List α} (hquote : c ≠ L.quote) (hescape : c ≠ L.escape)
      (hbreak : c ∉ L.breaks) (hopeners : ∀ m ∈ L.openers, ¬ m <+: c :: s) (h : Reads L s value rest) :
      Reads L (c :: s) (c :: value) rest
  | escaped {s w s' value rest : List α} (hw : L.unescape s = some (w, s')) (h : Reads L s' value rest) :
      Reads L (L.escape :: s) (w ++ value) rest

/-- A text without anything that has a meaning in a literal. -/
def Plain (L : Literals α) (s : List α) : Prop :=
  L.quote ∉ s ∧ L.escape ∉ s ∧ (∀ b ∈ L.breaks, b ∉ s) ∧ ∀ m ∈ L.openers, ¬ m <:+: s

variable {L : Literals α}

theorem plain_nil : Plain L [] :=
  ⟨List.not_mem_nil, List.not_mem_nil, fun _ _ => List.not_mem_nil, fun m hm h =>
    L.openers_ne_nil m hm (List.infix_nil.mp h)⟩

theorem plain_cons {c : α} {s : List α} : Plain L (c :: s) ↔ (c ≠ L.quote ∧ c ≠ L.escape ∧ c ∉ L.breaks ∧
    ∀ m ∈ L.openers, ¬ m <+: c :: s) ∧ Plain L s := by
  simp only [Plain, List.mem_cons, not_or, List.infix_cons_iff, ne_comm (a := c)]
  constructor
  · rintro ⟨⟨hq, hqs⟩, ⟨he, hes⟩, hb, hm⟩
    exact ⟨⟨hq, he, fun hc => (hb c hc).1 rfl, fun m h => (hm m h).1⟩, hqs, hes, fun b h => (hb b h).2,
      fun m h => (hm m h).2⟩
  · rintro ⟨⟨hq, he, hc, hp⟩, hqs, hes, hbs, hm⟩
    exact ⟨⟨hq, hqs⟩, ⟨he, hes⟩, fun b h => ⟨fun heq => hc (heq ▸ h), hbs b h⟩, fun m h => ⟨hp m h, hm m h⟩⟩

theorem isPrefix_of_isPrefix_append {m s rest : List α} (hm : m ∈ L.openers) (h : m <+: s ++ L.quote :: rest) :
    m <+: s := by
  have hs : s ++ [L.quote] <+: s ++ L.quote :: rest := ⟨rest, by rw [List.append_assoc, List.singleton_append]⟩
  rcases List.prefix_or_prefix_of_prefix h hs with hp | hp
  · rcases List.prefix_concat_iff.mp hp with rfl | hp
    · exact absurd (List.mem_append_right s (List.mem_singleton_self _)) (L.quote_notMem _ hm)
    · exact hp
  · exact absurd (hp.subset (List.mem_append_right s (List.mem_singleton_self _))) (L.quote_notMem m hm)

/-- **A literal is heavier than its value**, unless it is its value in quotes. -/
theorem Reads.lighter_or {s value rest : List α} (h : Reads L s value rest) :
    (value.map L.weight).sum + L.weight L.quote + (rest.map L.weight).sum < (s.map L.weight).sum ∨
      s = value ++ L.quote :: rest ∧ Plain L value := by
  induction h with
  | close rest => exact Or.inr ⟨rfl, plain_nil⟩
  | @char c s value rest hquote hescape hbreak hopeners h ih =>
    rcases ih with hlt | ⟨rfl, hplain⟩
    · left
      simp only [List.map_cons, List.sum_cons]
      omega
    · refine Or.inr ⟨rfl, plain_cons.mpr ⟨⟨hquote, hescape, hbreak, fun m hm hp => ?_⟩, hplain⟩⟩
      exact hopeners m hm (hp.trans (List.prefix_append (c :: value) _))
  | @escaped s w s' value rest hw h ih =>
    have hlighter := L.lighter hw
    have hle : (value.map L.weight).sum + L.weight L.quote + (rest.map L.weight).sum ≤ (s'.map L.weight).sum := by
      rcases ih with hlt | ⟨rfl, -⟩
      · exact Nat.le_of_lt hlt
      · simp only [List.map_append, List.sum_append, List.map_cons, List.sum_cons]
        omega
    left
    simp only [List.map_append, List.sum_append, List.map_cons, List.sum_cons]
    omega

/-- **A text in quotes is read as itself** exactly if it is plain. -/
theorem reads_self_iff {value rest : List α} : Reads L (value ++ L.quote :: rest) value rest ↔ Plain L value := by
  constructor
  · intro h
    rcases h.lighter_or with hlt | ⟨-, hplain⟩
    · simp only [List.map_append, List.sum_append, List.map_cons, List.sum_cons] at hlt
      omega
    · exact hplain
  · intro h
    induction value with
    | nil => exact Reads.close rest
    | cons c value ih =>
      obtain ⟨⟨hquote, hescape, hbreak, hopeners⟩, hplain⟩ := plain_cons.mp h
      refine Reads.char hquote hescape hbreak (fun m hm hp => hopeners m hm ?_) (ih hplain)
      exact isPrefix_of_isPrefix_append hm hp

theorem Reads.isPrefix {u s value rest : List α} (hu : ∀ c ∈ u, c ≠ L.quote ∧ c ≠ L.escape)
    (h : Reads L (u ++ s) value rest) : u <+: value := by
  induction u generalizing value with
  | nil => exact List.nil_prefix
  | cons c u ih =>
    rw [List.forall_mem_cons] at hu
    rw [List.cons_append] at h
    generalize htext : c :: (u ++ s) = text at h
    cases h with
    | close rest => exact absurd (List.cons.inj htext).1 hu.1.1
    | char hquote hescape hbreak hopeners h =>
      obtain ⟨rfl, rfl⟩ := List.cons.inj htext
      exact (List.prefix_cons_inj c).mpr (ih hu.2 h)
    | escaped hw h => exact absurd (List.cons.inj htext).1 hu.1.2

/-! ## Lines -/

/-- A line of a template: a text, or one with a literal that is to be read as a value. -/
inductive Line (α : Type*) where
  | text (t : List α)
  | quoted (before printed after value : List α)

namespace Line

/-- The line with its text printed between the quotes. -/
def print (quote : α) : Line α → List α
  | text t => t
  | quoted before printed after _ => before ++ quote :: (printed ++ quote :: after)

/-- A line is read as one of the template: the same text, or the value in its place. -/
def Reads (L : Literals α) : Line α → List α → Prop
  | text t, s => s = t
  | quoted before _ after value, s => ∃ literal, s = before ++ L.quote :: literal ∧ Quoted.Reads L literal value after

/-- The line is printed as one line, and its text is read as the value. -/
def Clean (L : Literals α) : Line α → Prop
  | text t => ∀ b ∈ L.breaks, b ∉ t
  | quoted before printed after value => (∀ b ∈ L.breaks, b ∉ before ++ L.quote :: (printed ++ L.quote :: after)) ∧
      Quoted.Reads L (printed ++ L.quote :: after) value after

theorem clean_iff {l : Line α} :
    l.Clean L ↔ (∀ b ∈ L.breaks, b ∉ l.print L.quote) ∧ l.Reads L (l.print L.quote) := by
  cases l with
  | text t => exact (and_iff_left rfl).symm
  | quoted before printed after value =>
    refine and_congr_right fun _ => ?_
    constructor
    · exact fun h => ⟨_, rfl, h⟩
    · rintro ⟨literal, heq, h⟩
      rw [print, List.append_cancel_left_eq, List.cons.injEq] at heq
      exact heq.2 ▸ h

theorem clean_quoted_iff (hquote : L.quote ∉ L.breaks) {before after value : List α}
    (hbefore : ∀ b ∈ L.breaks, b ∉ before) (hafter : ∀ b ∈ L.breaks, b ∉ after) :
    (quoted before value after value).Clean L ↔ Plain L value := by
  rw [Clean, reads_self_iff]
  constructor
  · exact And.right
  · intro h
    refine ⟨fun b hb => ?_, h⟩
    have hne : b ≠ L.quote := fun heq => hquote (heq ▸ hb)
    simp only [List.mem_append, List.mem_cons, not_or]
    exact ⟨hbefore b hb, hne, h.2.2.1 b hb, hne, hafter b hb⟩

end Line

section Lines

variable [DecidableEq α]

/-- The lines of a text, which is cut at every character that ends one. -/
def lines (L : Literals α) (s : List α) : List (List α) := s.splitOnP fun c => decide (c ∈ L.breaks)

theorem lines_cons (c : α) (s : List α) : lines L (c :: s) =
    if c ∈ L.breaks then [] :: lines L s else (lines L s).modifyHead (List.cons c) := by
  rw [lines, List.splitOnP_cons_eq_if_modifyHead]
  simp only [decide_eq_true_eq]
  rfl

theorem length_lines (s : List α) : (lines L s).length = s.countP (fun c => decide (c ∈ L.breaks)) + 1 := by
  induction s with
  | nil => rfl
  | cons c s ih =>
    rw [lines_cons, List.countP_cons]
    by_cases hc : c ∈ L.breaks
    · rw [if_pos hc, List.length_cons, ih, if_pos (decide_eq_true hc)]
    · rw [if_neg hc, List.length_modifyHead, ih, if_neg (by simpa using hc), Nat.add_zero]

theorem lines_of_notMem {s : List α} (h : ∀ b ∈ L.breaks, b ∉ s) : lines L s = [s] :=
  List.splitOnP_eq_singleton fun c hc => decide_eq_false fun hb => h c hb hc

theorem notMem_of_mem_lines {s line : List α} (h : line ∈ lines L s) : ∀ b ∈ L.breaks, b ∉ line := by
  induction s generalizing line with
  | nil =>
    rw [List.mem_singleton.mp h]
    exact fun _ _ => List.not_mem_nil
  | cons c s ih =>
    rw [lines_cons] at h
    split_ifs at h with hc
    · rcases List.mem_cons.mp h with rfl | h
      · exact fun _ _ => List.not_mem_nil
      · exact ih h
    · cases hs : lines L s with
      | nil =>
        rw [hs] at h
        exact absurd h List.not_mem_nil
      | cons x xs =>
        rw [hs] at h ih
        rcases List.mem_cons.mp h with rfl | h
        · intro b hb hmem
          rcases List.mem_cons.mp hmem with rfl | hmem
          · exact hc hb
          · exact ih List.mem_cons_self b hb hmem
        · exact ih (List.mem_cons_of_mem x h)

theorem lines_eq_splitOn {s : List α} (h : ∀ c ∈ s, c ∈ L.breaks → c = L.newline) :
    lines L s = s.splitOn L.newline := by
  induction s with
  | nil => rfl
  | cons c s ih =>
    rw [List.forall_mem_cons] at h
    have hiff : c ∈ L.breaks ↔ c = L.newline := ⟨h.1, fun heq => heq ▸ L.newline_mem⟩
    rw [lines_cons, List.splitOn_cons_eq_if_modifyHead, ih h.2]
    simp only [hiff, beq_iff_eq]

theorem lines_intercalate : ∀ {fields : List (List α)}, fields ≠ [] →
    lines L ([L.newline].intercalate fields) = fields.flatMap (lines L)
  | [], h => absurd rfl h
  | [x], _ => by rw [List.intercalate_singleton, List.flatMap_cons, List.flatMap_nil, List.append_nil]
  | x :: y :: ys, _ => by
    have ih := lines_intercalate (List.cons_ne_nil y ys)
    have hcut : lines L (x ++ L.newline :: [L.newline].intercalate (y :: ys)) =
        lines L x ++ lines L ([L.newline].intercalate (y :: ys)) :=
      List.splitOnP_append_cons _ _ (by simpa using L.newline_mem)
    rw [List.intercalate_cons_cons, List.append_assoc, List.singleton_append, hcut, ih]
    exact List.flatMap_cons.symm

omit [DecidableEq α] in
theorem mem_intercalate {sep c : α} : ∀ {fields : List (List α)}, c ∈ [sep].intercalate fields →
    c = sep ∨ ∃ x ∈ fields, c ∈ x
  | [], h => absurd h List.not_mem_nil
  | [x], h => by
    rw [List.intercalate_singleton] at h
    exact Or.inr ⟨x, List.mem_cons_self, h⟩
  | x :: y :: ys, h => by
    rw [List.intercalate_cons_cons, List.append_assoc, List.mem_append, List.singleton_append, List.mem_cons] at h
    rcases h with h | rfl | h
    · exact Or.inr ⟨x, List.mem_cons_self, h⟩
    · exact Or.inl rfl
    · exact (mem_intercalate h).imp_right fun ⟨z, hz, hc⟩ => ⟨z, List.mem_cons_of_mem x hz, hc⟩

theorem eq_intercalate_of_lines {s : List α} {fields : List (List α)} (hs : s ⊆ [L.newline].intercalate fields)
    (h : lines L s = fields) : s = [L.newline].intercalate fields := by
  have honly : ∀ c ∈ s, c ∈ L.breaks → c = L.newline := by
    intro c hc hbreak
    rcases mem_intercalate (hs hc) with heq | ⟨x, hx, hcx⟩
    · exact heq
    · exact absurd hcx (notMem_of_mem_lines (h ▸ hx) c hbreak)
  rw [← h, lines_eq_splitOn honly, List.intercalate_splitOn]

theorem notMem_of_length {fields : List (List α)} (h : (fields.flatMap (lines L)).length = fields.length) :
    ∀ x ∈ fields, ∀ b ∈ L.breaks, b ∉ x := by
  have hle : ∀ fields : List (List α), fields.length ≤ (fields.flatMap (lines L)).length := by
    intro fields
    induction fields with
    | nil => exact Nat.le_refl 0
    | cons x fields ih =>
      rw [List.flatMap_cons, List.length_append, length_lines, List.length_cons]
      omega
  induction fields with
  | nil => exact fun x hx => absurd hx List.not_mem_nil
  | cons x fields ih =>
    rw [List.flatMap_cons, List.length_append, length_lines, List.length_cons] at h
    have hrest := hle fields
    have hzero : x.countP (fun c => decide (c ∈ L.breaks)) = 0 := by omega
    rw [List.forall_mem_cons]
    refine ⟨fun b hb hmem => ?_, ih (by omega)⟩
    exact List.countP_eq_zero.mp hzero b hmem (decide_eq_true hb)

theorem flatMap_lines_of_notMem {fields : List (List α)} (h : ∀ x ∈ fields, ∀ b ∈ L.breaks, b ∉ x) :
    fields.flatMap (lines L) = fields := by
  induction fields with
  | nil => rfl
  | cons x fields ih =>
    rw [List.forall_mem_cons] at h
    rw [List.flatMap_cons, lines_of_notMem h.1, ih h.2, List.singleton_append]

/-- **The printed lines are read as those of the template** exactly if each is clean. -/
theorem forall₂_reads_iff {ls : List (Line α)} (hne : ls ≠ []) :
    List.Forall₂ (Line.Reads L) ls (lines L ([L.newline].intercalate (ls.map (Line.print L.quote)))) ↔
      ∀ l ∈ ls, l.Clean L := by
  have hone : List.Forall₂ (Line.Reads L) ls (ls.map (Line.print L.quote)) ↔
      ∀ l ∈ ls, l.Reads L (l.print L.quote) := by
    rw [List.forall₂_map_right_iff, List.forall₂_same]
  rw [lines_intercalate fun h => hne (List.map_eq_nil_iff.mp h)]
  constructor
  · intro h
    have hlen := h.length_eq
    have hlines : ∀ x ∈ ls.map (Line.print L.quote), ∀ b ∈ L.breaks, b ∉ x :=
      notMem_of_length (by rw [← hlen, List.length_map])
    rw [flatMap_lines_of_notMem hlines, hone] at h
    exact fun l hl => Line.clean_iff.mpr ⟨hlines _ (List.mem_map_of_mem hl), h l hl⟩
  · intro h
    have hlines : ∀ x ∈ ls.map (Line.print L.quote), ∀ b ∈ L.breaks, b ∉ x :=
      List.forall_mem_map.mpr fun l hl => (Line.clean_iff.mp (h l hl)).1
    rw [flatMap_lines_of_notMem hlines, hone]
    exact fun l hl => (Line.clean_iff.mp (h l hl)).2

end Lines

end Idryx.Quoted
