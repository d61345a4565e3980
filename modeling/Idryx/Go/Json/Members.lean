import Idryx.Go.Json.Marshal
import Idryx.Lib.Keyed

/-!
# Documents

Values as a program writes and reads them: fixed names, texts under them, and lists.

* `Within`: a value that is not nested too deep and has only numerals in it;
* `member`, `asText`, `elems`, `textOf`: a document by the names of its members;
* `mapStr_arr`, `mapStr_obj`: a document with other texts.
-/

namespace Idryx.Json

/-! ## What can be written -/

/-- A value that is nested at most `k` deep and whose numbers are such numerals. -/
structure Within (N : GoString → Prop) (k : ℕ) (j : Json) : Prop where
  depth : depth j ≤ k
  num : ∀ text, Token.num text ∈ tokens j → N text

namespace Within

variable {N : GoString → Prop} {k : ℕ}

theorem mono {k' : ℕ} {j : Json} (h : Within N k j) (hk : k ≤ k') : Within N k' j := ⟨h.depth.trans hk, h.num⟩

theorem str (s : GoString) : Within N k (.str s) where
  depth := Nat.zero_le k
  num text htext := by
    rw [tokens, List.mem_singleton] at htext
    cases htext

theorem numeral {text : GoString} (h : N text) : Within N k (.num text) where
  depth := Nat.zero_le k
  num text' htext := by
    rw [tokens, List.mem_singleton] at htext
    cases htext
    exact h

theorem arr {xs : List Json} (h : ∀ x ∈ xs, Within N k x) : Within N (k + 1) (.arr xs) where
  depth := Nat.succ_le_succ (elemDepth_le fun x hx => (h x hx).depth)
  num text htext := by
    rw [tokens, List.mem_cons, List.mem_append, List.mem_singleton] at htext
    rcases htext with htext | htext | htext
    · cases htext
    · rcases mem_elemTokens htext with htext | ⟨x, hx, htext⟩
      · cases htext
      · exact (h x hx).num text htext
    · cases htext

theorem obj {ms : List (GoString × Json)} (h : ∀ m ∈ ms, Within N k m.2) : Within N (k + 1) (.obj ms) where
  depth := Nat.succ_le_succ (memberDepth_le fun m hm => (h m hm).depth)
  num text htext := by
    rw [tokens, List.mem_cons, List.mem_append, List.mem_singleton] at htext
    rcases htext with htext | htext | htext
    · cases htext
    · rcases mem_memberTokens htext with htext | htext | ⟨m, hm, htext | htext⟩
      · cases htext
      · cases htext
      · cases htext
      · exact (h m hm).num text htext
    · cases htext

end Within

theorem Within.parse_encode {j : Json} (h : Within Numeral maxNestingDepth j) :
    parse (encode j) = some (mapStr Utf8.replaceInvalid j) := Json.parse_encode h.depth h.num

theorem Within.parse_marshal {j : Json} (h : Within Numeric maxNestingDepth j) :
    parse (marshal j) = some (mapStr Utf8.replaceInvalid j) := Json.parse_marshal h.depth h.num

/-! ## Reading by names -/

/-- The member of an object. -/
def member (k : GoString) : Json → Option Json
  | .obj ms => (Keyed.lookup Prod.fst k ms).map Prod.snd
  | _ => none

/-- The string a value is. -/
def asText : Json → Option GoString
  | .str s => some s
  | _ => none

/-- The elements of an array that may be missing. -/
def elems : Option Json → List Json
  | some (.arr xs) => xs
  | _ => []

/-- The string under a key. -/
def textOf (k : GoString) (j : Json) : Option GoString := (member k j).bind asText

theorem mapM_map_some {α β γ : Type} {f : α → β} {g : β → Option γ} {h : α → γ} {xs : List α}
    (hread : ∀ x ∈ xs, g (f x) = some (h x)) : (xs.map f).mapM g = some (xs.map h) := by
  induction xs with
  | nil => rfl
  | cons x xs ih =>
    obtain ⟨hx, hxs⟩ := List.forall_mem_cons.mp hread
    rw [List.map_cons, List.mapM_cons, hx, ih hxs]
    rfl

/-! ## Other texts -/

section Map

variable (f : GoString → GoString)

theorem mapMembers_eq (ms : List (GoString × Json)) : mapMembers f ms = ms.map fun m => (f m.1, mapStr f m.2) := by
  induction ms with
  | nil => rfl
  | cons m ms ih => rw [mapMembers, ih, List.map_cons]

theorem mapStr_str (s : GoString) : mapStr f (.str s) = .str (f s) := by rw [mapStr]

theorem mapStr_num (text : GoString) : mapStr f (.num text) = .num text := by rw [mapStr]

theorem mapStr_arr (xs : List Json) : mapStr f (.arr xs) = .arr (xs.map (mapStr f)) := by rw [mapStr, mapElems_eq]

theorem mapStr_obj (ms : List (GoString × Json)) :
    mapStr f (.obj ms) = .obj (ms.map fun m => (f m.1, mapStr f m.2)) := by rw [mapStr, mapMembers_eq]

end Map

end Idryx.Json
