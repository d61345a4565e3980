import Idryx.Go.Strings
import Mathlib.Data.List.DropRight
import Mathlib.Data.List.Find

/-!
# Reading files

* `Bufio.scanLines`: a `bufio.Scanner` over a byte slice, with its maximum token size;
* `Filepath.base`, `Filepath.ext`; `FileSystem`: what `filepath.Glob` and `os.ReadFile` answer;
* **`Strings.trimSpace_dropCR`**: trimming does not see the carriage return the scanner drops;
* **`Bufio.foldl_scanLines`**: a reader that trims its lines and skips blank ones reads the lines of
  the file up to the first that does not fit.
-/

namespace Idryx

/-! ## White space at the ends -/

namespace Strings

theorem stripPrefixes_nil {sp : List GoString} (hsp : ∀ e ∈ sp, e ≠ []) (n : Nat) :
    stripPrefixes sp n [] = [] := by
  cases n with
  | zero => rfl
  | succ n =>
    have hnone : sp.find? (·.isPrefixOf []) = none := by
      rw [List.find?_eq_none]
      intro e he hp
      rw [List.isPrefixOf_iff_prefix, List.prefix_nil] at hp
      exact hsp e he hp
    rw [stripPrefixes, hnone]

theorem stripPrefixes_concat {sp : List GoString} (hsp : ∀ e ∈ sp, e ≠ []) {c : UInt8}
    (hc : [c] ∈ sp) (hcs : ∀ e ∈ sp, c ∈ e → e = [c]) : ∀ (n : Nat) (s : GoString), s.length ≤ n →
    stripPrefixes sp (n + 1) (s ++ [c]) =
      if stripPrefixes sp n s = [] then [] else stripPrefixes sp n s ++ [c] := by
  have hlone : ∀ n, stripPrefixes sp (n + 1) [c] = [] := by
    intro n
    obtain ⟨e, he⟩ : ∃ e, sp.find? (·.isPrefixOf [c]) = some e :=
      Option.isSome_iff_exists.mp (List.find?_isSome.mpr ⟨[c], hc, by simp⟩)
    have hmem : e ∈ sp := List.mem_of_find?_eq_some he
    have hpre : e <+: [c] := List.isPrefixOf_iff_prefix.mp (by simpa using List.find?_some he)
    have hcmem : c ∈ e := by
      obtain ⟨b, e', rfl⟩ := List.exists_cons_of_ne_nil (hsp e hmem)
      obtain ⟨t, ht⟩ := hpre
      rw [List.cons_append, List.cons.injEq] at ht
      rw [ht.1]
      exact List.mem_cons_self
    have hec : e = [c] := hcs e hmem hcmem
    rw [stripPrefixes, he, hec]
    exact stripPrefixes_nil hsp n
  intro n
  induction n with
  | zero =>
    intro s hs
    obtain rfl := List.length_eq_zero_iff.mp (Nat.le_zero.mp hs)
    exact hlone 0
  | succ n ih =>
    intro s hs
    rcases s with _ | ⟨b, s⟩
    · rw [stripPrefixes_nil hsp, if_pos rfl]
      exact hlone (n + 1)
    -- the same prefix is found before and after the byte is appended
    have hfind : sp.find? (·.isPrefixOf (b :: s ++ [c])) = sp.find? (·.isPrefixOf (b :: s)) := by
      refine List.find?_congr fun e he => ?_
      rw [Bool.eq_iff_iff, List.isPrefixOf_iff_prefix, List.isPrefixOf_iff_prefix,
        List.prefix_concat_iff]
      constructor
      · rintro (rfl | h)
        · have := hcs _ he (by simp)
          simp at this
        · exact h
      · exact Or.inr
    rw [stripPrefixes, hfind, stripPrefixes]
    cases hf : sp.find? (·.isPrefixOf (b :: s)) with
    | none => rw [if_neg (List.cons_ne_nil b s)]
    | some e =>
      have hle : e.length ≤ (b :: s).length :=
        (List.isPrefixOf_iff_prefix.mp (by simpa using List.find?_some hf)).length_le
      have hpos : 0 < e.length := List.length_pos_iff.mpr (hsp e (List.mem_of_find?_eq_some hf))
      simp only [List.drop_append_of_le_length hle]
      refine ih _ ?_
      rw [List.length_drop]
      omega

theorem spaces_ne_nil : ∀ e ∈ spaces, e ≠ [] := by decide

theorem trimLeft_concat_cr (s : GoString) :
    trimLeft (s ++ [0x0D]) = if trimLeft s = [] then [] else trimLeft s ++ [0x0D] := by
  unfold trimLeft
  rw [List.length_append, List.length_singleton]
  exact stripPrefixes_concat spaces_ne_nil (by decide) (by decide) _ s le_rfl

theorem trimRight_concat_cr (s : GoString) : trimRight (s ++ [0x0D]) = trimRight s := by
  have hfind : (spaces.map List.reverse).find? (·.isPrefixOf (0x0D :: s.reverse)) = some [0x0D] := rfl
  unfold trimRight
  rw [List.length_append, List.length_singleton, List.reverse_append, List.reverse_singleton,
    List.singleton_append, stripPrefixes, hfind]
  rfl

theorem trimSpace_concat_cr (s : GoString) : trimSpace (s ++ [0x0D]) = trimSpace s := by
  unfold trimSpace
  rw [trimLeft_concat_cr]
  split_ifs with h
  · rw [h]
  · exact trimRight_concat_cr _

end Strings

/-! ## Package `bufio` -/

namespace Bufio

/-- Drop a trailing carriage return. -/
def dropCR (line : GoString) : GoString :=
  if line.getLast? = some 0x0D then line.dropLast else line

/-- The newline-separated lines of `data`; after a final newline there is an empty one. -/
def newlines (data : GoString) : List GoString := data.splitOn 0x0A

/-- What the scans of a `Scanner` with `ScanLines` yield: an empty last line is no token, and the
first line that does not fit in `maxTokenSize` bytes together with its newline stops it for good. -/
def scanLines (maxTokenSize : Nat) (data : GoString) : List GoString :=
  let lines := newlines data
  ((if lines.getLast? = some [] then lines.dropLast else lines).takeWhile
    (·.length < maxTokenSize)).map dropCR

/-- Lines put together, a newline between each two. -/
def joinLines (lines : List GoString) : GoString := [0x0A].intercalate lines

theorem trimSpace_dropCR (line : GoString) :
    Strings.trimSpace (dropCR line) = Strings.trimSpace line := by
  unfold dropCR
  split_ifs with h
  · obtain ⟨s, rfl⟩ := List.getLast?_eq_some_iff.mp h
    rw [List.dropLast_concat, Strings.trimSpace_concat_cr]
  · rfl

theorem not_mem_newlines {data line : GoString} (h : line ∈ newlines data) : (0x0A : UInt8) ∉ line := by
  unfold newlines at h
  induction data generalizing line with
  | nil =>
    rw [List.splitOn_nil, List.mem_singleton] at h
    rw [h]
    exact List.not_mem_nil
  | cons b data ih =>
    rw [List.splitOn_cons_eq_if_modifyHead] at h
    obtain ⟨l, ls, hls⟩ := List.exists_cons_of_ne_nil (List.splitOn_ne_nil (0x0A : UInt8) data)
    rw [hls] at h ih
    split_ifs at h with hb
    · rcases List.mem_cons.mp h with rfl | h
      · exact List.not_mem_nil
      · exact ih h
    · rw [List.modifyHead_cons] at h
      rcases List.mem_cons.mp h with rfl | h
      · rw [List.mem_cons, not_or]
        refine ⟨fun e => hb ?_, ih List.mem_cons_self⟩
        rw [← e]
        rfl
      · exact ih (List.mem_cons_of_mem _ h)

/-- **What a line reader reads**, if it trims its lines and skips blank ones: the lines before the
first that does not fit. -/
theorem foldl_scanLines {σ : Type*} {f : σ → GoString → σ} (hcr : ∀ s l, f s (dropCR l) = f s l)
    (hblank : ∀ s, f s [] = s) (maxTokenSize : Nat) (data : GoString) (s : σ) :
    (scanLines maxTokenSize data).foldl f s =
      ((newlines data).takeWhile (·.length < maxTokenSize)).foldl f s := by
  have hf : (fun s l => f s (dropCR l)) = f := by
    funext s l
    exact hcr s l
  unfold scanLines
  rw [List.foldl_map, hf]
  split_ifs with h
  · obtain ⟨ls, hls⟩ := List.getLast?_eq_some_iff.mp h
    rw [hls, List.dropLast_concat, List.takeWhile_append]
    split_ifs with hall
    · rw [(List.takeWhile_sublist _).eq_of_length hall, List.foldl_append, List.takeWhile_cons]
      split_ifs
      · exact (hblank _).symm
      · rfl
    · rfl
  · rfl

theorem newlines_joinLines {lines : List GoString} (hne : lines ≠ [])
    (hnl : ∀ l ∈ lines, (0x0A : UInt8) ∉ l) : newlines (joinLines lines) = lines :=
  List.splitOn_intercalate 0x0A hnl hne

end Bufio

/-! ## Package `filepath` and the file system -/

namespace Filepath

/-- `filepath.Base` on Unix. -/
def base (path : GoString) : GoString :=
  if path = [] then "."
  else
    let name := (path.rdropWhile (· == 0x2F)).rtakeWhile (· != 0x2F)
    if name = [] then "/" else name

/-- `filepath.Ext`: from the last dot of the last element on. -/
def ext (path : GoString) : GoString :=
  let name := path.rtakeWhile (· != 0x2F)
  if name.contains 0x2E then 0x2E :: name.rtakeWhile (· != 0x2E) else []

end Filepath

/-- What `filepath.Glob` and `os.ReadFile` answer; an error is its text. -/
structure FileSystem where
  glob : GoString → Except GoString (List GoString)
  readFile : GoString → Except GoString GoString

end Idryx
