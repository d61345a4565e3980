import Idryx.Go.Json.Write

/-!
# JSON on one line

`json.Marshal`: a value is written as in `Write`, with no blanks. What follows a value is then a comma, a closing
bracket, or nothing.

* `SpellsValue`: the tokens a piece of text is, before what can follow a value;
* `marshal`; **`parse_marshal`**: a value is read back, if its numerals are.
-/

namespace Idryx.Json

/-! ## Pieces of text -/

/-- What can follow a value. -/
def Follows (rest : GoString) : Prop := ∀ c ∈ rest.head?, c = 0x2C ∨ c = 0x5D ∨ c = 0x7D

/-- The piece is these tokens, before what can follow a value. -/
def SpellsValue (ts : List Token) (s : GoString) : Prop :=
  ∀ rest, Follows rest → lex (s ++ rest) = (lex rest).map (ts ++ ·)

variable {ts us : List Token} {s t : GoString}

theorem follows_nil : Follows [] := fun _ h => nomatch h

theorem follows_cons {c : UInt8} (hc : c = 0x2C ∨ c = 0x5D ∨ c = 0x7D) (s : GoString) : Follows (c :: s) := by
  intro d hd
  rw [List.head?_cons, Option.mem_some_iff] at hd
  exact hd ▸ hc

theorem Spells.value (hs : Spells ts s) : SpellsValue ts s := fun rest _ => hs rest

theorem Spells.andValue (hs : Spells ts s) (ht : SpellsValue us t) : SpellsValue (ts ++ us) (s ++ t) := by
  intro rest hrest
  rw [List.append_assoc, hs, ht rest hrest, Option.map_map]
  simp only [Function.comp_def, List.append_assoc]

theorem SpellsValue.close {c : UInt8} (hs : SpellsValue ts s) (hc : c = 0x2C ∨ c = 0x5D ∨ c = 0x7D)
    (ht : Spells us [c]) : Spells (ts ++ us) (s ++ [c]) := by
  intro rest
  have hvalue := hs ([c] ++ rest) (follows_cons hc rest)
  rw [List.append_assoc, hvalue, ht, Option.map_map]
  simp only [Function.comp_def, List.append_assoc]

/-! ## Values -/

mutual

/-- `json.Marshal`. -/
def marshal : Json → GoString
  | .null => "null"
  | .bool true => "true"
  | .bool false => "false"
  | .num text => text
  | .str s => appendString s
  | .arr xs => 0x5B :: (marshalElems xs ++ [0x5D])
  | .obj ms => 0x7B :: (marshalMembers ms ++ [0x7D])

@[inherit_doc marshal]
def marshalElems : List Json → GoString
  | [] => []
  | [x] => marshal x
  | x :: y :: xs => marshal x ++ [0x2C] ++ marshalElems (y :: xs)

@[inherit_doc marshal]
def marshalMembers : List (GoString × Json) → GoString
  | [] => []
  | [(k, x)] => appendString k ++ [0x3A] ++ marshal x
  | (k, x) :: m :: ms => appendString k ++ [0x3A] ++ marshal x ++ [0x2C] ++ marshalMembers (m :: ms)

end

/-- The text of a number that is read as it is. -/
def Numeric (text : GoString) : Prop := SpellsValue [.num text] text

theorem numeric_one : Numeric [0x31] := by
  intro rest hrest
  have hnumber : number (0x31 :: rest) = some rest := by
    cases rest with
    | nil => rfl
    | cons c rest => rcases hrest c rfl with rfl | rfl | rfl <;> rfl
  have htoken : token (0x31 :: rest) = some (.num [0x31], rest) := by
    have hlen : (0x31 :: rest : GoString).length - rest.length = 1 := by
      rw [List.length_cons]
      omega
    have hbyte : token (0x31 :: rest) = (number (0x31 :: rest)).map fun r =>
        (.num ((0x31 :: rest : GoString).take ((0x31 :: rest : GoString).length - r.length)), r) := rfl
    rw [hbyte, hnumber, Option.map_some, hlen]
    rfl
  rw [List.singleton_append, lex_token (by decide), htoken]
  rfl

mutual

/-- **What is marshalled of a value** is its tokens. -/
theorem spells_marshal : ∀ j : Json, (∀ text, Token.num text ∈ tokens j → Numeric text) →
    SpellsValue ((tokens j).map (Token.mapStr Utf8.replaceInvalid)) (marshal j)
  | .null, _ => (spells_token (by decide) fun _ => rfl : Spells [.null] "null").value
  | .bool true, _ => (spells_token (by decide) fun _ => rfl : Spells [.bool true] "true").value
  | .bool false, _ => (spells_token (by decide) fun _ => rfl : Spells [.bool false] "false").value
  | .num text, h => h text (List.mem_singleton_self _)
  | .str s, _ => (spells_appendString s).value
  | .arr xs, h => by
    have helems := spells_marshalElems xs fun text htext =>
      h text (List.mem_cons_of_mem _ (List.mem_append_left _ htext))
    have hopen : Spells [.lbracket] [0x5B] := spells_punctuation (by decide) (by decide)
    have hclose : Spells [.rbracket] [0x5D] := spells_punctuation (by decide) (by decide)
    rw [tokens, List.map_cons, List.map_append]
    exact (hopen.append (helems.close (by decide) hclose)).value
  | .obj ms, h => by
    have hmembers := spells_marshalMembers ms fun text htext =>
      h text (List.mem_cons_of_mem _ (List.mem_append_left _ htext))
    have hopen : Spells [.lbrace] [0x7B] := spells_punctuation (by decide) (by decide)
    have hclose : Spells [.rbrace] [0x7D] := spells_punctuation (by decide) (by decide)
    rw [tokens, List.map_cons, List.map_append]
    exact (hopen.append (hmembers.close (by decide) hclose)).value

@[inherit_doc spells_marshal]
theorem spells_marshalElems : ∀ xs : List Json, (∀ text, Token.num text ∈ elemTokens xs → Numeric text) →
    SpellsValue ((elemTokens xs).map (Token.mapStr Utf8.replaceInvalid)) (marshalElems xs)
  | [], _ => Spells.nil.value
  | [x], h => spells_marshal x h
  | x :: y :: xs, h => by
    have hx := spells_marshal x fun text htext => h text (List.mem_append_left _ htext)
    have hxs := spells_marshalElems (y :: xs) fun text htext =>
      h text (List.mem_append_right _ (List.mem_cons_of_mem _ htext))
    have hcomma : Spells [.comma] [0x2C] := spells_punctuation (by decide) (by decide)
    have hall := (hx.close (by decide) hcomma).andValue hxs
    rw [elemTokens, List.map_append, List.map_cons]
    rw [List.append_assoc] at hall
    exact hall

@[inherit_doc spells_marshal]
theorem spells_marshalMembers : ∀ ms : List (GoString × Json),
    (∀ text, Token.num text ∈ memberTokens ms → Numeric text) →
    SpellsValue ((memberTokens ms).map (Token.mapStr Utf8.replaceInvalid)) (marshalMembers ms)
  | [], _ => Spells.nil.value
  | [(k, x)], h => by
    have hx := spells_marshal x fun text htext => h text (List.mem_cons_of_mem _ (List.mem_cons_of_mem _ htext))
    have hcolon : Spells [.colon] [0x3A] := spells_punctuation (by decide) (by decide)
    exact ((spells_appendString k).append hcolon).andValue hx
  | (k, x) :: m :: ms, h => by
    have hx := spells_marshal x fun text htext =>
      h text (List.mem_cons_of_mem _ (List.mem_cons_of_mem _ (List.mem_append_left _ htext)))
    have hms := spells_marshalMembers (m :: ms) fun text htext =>
      h text (List.mem_cons_of_mem _ (List.mem_cons_of_mem _ (List.mem_append_right _ (List.mem_cons_of_mem _ htext))))
    have hcolon : Spells [.colon] [0x3A] := spells_punctuation (by decide) (by decide)
    have hcomma : Spells [.comma] [0x2C] := spells_punctuation (by decide) (by decide)
    have hall := ((((spells_appendString k).append hcolon).andValue hx).close (by decide) hcomma).andValue hms
    rw [memberTokens, List.map_cons, List.map_cons, List.map_append, List.map_cons]
    simp only [List.append_assoc, List.cons_append, List.nil_append] at hall
    simp only [marshalMembers, List.append_assoc, List.cons_append, List.nil_append]
    exact hall

end

/-- **A value is read back from what is marshalled of it**, with the invalid bytes of its strings replaced. -/
theorem parse_marshal {j : Json} (hd : depth j ≤ maxNestingDepth)
    (hnum : ∀ text, Token.num text ∈ tokens j → Numeric text) :
    parse (marshal j) = some (mapStr Utf8.replaceInvalid j) := by
  have hlex : lex (marshal j) = some (tokens (mapStr Utf8.replaceInvalid j)) := by
    have hend : lex [] = some [] := rfl
    have hspell := spells_marshal j hnum [] follows_nil
    rw [List.append_nil] at hspell
    rw [hspell, hend, tokens_mapStr, Option.map_some, List.append_nil]
  have hrun := run_tokens (mapStr Utf8.replaceInvalid j) [] (by simpa [depth_mapStr] using hd) []
  rw [List.append_nil] at hrun
  rw [parse, hlex, Option.bind_some, parseTokens, hrun]
  rfl

end Idryx.Json
