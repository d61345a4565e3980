import Idryx.Go.Json.Lex

/-!
# JSON values

`json.Unmarshal` checks a text as a whole before it stores anything of it; its scanner keeps a stack
of what encloses the value it is in.

* `Json`, `Json.parse`: the value of a text, by `step` over its tokens;
* `Json.tokens`, `Json.text`; **`parse_text`**: a value is read back from its text;
* `Json.Literal`; `parse_literal`: a string in quotes.
-/

namespace Idryx

/-- A JSON value. An object keeps its members in order, also those of one name. -/
inductive Json where
  | null
  | bool (b : Bool)
  | num (text : GoString)
  | str (s : GoString)
  | arr (elems : List Json)
  | obj (members : List (GoString × Json))

namespace Json

/-! ## Reading a value -/

/-- What encloses a value: an array after some elements, or an object after some members and the name
of the next. -/
inductive Frame where
  | arr (elems : List Json)
  | obj (members : List (GoString × Json)) (name : GoString)

/-- What the scanner expects: a value, the first element of an array, the name of a member, the first
member of an object, the colon behind a name, or what follows a value. -/
inductive Mode where
  | value
  | elemOrEnd
  | key (members : List (GoString × Json))
  | keyOrEnd
  | colon (members : List (GoString × Json)) (name : GoString)
  | after (v : Json)

/-- Deeper values are an error. -/
def maxNestingDepth : Nat := 10000

/-- A value begins with the token. -/
def beginValue (fs : List Frame) : Token → Option (Mode × List Frame)
  | .lbrace => if fs.length < maxNestingDepth then some (.keyOrEnd, fs) else none
  | .lbracket => if fs.length < maxNestingDepth then some (.elemOrEnd, fs) else none
  | .null => some (.after .null, fs)
  | .bool b => some (.after (.bool b), fs)
  | .num text => some (.after (.num text), fs)
  | .str s => some (.after (.str s), fs)
  | _ => none

/-- One token more. -/
def step : Mode × List Frame → Token → Option (Mode × List Frame)
  | (.value, fs), t => beginValue fs t
  | (.elemOrEnd, fs), .rbracket => some (.after (.arr []), fs)
  | (.elemOrEnd, fs), t => beginValue (.arr [] :: fs) t
  | (.key ms, fs), .str k => some (.colon ms k, fs)
  | (.keyOrEnd, fs), .rbrace => some (.after (.obj []), fs)
  | (.keyOrEnd, fs), .str k => some (.colon [] k, fs)
  | (.colon ms k, fs), .colon => some (.value, .obj ms k :: fs)
  | (.after v, .arr xs :: fs), .comma => some (.value, .arr (xs ++ [v]) :: fs)
  | (.after v, .arr xs :: fs), .rbracket => some (.after (.arr (xs ++ [v])), fs)
  | (.after v, .obj ms k :: fs), .comma => some (.key (ms ++ [(k, v)]), fs)
  | (.after v, .obj ms k :: fs), .rbrace => some (.after (.obj (ms ++ [(k, v)])), fs)
  | _, _ => none

/-- The tokens make up the value. -/
def parseTokens (ts : List Token) : Option Json :=
  match ts.foldlM step (.value, []) with
  | some (.after v, []) => some v
  | _ => none

/-- The value of a text. -/
def parse (s : GoString) : Option Json := (lex s).bind parseTokens

/-! ## Writing a value -/

mutual

/-- The tokens of a value. -/
def tokens : Json → List Token
  | .null => [.null]
  | .bool b => [.bool b]
  | .num text => [.num text]
  | .str s => [.str s]
  | .arr xs => .lbracket :: (elemTokens xs ++ [.rbracket])
  | .obj ms => .lbrace :: (memberTokens ms ++ [.rbrace])

/-- The tokens of the elements of an array, with commas between them. -/
def elemTokens : List Json → List Token
  | [] => []
  | [x] => tokens x
  | x :: y :: xs => tokens x ++ .comma :: elemTokens (y :: xs)

/-- The tokens of the members of an object. -/
def memberTokens : List (GoString × Json) → List Token
  | [] => []
  | [(k, x)] => .str k :: .colon :: tokens x
  | (k, x) :: m :: ms => .str k :: .colon :: (tokens x ++ .comma :: memberTokens (m :: ms))

end

mutual

/-- How deep arrays and objects are nested in a value. -/
def depth : Json → Nat
  | .arr xs => elemDepth xs + 1
  | .obj ms => memberDepth ms + 1
  | _ => 0

@[inherit_doc depth]
def elemDepth : List Json → Nat
  | [] => 0
  | x :: xs => max (depth x) (elemDepth xs)

@[inherit_doc depth]
def memberDepth : List (GoString × Json) → Nat
  | [] => 0
  | (_, x) :: ms => max (depth x) (memberDepth ms)

end

/-- A value as it is printed. -/
def text (j : Json) : GoString := (tokens j).flatMap Token.text

/-- A value that is read back: its strings are valid UTF-8, and it has no numbers. -/
def Fits (j : Json) : Prop := ∀ t ∈ tokens j, t.Fits

/-! ## Reading what is written -/

theorem run_elemOrEnd (x : Json) (xs : List Json) (fs : List Frame) (ts : List Token) :
    (elemTokens (x :: xs) ++ ts).foldlM step (.elemOrEnd, fs) =
      (elemTokens (x :: xs) ++ ts).foldlM step (.value, .arr [] :: fs) := by
  cases xs <;> cases x <;> rfl

theorem run_keyOrEnd (m : GoString × Json) (ms : List (GoString × Json)) (fs : List Frame)
    (ts : List Token) : (memberTokens (m :: ms) ++ ts).foldlM step (.keyOrEnd, fs) =
      (memberTokens (m :: ms) ++ ts).foldlM step (.key [], fs) := by
  cases ms <;> rfl

mutual

theorem run_tokens : ∀ (j : Json) (fs : List Frame), fs.length + depth j ≤ maxNestingDepth →
    ∀ ts, (tokens j ++ ts).foldlM step (.value, fs) = ts.foldlM step (.after j, fs)
  | .null, _, _, _ => rfl
  | .bool _, _, _, _ => rfl
  | .num _, _, _, _ => rfl
  | .str _, _, _, _ => rfl
  | .arr [], fs, hd, ts => by
    have hlt : fs.length < maxNestingDepth := by
      rw [depth] at hd
      omega
    rw [tokens, List.cons_append, List.foldlM_cons, step, beginValue, if_pos hlt]
    rfl
  | .arr (x :: xs), fs, hd, ts => by
    rw [depth] at hd
    have hlt : fs.length < maxNestingDepth := by omega
    have hrun := run_elems (x :: xs) (List.cons_ne_nil x xs) [] fs (by omega) ts
    rw [← run_elemOrEnd] at hrun
    rw [tokens, List.cons_append, List.foldlM_cons, step, beginValue, if_pos hlt, List.append_assoc]
    exact hrun
  | .obj [], fs, hd, ts => by
    have hlt : fs.length < maxNestingDepth := by
      rw [depth] at hd
      omega
    rw [tokens, List.cons_append, List.foldlM_cons, step, beginValue, if_pos hlt]
    rfl
  | .obj (m :: ms), fs, hd, ts => by
    rw [depth] at hd
    have hlt : fs.length < maxNestingDepth := by omega
    have hrun := run_members (m :: ms) (List.cons_ne_nil m ms) [] fs (by omega) ts
    rw [← run_keyOrEnd] at hrun
    rw [tokens, List.cons_append, List.foldlM_cons, step, beginValue, if_pos hlt, List.append_assoc]
    exact hrun

theorem run_elems : ∀ xs : List Json, xs ≠ [] → ∀ (done : List Json) (fs : List Frame),
    fs.length + elemDepth xs + 1 ≤ maxNestingDepth → ∀ ts,
    (elemTokens xs ++ Token.rbracket :: ts).foldlM step (.value, .arr done :: fs) =
      ts.foldlM step (.after (.arr (done ++ xs)), fs)
  | [], hne, _, _, _, _ => absurd rfl hne
  | [x], _, done, fs, hd, ts => by
    rw [elemDepth, elemDepth] at hd
    rw [elemTokens, run_tokens x (.arr done :: fs) (by rw [List.length_cons]; omega)]
    rfl
  | x :: y :: xs, _, done, fs, hd, ts => by
    rw [elemDepth] at hd
    have hrun := run_elems (y :: xs) (List.cons_ne_nil y xs) (done ++ [x]) fs (by omega) ts
    rw [List.append_assoc] at hrun
    rw [elemTokens, List.append_assoc, run_tokens x (.arr done :: fs) (by rw [List.length_cons]; omega)]
    exact hrun

theorem run_members : ∀ ms : List (GoString × Json), ms ≠ [] →
    ∀ (done : List (GoString × Json)) (fs : List Frame),
    fs.length + memberDepth ms + 1 ≤ maxNestingDepth → ∀ ts,
    (memberTokens ms ++ Token.rbrace :: ts).foldlM step (.key done, fs) =
      ts.foldlM step (.after (.obj (done ++ ms)), fs)
  | [], hne, _, _, _, _ => absurd rfl hne
  | [(k, x)], _, done, fs, hd, ts => by
    rw [memberDepth, memberDepth] at hd
    have hrun := run_tokens x (.obj done k :: fs) (by rw [List.length_cons]; omega) (Token.rbrace :: ts)
    rw [memberTokens]
    exact hrun
  | (k, x) :: m :: ms, _, done, fs, hd, ts => by
    rw [memberDepth] at hd
    have hvalue := run_tokens x (.obj done k :: fs) (by rw [List.length_cons]; omega)
      (Token.comma :: (memberTokens (m :: ms) ++ Token.rbrace :: ts))
    have hrun := run_members (m :: ms) (List.cons_ne_nil m ms) (done ++ [(k, x)]) fs (by omega) ts
    rw [List.append_assoc] at hrun
    rw [memberTokens, List.cons_append, List.cons_append, List.append_assoc, List.cons_append]
    exact hvalue.trans hrun

end

/-- **A value is read back from its text**, if it is not nested too deeply. -/
theorem parse_text {j : Json} (hd : depth j ≤ maxNestingDepth) (hj : j.Fits) :
    parse (text j) = some j := by
  have hrun := run_tokens j [] (by simpa using hd) []
  rw [List.append_nil] at hrun
  rw [parse, text, lex_text hj, Option.bind_some, parseTokens, hrun]
  rfl

theorem valid_text {j : Json} (hj : j.Fits) : Utf8.valid (text j) = true := by
  have hall : ∀ ts : List Token, (∀ t ∈ ts, t.Fits) → Utf8.valid (ts.flatMap Token.text) = true := by
    intro ts
    induction ts with
    | nil => exact fun _ => rfl
    | cons t ts ih =>
      intro hts
      obtain ⟨ht, hts⟩ := List.forall_mem_cons.mp hts
      rw [List.flatMap_cons, Utf8.valid_append (valid_token ht), ih hts]
  exact hall _ hj

/-! ## String literals -/

/-- The text is a string in quotes. -/
def Literal (q u : GoString) : Prop :=
  ∃ raw, RawString raw ∧ q = 0x22 :: (raw ++ [0x22]) ∧ unquote raw = u

theorem parse_literal {q u : GoString} (h : Literal q u) : parse q = some (.str u) := by
  obtain ⟨raw, hraw, rfl, rfl⟩ := h
  have htoken : token (0x22 :: (raw ++ [0x22])) = some (.str (unquote raw), []) := by
    have hstring := rawString_of_raw hraw []
    rw [token]
    simp only [List.head?_cons, Option.bind_some, List.tail_cons]
    rw [hstring]
    rfl
  have hspace : isSpace 0x22 = false := rfl
  rw [parse, lex_token hspace, htoken]
  rfl

theorem literal_text {s : GoString} (hs : Utf8.valid s = true) : Literal (text (.str s)) s := by
  refine ⟨escape s, raw_escape s, ?_, unquote_escape hs⟩
  rw [text, tokens, List.flatMap_singleton]
  rfl

/-! ## Nested values -/

theorem mem_elemTokens {t : Token} : ∀ {xs : List Json}, t ∈ elemTokens xs →
    t = .comma ∨ ∃ x ∈ xs, t ∈ tokens x
  | [], h => absurd h List.not_mem_nil
  | [x], h => Or.inr ⟨x, List.mem_cons_self, h⟩
  | x :: y :: xs, h => by
    rw [elemTokens, List.mem_append, List.mem_cons] at h
    rcases h with h | h | h
    · exact Or.inr ⟨x, List.mem_cons_self, h⟩
    · exact Or.inl h
    · exact (mem_elemTokens h).imp_right fun ⟨z, hz, ht⟩ => ⟨z, List.mem_cons_of_mem x hz, ht⟩

theorem mem_memberTokens {t : Token} : ∀ {ms : List (GoString × Json)}, t ∈ memberTokens ms →
    t = .comma ∨ t = .colon ∨ ∃ m ∈ ms, t = .str m.1 ∨ t ∈ tokens m.2
  | [], h => absurd h List.not_mem_nil
  | [(k, x)], h => by
    rw [memberTokens, List.mem_cons, List.mem_cons] at h
    rcases h with h | h | h
    · exact Or.inr (Or.inr ⟨_, List.mem_cons_self, Or.inl h⟩)
    · exact Or.inr (Or.inl h)
    · exact Or.inr (Or.inr ⟨_, List.mem_cons_self, Or.inr h⟩)
  | (k, x) :: m :: ms, h => by
    rw [memberTokens, List.mem_cons, List.mem_cons, List.mem_append, List.mem_cons] at h
    rcases h with h | h | h | h | h
    · exact Or.inr (Or.inr ⟨_, List.mem_cons_self, Or.inl h⟩)
    · exact Or.inr (Or.inl h)
    · exact Or.inr (Or.inr ⟨_, List.mem_cons_self, Or.inr h⟩)
    · exact Or.inl h
    · exact (mem_memberTokens h).imp_right fun h =>
        h.imp_right fun ⟨z, hz, ht⟩ => ⟨z, List.mem_cons_of_mem _ hz, ht⟩

theorem fits_arr {xs : List Json} (h : ∀ x ∈ xs, x.Fits) : (Json.arr xs).Fits := by
  intro t ht
  rw [tokens, List.mem_cons, List.mem_append, List.mem_singleton] at ht
  rcases ht with rfl | ht | rfl
  · trivial
  · rcases mem_elemTokens ht with rfl | ⟨x, hx, ht⟩
    · trivial
    · exact h x hx t ht
  · trivial

theorem fits_obj {ms : List (GoString × Json)}
    (h : ∀ m ∈ ms, Utf8.valid m.1 = true ∧ m.2.Fits) : (Json.obj ms).Fits := by
  intro t ht
  rw [tokens, List.mem_cons, List.mem_append, List.mem_singleton] at ht
  rcases ht with rfl | ht | rfl
  · trivial
  · rcases mem_memberTokens ht with rfl | rfl | ⟨m, hm, rfl | ht⟩
    · trivial
    · trivial
    · exact (h m hm).1
    · exact (h m hm).2 t ht
  · trivial

theorem fits_str {s : GoString} (hs : Utf8.valid s = true) : (Json.str s).Fits := by
  intro t ht
  obtain rfl := List.mem_singleton.mp ht
  exact hs

theorem elemDepth_le {n : Nat} {xs : List Json} (h : ∀ x ∈ xs, depth x ≤ n) : elemDepth xs ≤ n := by
  induction xs with
  | nil => exact Nat.zero_le n
  | cons x xs ih =>
    obtain ⟨hx, hxs⟩ := List.forall_mem_cons.mp h
    exact max_le hx (ih hxs)

theorem memberDepth_le {n : Nat} {ms : List (GoString × Json)} (h : ∀ m ∈ ms, depth m.2 ≤ n) :
    memberDepth ms ≤ n := by
  induction ms with
  | nil => exact Nat.zero_le n
  | cons m ms ih =>
    obtain ⟨hm, hms⟩ := List.forall_mem_cons.mp h
    exact max_le hm (ih hms)

end Json

end Idryx
