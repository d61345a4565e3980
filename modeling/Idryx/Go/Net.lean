import Idryx.Go.Numerals
import Idryx.Go.Trim

/-!
# Packages `net` and `net/netip`

Addresses as text, and a host and a port in one.

* `Addr`, `unmap`; `to4`, `ipString`: how an address is written; `parseAddr`: how it is read;
* `zeroRun_spec`, `parseGroups_join`, `parseGroups_ellipsis`; **`parseAddr_ipString`**: an address is read
  back, an IPv4 address in an IPv6 one as the IPv4 address;
* `joinHostPort`, `splitHostPort`; **`splitHostPort_joinHostPort`**.
-/

namespace Idryx.Net

open Strconv Strings

/-! ## Addresses -/

/-- `netip.Addr`: an IPv4 address, or the eight groups of an IPv6 address and its zone. -/
inductive Addr where
  | v4 (a b c d : UInt8)
  | v6 (groups : Vector UInt16 8) (zone : GoString)
  deriving DecidableEq

/-- The group of two bytes. -/
def group (hi lo : UInt8) : UInt16 := UInt16.ofNat (256 * hi.toNat + lo.toNat)

/-- The first byte of a group. -/
def high (g : UInt16) : UInt8 := UInt8.ofNat (g.toNat / 256)

/-- The second byte of a group. -/
def low (g : UInt16) : UInt8 := UInt8.ofNat (g.toNat % 256)

/-- The groups of an IPv4 address in an IPv6 one. -/
def mapped (a b c d : UInt8) : Vector UInt16 8 := #v[0, 0, 0, 0, 0, 0xFFFF, group a b, group c d]

/-- `Addr.Unmap`. -/
def Addr.unmap : Addr → Addr
  | .v4 a b c d => .v4 a b c d
  | .v6 g zone =>
    if g = mapped (high g[6]) (low g[6]) (high g[7]) (low g[7]) then
      .v4 (high g[6]) (low g[6]) (high g[7]) (low g[7])
    else .v6 g zone

/-! ## Writing -/

/-- What stands in front of an IPv4 address in sixteen bytes. -/
def v4InV6Prefix : List UInt8 := [0, 0, 0, 0, 0, 0, 0, 0, 0, 0, 0xFF, 0xFF]

/-- `IP.To4`; empty if the address is no IPv4 address. -/
def to4 (ip : List UInt8) : List UInt8 :=
  if ip.length = 4 then ip
  else if ip.length = 16 ∧ v4InV6Prefix.isPrefixOf ip then ip.drop 12
  else []

/-- Bytes in decimal, dots between them. -/
def dotted (bytes : List UInt8) : GoString := join (bytes.map fun b => itoa b.toNat) "."

/-- The groups of a list of bytes. -/
def groups : List UInt8 → List UInt16
  | hi :: lo :: rest => group hi lo :: groups rest
  | _ => []

/-- A group in hexadecimal. -/
def hexText (g : UInt16) : GoString := hexPad 1 g.toNat

/-- Groups in hexadecimal, colons between them. -/
def colons (gs : List UInt16) : GoString := join (gs.map hexText) ":"

/-- The first of the longest runs of zeros, if it has two groups. -/
def zeroRun (gs : List UInt16) : Option (ℕ × ℕ) :=
  (List.range gs.length).foldl (fun best i =>
    let l := ((gs.drop i).takeWhile (· == 0)).length
    if 2 ≤ l ∧ best.elim 0 (fun run => run.2 - run.1) < l then some (i, i + l) else best) none

/-- An IPv6 address, two colons for the run of zeros. -/
def string6 (gs : List UInt16) : GoString :=
  match zeroRun gs with
  | none => colons gs
  | some (s, e) => colons (gs.take s) ++ ("::" : GoString) ++ colons (gs.drop e)

/-- `IP.String`. -/
def ipString (ip : List UInt8) : GoString :=
  if ip = [] then "<nil>"
  else if ip.length ≠ 4 ∧ ip.length ≠ 16 then ("?" : GoString) ++ ip.flatMap fun b => hex 2 b.toNat
  else if to4 ip ≠ [] then dotted (to4 ip)
  else string6 (groups ip)

/-! ## Reading -/

/-- One of the four numbers of an IPv4 address. -/
def parseOctet (s : GoString) : Option UInt8 :=
  if s ≠ [] ∧ s.all (fun b => 0x30 ≤ b && b ≤ 0x39) ∧ (s.length = 1 ∨ s.head? ≠ some 0x30) ∧
      decimal s ≤ 255 then
    some (UInt8.ofNat (decimal s))
  else none

/-- `parseIPv4Fields`. -/
def parseIPv4Fields (s : GoString) : Option (UInt8 × UInt8 × UInt8 × UInt8) :=
  match (split s 0x2E).mapM parseOctet with
  | some [a, b, c, d] => some (a, b, c, d)
  | _ => none

/-- A digit of a group. -/
def isHexDigit (c : UInt8) : Bool := (Url.unhex c).isSome

/-- The loop of `parseIPv6`, with room for `n` more groups: the groups read so far, and where among them
the two colons stand. -/
def parseGroups : ℕ → GoString → List UInt16 → Option ℕ → Option (List UInt16 × Option ℕ)
  | 0, s, acc, ellipsis => if s = [] then some (acc, ellipsis) else none
  | n + 1, s, acc, ellipsis =>
    let digits := s.takeWhile isHexDigit
    let rest := s.dropWhile isHexDigit
    if digits = [] ∨ 4 < digits.length then none
    else if rest.head? = some 0x2E then
      -- an IPv4 address at the end takes two groups
      if ellipsis = none ∧ acc.length ≠ 6 ∨ 8 < acc.length + 2 then none
      else (parseIPv4Fields s).map fun (a, b, c, d) => (acc ++ [group a b, group c d], ellipsis)
    else
      let acc := acc ++ [UInt16.ofNat (hexadecimal digits)]
      match rest with
      | [] => some (acc, ellipsis)
      | c :: s =>
        if c ≠ 0x3A ∨ s = [] then none
        else if s.head? = some 0x3A then
          if ellipsis.isSome then none
          else if s.tail = [] then some (acc, some acc.length)
          else parseGroups n s.tail acc (some acc.length)
        else parseGroups n s acc ellipsis

/-- The groups of an address, zeros where the two colons stand. -/
def expand (gs : List UInt16) (ellipsis : Option ℕ) : Option (Vector UInt16 8) :=
  let all :=
    match ellipsis with
    | none => gs
    | some e => if gs.length < 8 then gs.take e ++ List.replicate (8 - gs.length) 0 ++ gs.drop e else []
  if h : all.length = 8 then some ⟨all.toArray, h⟩ else none

/-- `parseIPv6`. -/
def parseIPv6 (s : GoString) : Option Addr :=
  let cut := (cut s 0x25).getD (s, "")
  let s' := if hasPrefix cut.1 "::" then cut.1.drop 2 else cut.1
  if 0x25 ∈ s ∧ cut.2 = [] then none
  else if hasPrefix cut.1 "::" ∧ s' = [] then some (.v6 (Vector.replicate 8 0) cut.2)
  else
    match parseGroups 8 s' [] (if hasPrefix cut.1 "::" then some 0 else none) with
    | none => none
    | some (gs, ellipsis) => (expand gs ellipsis).map fun g => .v6 g cut.2

/-- `netip.ParseAddr`. -/
def parseAddr (s : GoString) : Option Addr :=
  match s.find? fun c => c == 0x2E || c == 0x3A || c == 0x25 with
  | some c =>
    if c = 0x2E then (parseIPv4Fields s).map fun (a, b, c, d) => .v4 a b c d
    else if c = 0x3A then parseIPv6 s
    else none
  | none => none

/-! ## Groups -/

theorem toNat_group (hi lo : UInt8) : (group hi lo).toNat = 256 * hi.toNat + lo.toNat := by
  have hhi := hi.toNat_lt
  have hlo := lo.toNat_lt
  exact UInt16.toNat_ofNat_of_lt' (by rw [UInt16.size]; omega)

@[simp] theorem high_group (hi lo : UInt8) : high (group hi lo) = hi := by
  have hlo := lo.toNat_lt
  apply UInt8.toNat_inj.mp
  rw [high, toNat_group, UInt8.toNat_ofNat']
  have hhi := hi.toNat_lt
  omega

@[simp] theorem low_group (hi lo : UInt8) : low (group hi lo) = lo := by
  have hlo := lo.toNat_lt
  apply UInt8.toNat_inj.mp
  rw [low, toNat_group, UInt8.toNat_ofNat']
  omega

theorem unmap_mapped (a b c d : UInt8) (zone : GoString) :
    (Addr.v6 (mapped a b c d) zone).unmap = .v4 a b c d := by
  have h₆ : (mapped a b c d)[6] = group a b := rfl
  have h₇ : (mapped a b c d)[7] = group c d := rfl
  simp only [Addr.unmap, h₆, h₇, high_group, low_group, if_true]

theorem length_groups : ∀ bytes : List UInt8, (groups bytes).length = bytes.length / 2
  | [] => rfl
  | [_] => by simp [groups]
  | hi :: lo :: rest => by
    rw [groups, List.length_cons, length_groups rest, List.length_cons, List.length_cons]
    omega

/-- `netip.AddrFromSlice`: the address of four or of sixteen bytes. -/
def addrFromSlice (ip : List UInt8) : Option Addr :=
  match ip with
  | [a, b, c, d] => some (.v4 a b c d)
  | _ =>
    if h : ip.length = 16 then
      some (.v6 ⟨(groups ip).toArray, (length_groups ip).trans (congrArg (· / 2) h)⟩ "")
    else none

theorem isSome_addrFromSlice {ip : List UInt8} (h : ip.length = 4 ∨ ip.length = 16) :
    (addrFromSlice ip).isSome := by
  rcases h with h | h
  · match ip, h with
    | [_, _, _, _], _ => rfl
  · unfold addrFromSlice
    split
    · rfl
    · rw [dif_pos h]
      rfl

/-! ## IPv4 addresses -/

theorem parseOctet_itoa (b : UInt8) : parseOctet (itoa b.toNat) = some b := by
  have hdigits : (itoa b.toNat).all (fun c => 0x30 ≤ c && c ≤ 0x39) = true := by
    rw [List.all_eq_true]
    intro c hc
    have hdigit := digit_of_mem_itoa hc
    simp only [Bool.and_eq_true, decide_eq_true_eq, UInt8.le_iff_toNat_le, UInt8.reduceToNat]
    exact hdigit
  have hhead : (itoa b.toNat).length = 1 ∨ (itoa b.toNat).head? ≠ some 0x30 := by
    rcases Nat.eq_zero_or_pos b.toNat with hzero | hpos
    · rw [hzero]
      exact Or.inl rfl
    · exact Or.inr (head_itoa hpos)
  have hlt : decimal (itoa b.toNat) ≤ 255 := by
    have := b.toNat_lt
    rw [decimal_itoa]
    omega
  rw [parseOctet, if_pos ⟨itoa_ne_nil _, hdigits, hhead, hlt⟩, decimal_itoa, UInt8.ofNat_toNat]

theorem not_mem_itoa {n : ℕ} {c : UInt8} (hc : ¬ (0x30 ≤ c.toNat ∧ c.toNat ≤ 0x39)) : c ∉ itoa n :=
  fun h => hc (digit_of_mem_itoa h)

theorem parseIPv4Fields_dotted (a b c d : UInt8) :
    parseIPv4Fields (dotted [a, b, c, d]) = some (a, b, c, d) := by
  have hsplit : split (dotted [a, b, c, d]) 0x2E =
      [itoa a.toNat, itoa b.toNat, itoa c.toNat, itoa d.toNat] := by
    refine split_join (by simp) fun x hx => ?_
    obtain ⟨e, -, rfl⟩ := List.mem_map.mp hx
    exact not_mem_itoa (by decide)
  rw [parseIPv4Fields, hsplit]
  simp [parseOctet_itoa]

theorem dotted_cons_cons (b b' : UInt8) (bs : List UInt8) :
    dotted (b :: b' :: bs) = itoa b.toNat ++ 0x2E :: dotted (b' :: bs) := by
  have hdot : ("." : GoString) = [0x2E] := rfl
  simp only [dotted, join, List.map_cons, List.intercalate_cons_cons, hdot, List.append_assoc,
    List.singleton_append]

theorem find_separator {x y : GoString} {c : UInt8} (hx : ∀ b ∈ x, b ≠ 0x2E ∧ b ≠ 0x3A ∧ b ≠ 0x25)
    (hc : c = 0x2E ∨ c = 0x3A ∨ c = 0x25) :
    (x ++ c :: y).find? (fun c => c == 0x2E || c == 0x3A || c == 0x25) = some c := by
  induction x with
  | nil => rcases hc with rfl | rfl | rfl <;> rfl
  | cons b x ih =>
    obtain ⟨hdot, hcolon, hpercent⟩ := hx b List.mem_cons_self
    rw [List.cons_append, List.find?_cons_of_neg (by simp [hdot, hcolon, hpercent])]
    exact ih fun b hb => hx b (List.mem_cons_of_mem _ hb)

theorem parseAddr_dotted (a b c d : UInt8) : parseAddr (dotted [a, b, c, d]) = some (.v4 a b c d) := by
  have hsplit := dotted_cons_cons a b [c, d]
  have hfind := find_separator (y := dotted [b, c, d]) (c := 0x2E) (x := itoa a.toNat)
    (fun e he => by
      have hdigit := digit_of_mem_itoa he
      refine ⟨?_, ?_, ?_⟩ <;> rintro rfl <;> revert hdigit <;> decide) (Or.inl rfl)
  rw [parseAddr, hsplit, hfind, ← hsplit]
  simp only [if_true, parseIPv4Fields_dotted, Option.map_some]

/-! ## Groups as text -/

/-- The digits hexadecimal numerals are written with. -/
def isLowerHex (b : UInt8) : Bool := (0x30 ≤ b && b ≤ 0x39) || (0x61 ≤ b && b ≤ 0x66)

theorem isHexDigit_of_isLowerHex : ∀ {b : UInt8}, isLowerHex b = true → isHexDigit b = true := by
  refine @(forall_byte ?_)
  decide +kernel

theorem isLowerHex_of_mem_hexText {g : UInt16} {b : UInt8} (hb : b ∈ hexText g) : isLowerHex b = true := by
  have htable : ∀ d < 16, isLowerHex (UInt8.ofNat (if d < 10 then 0x30 + d else 0x57 + d)) = true := by
    decide
  obtain ⟨d, hd, rfl⟩ := unhex_of_mem_hex hb
  exact htable d hd

theorem isHexDigit_of_mem_hexText {g : UInt16} {b : UInt8} (hb : b ∈ hexText g) : isHexDigit b = true :=
  isHexDigit_of_isLowerHex (isLowerHex_of_mem_hexText hb)

theorem isLowerHex_of_digit {b : UInt8} (hb : 0x30 ≤ b.toNat ∧ b.toNat ≤ 0x39) :
    isLowerHex b = true := by
  have hlow : (0x30 : UInt8) ≤ b := hb.1
  have hhigh : b ≤ (0x39 : UInt8) := hb.2
  simp [isLowerHex, hlow, hhigh]

theorem hexText_ne_nil (g : UInt16) : hexText g ≠ [] := by
  rw [hexText, hexPad, ← List.length_pos_iff, length_hex]
  omega

theorem length_hexText_le (g : UInt16) : (hexText g).length ≤ 4 := by
  have hlog : g.toNat.log2 ≤ 15 := by
    by_cases hzero : g.toNat = 0
    · rw [hzero]
      decide
    · have hlt := g.toNat_lt
      have := (Nat.log2_lt hzero).mpr hlt
      omega
  rw [hexText, hexPad, length_hex]
  omega

theorem hexadecimal_hexText (g : UInt16) : UInt16.ofNat (hexadecimal (hexText g)) = g := by
  rw [hexText, hexadecimal_hexPad, UInt16.ofNat_toNat]

theorem takeWhile_hexText (g : UInt16) (rest : GoString) (hrest : ∀ c ∈ rest.head?, isHexDigit c = false) :
    (hexText g ++ rest).takeWhile isHexDigit = hexText g ∧
      (hexText g ++ rest).dropWhile isHexDigit = rest := by
  have hall : ∀ b ∈ hexText g, isHexDigit b = true := fun b hb => isHexDigit_of_mem_hexText hb
  rw [List.takeWhile_append_of_pos hall, List.dropWhile_append_of_pos hall]
  cases rest with
  | nil => simp
  | cons c rest =>
    have hc : ¬ isHexDigit c = true := by simp [hrest c rfl]
    rw [List.takeWhile_cons_of_neg hc, List.dropWhile_cons_of_neg hc, List.append_nil]
    exact ⟨rfl, rfl⟩

variable {n : ℕ} {acc : List UInt16} {ellipsis : Option ℕ} {g : UInt16}

theorem parseGroups_last : parseGroups (n + 1) (hexText g) acc ellipsis = some (acc ++ [g], ellipsis) := by
  have h := takeWhile_hexText g [] (by simp)
  rw [List.append_nil] at h
  have hlen := length_hexText_le g
  rw [parseGroups, h.1, h.2, if_neg (by simp [hexText_ne_nil]; omega), if_neg (by simp),
    hexadecimal_hexText]

theorem parseGroups_colon {s : GoString} (hs : s ≠ []) (hhead : s.head? ≠ some 0x3A) :
    parseGroups (n + 1) (hexText g ++ 0x3A :: s) acc ellipsis = parseGroups n s (acc ++ [g]) ellipsis := by
  have h := takeWhile_hexText g (0x3A :: s) (by simp; rfl)
  have hlen := length_hexText_le g
  rw [parseGroups, h.1, h.2, if_neg (by simp [hexText_ne_nil]; omega), if_neg (by simp),
    hexadecimal_hexText]
  simp [hs, hhead]

theorem parseGroups_colons {s : GoString} :
    parseGroups (n + 1) (hexText g ++ 0x3A :: 0x3A :: s) acc none =
      if s = [] then some (acc ++ [g], some (acc.length + 1))
      else parseGroups n s (acc ++ [g]) (some (acc.length + 1)) := by
  have h := takeWhile_hexText g (0x3A :: 0x3A :: s) (by simp; rfl)
  have hlen := length_hexText_le g
  rw [parseGroups, h.1, h.2, if_neg (by simp [hexText_ne_nil]; omega), if_neg (by simp),
    hexadecimal_hexText]
  simp

theorem colons_singleton (g : UInt16) : colons [g] = hexText g := by simp [colons, join]

theorem colons_cons_cons (g g' : UInt16) (gs : List UInt16) :
    colons (g :: g' :: gs) = hexText g ++ 0x3A :: colons (g' :: gs) := by
  simp [colons, join, List.intercalate_cons_cons]
  rfl

theorem colons_ne_nil {gs : List UInt16} (h : gs ≠ []) : colons gs ≠ [] := by
  match gs, h with
  | [g], _ => rw [colons_singleton]; exact hexText_ne_nil g
  | g :: g' :: gs, _ => rw [colons_cons_cons]; simp

theorem head_colons {gs : List UInt16} : (colons gs).head? ≠ some 0x3A := by
  have hhex : ∀ (g : UInt16) (t : GoString), (hexText g ++ t).head? ≠ some 0x3A := by
    intro g t hhead
    rw [List.head?_append_of_ne_nil _ (hexText_ne_nil g)] at hhead
    exact absurd (isHexDigit_of_mem_hexText (List.mem_of_head? hhead)) (by decide)
  match gs with
  | [] => simp [colons, join]
  | [g] => rw [colons_singleton, ← List.append_nil (hexText g)]; exact hhex g []
  | g :: g' :: gs => rw [colons_cons_cons]; exact hhex g _

/-- **Groups with colons between them** are read back. -/
theorem parseGroups_join {gs : List UInt16} (hgs : gs ≠ []) (hn : gs.length ≤ n) :
    parseGroups n (colons gs) acc ellipsis = some (acc ++ gs, ellipsis) := by
  induction gs generalizing n acc with
  | nil => exact absurd rfl hgs
  | cons g gs ih =>
    obtain ⟨n, rfl⟩ := Nat.exists_eq_add_one_of_ne_zero (Nat.ne_zero_of_lt hn)
    cases gs with
    | nil => rw [colons_singleton, parseGroups_last]
    | cons g' gs =>
      have hrest : (g' :: gs).length ≤ n := Nat.le_of_succ_le_succ hn
      rw [colons_cons_cons, parseGroups_colon (colons_ne_nil (List.cons_ne_nil _ _)) head_colons,
        ih (List.cons_ne_nil _ _) hrest, List.append_assoc, List.singleton_append]

/-- **Groups with two colons among them** are read back, with the place of the colons. -/
theorem parseGroups_ellipsis {front back : List UInt16} (hfront : front ≠ [])
    (hn : front.length + back.length < n) :
    parseGroups n (colons front ++ 0x3A :: 0x3A :: colons back) acc none =
      some (acc ++ front ++ back, some (acc.length + front.length)) := by
  induction front generalizing n acc with
  | nil => exact absurd rfl hfront
  | cons g front ih =>
    obtain ⟨n, rfl⟩ := Nat.exists_eq_add_one_of_ne_zero (Nat.ne_zero_of_lt hn)
    have hn' : front.length + back.length < n := by
      rw [List.length_cons] at hn
      omega
    cases front with
    | nil =>
      rw [colons_singleton, parseGroups_colons]
      by_cases hback : back = []
      · subst hback
        simp [colons, join]
      · rw [if_neg (colons_ne_nil hback), parseGroups_join hback (by simp at hn'; omega)]
        simp
    | cons g' front =>
      have hne : colons (g' :: front) ≠ [] := colons_ne_nil (List.cons_ne_nil _ _)
      have hhead : (colons (g' :: front) ++ 0x3A :: 0x3A :: colons back).head? ≠ some 0x3A := by
        rw [List.head?_append_of_ne_nil _ hne]
        exact head_colons
      rw [colons_cons_cons, List.append_assoc, List.cons_append,
        parseGroups_colon (by simp) hhead, ih (List.cons_ne_nil _ _) hn']
      simp [Nat.add_assoc, Nat.add_comm 1]

/-! ## The run of zeros -/

/-- What the run is of: at least two groups, all of them zero. -/
def IsRun (gs : List UInt16) (run : ℕ × ℕ) : Prop :=
  run.1 + 2 ≤ run.2 ∧ run.2 ≤ gs.length ∧
    gs = gs.take run.1 ++ List.replicate (run.2 - run.1) 0 ++ gs.drop run.2

theorem isRun_takeWhile {gs : List UInt16} {i : ℕ}
    (h : 2 ≤ ((gs.drop i).takeWhile (· == 0)).length) :
    IsRun gs (i, i + ((gs.drop i).takeWhile (· == 0)).length) := by
  have hlen : ((gs.drop i).takeWhile (· == 0)).length ≤ gs.length - i := by
    rw [← List.length_drop]
    exact (List.takeWhile_prefix _).length_le
  have hzeros : (gs.drop i).takeWhile (· == 0) =
      List.replicate ((gs.drop i).takeWhile (· == 0)).length 0 := by
    refine List.eq_replicate_of_mem fun g hg => ?_
    have hall := List.all_takeWhile (p := (· == (0 : UInt16))) (l := gs.drop i)
    simpa using List.all_eq_true.mp hall g hg
  have hrest : gs.drop i = (gs.drop i).takeWhile (· == 0) ++
      gs.drop (i + ((gs.drop i).takeWhile (· == 0)).length) := by
    rw [← List.drop_drop]
    exact List.prefix_append_drop (List.takeWhile_prefix _)
  refine ⟨by omega, by dsimp only; omega, ?_⟩
  dsimp only
  rw [Nat.add_sub_cancel_left, ← hzeros, List.append_assoc, ← hrest, List.take_append_drop]

theorem zeroRun_spec {gs : List UInt16} {run : ℕ × ℕ} (h : zeroRun gs = some run) : IsRun gs run := by
  have hall : ∀ run ∈ zeroRun gs, IsRun gs run := by
    refine List.foldlRecOn (motive := fun best : Option (ℕ × ℕ) => ∀ run ∈ best, IsRun gs run) _ _
      (by simp) fun best hbest i _ => ?_
    dsimp only
    split_ifs with hlong
    · rintro run ⟨⟩
      exact isRun_takeWhile hlong.1
    · exact hbest
  exact hall run h

/-! ## IPv6 addresses -/

theorem expand_full {gs : List UInt16} (h : gs.length = 8) : expand gs none = some ⟨gs.toArray, h⟩ := by
  simp only [expand, h, dite_true]

theorem expand_run {gs : List UInt16} (h : gs.length = 8) {run : ℕ × ℕ} (hrun : IsRun gs run) :
    expand (gs.take run.1 ++ gs.drop run.2) (some run.1) = some ⟨gs.toArray, h⟩ := by
  obtain ⟨hlong, hend, hsplit⟩ := hrun
  have hfront : (gs.take run.1).length = run.1 := by rw [List.length_take]; omega
  have hlen : (gs.take run.1 ++ gs.drop run.2).length = 8 - (run.2 - run.1) := by
    rw [List.length_append, hfront, List.length_drop]
    omega
  have hall : (gs.take run.1 ++ gs.drop run.2).take run.1 ++
      List.replicate (8 - (gs.take run.1 ++ gs.drop run.2).length) 0 ++
        (gs.take run.1 ++ gs.drop run.2).drop run.1 = gs := by
    have hzeros : 8 - (8 - (run.2 - run.1)) = run.2 - run.1 := by omega
    rw [hlen, hzeros, List.take_left' hfront, List.drop_left' hfront, ← hsplit]
  have hlt : (gs.take run.1 ++ gs.drop run.2).length < 8 := by omega
  simp only [expand, if_pos hlt, hall, h, dite_true]

theorem expand_nil : expand [] (some 0) = some (Vector.replicate 8 0) := by decide

theorem mem_colons {gs : List UInt16} {b : UInt8} (hb : b ∈ colons gs) :
    b = 0x3A ∨ isLowerHex b = true := by
  rcases mem_join hb with hb | ⟨x, hx, hb⟩
  · exact Or.inl (List.mem_singleton.mp hb)
  · obtain ⟨g, -, rfl⟩ := List.mem_map.mp hx
    exact Or.inr (isLowerHex_of_mem_hexText hb)

theorem mem_string6 {gs : List UInt16} {b : UInt8} (hb : b ∈ string6 gs) :
    b = 0x3A ∨ isLowerHex b = true := by
  unfold string6 at hb
  cases hrun : zeroRun gs with
  | none =>
    rw [hrun] at hb
    exact mem_colons hb
  | some run =>
    rw [hrun] at hb
    rcases List.mem_append.mp hb with hb | hb
    · rcases List.mem_append.mp hb with hb | hb
      · exact mem_colons hb
      · exact Or.inl (List.eq_of_mem_replicate (n := 2) hb)
    · exact mem_colons hb

theorem parseIPv6_of_head {s : GoString} (hpercent : 0x25 ∉ s) (hhead : s.head? ≠ some 0x3A) :
    parseIPv6 s = (parseGroups 8 s [] none).bind fun r => (expand r.1 r.2).map fun g => .v6 g "" := by
  have hcut : (cut s 0x25).getD (s, (("" : String) : GoString)) = (s, (("" : String) : GoString)) := by
    rw [cut_eq_none.mpr hpercent, Option.getD_none]
  have hpre : hasPrefix s "::" = false := by
    rw [hasPrefix, Bool.eq_false_iff, ne_eq, List.isPrefixOf_iff_prefix]
    rintro ⟨t, rfl⟩
    exact hhead rfl
  unfold parseIPv6
  simp only [hcut, hpercent, hpre, false_and, if_false, Bool.false_eq_true]
  cases parseGroups 8 s [] none <;> rfl

theorem parseIPv6_colons {s : GoString} (hpercent : 0x25 ∉ s) :
    parseIPv6 (0x3A :: 0x3A :: s) =
      if s = [] then some (.v6 (Vector.replicate 8 0) "")
      else (parseGroups 8 s [] (some 0)).bind fun r => (expand r.1 r.2).map fun g => .v6 g "" := by
  have hno : (0x25 : UInt8) ∉ (0x3A :: 0x3A :: s : GoString) := by simp [hpercent]
  have hcut : (cut (0x3A :: 0x3A :: s) 0x25).getD (0x3A :: 0x3A :: s, (("" : String) : GoString)) =
      (0x3A :: 0x3A :: s, (("" : String) : GoString)) := by
    rw [cut_eq_none.mpr hno, Option.getD_none]
  have hpre : hasPrefix (0x3A :: 0x3A :: s) "::" = true := rfl
  unfold parseIPv6
  simp only [hcut, hno, hpre, false_and, if_false, if_true, true_and, List.drop_succ_cons,
    List.drop_zero]
  split_ifs
  · rfl
  · cases parseGroups 8 s [] (some 0) <;> rfl

theorem string6_eq (gs : List UInt16) : string6 gs = (zeroRun gs).elim (colons gs) fun run =>
    colons (gs.take run.1) ++ 0x3A :: 0x3A :: colons (gs.drop run.2) := by
  unfold string6
  cases zeroRun gs with
  | none => rfl
  | some run => exact List.append_assoc _ _ _

/-- **An IPv6 address is read back.** -/
theorem parseIPv6_string6 {gs : List UInt16} (h : gs.length = 8) :
    parseIPv6 (string6 gs) = some (.v6 ⟨gs.toArray, h⟩ "") := by
  have hpercent : (0x25 : UInt8) ∉ string6 gs := by
    intro hmem
    rcases mem_string6 hmem with heq | hdigit
    · exact absurd heq (by decide)
    · exact absurd hdigit (by decide)
  rw [string6_eq] at hpercent ⊢
  cases hrun : zeroRun gs with
  | none =>
    rw [hrun, Option.elim_none] at hpercent
    rw [Option.elim_none, parseIPv6_of_head hpercent head_colons,
      parseGroups_join (List.ne_nil_of_length_pos (by omega)) (by omega), Option.bind_some,
      List.nil_append, expand_full h, Option.map_some]
  | some run =>
    rw [hrun, Option.elim_some] at hpercent
    rw [Option.elim_some]
    have hspec := zeroRun_spec hrun
    have hlong := hspec.1
    have hend := hspec.2.1
    have hfront : (gs.take run.1).length = run.1 := by rw [List.length_take]; omega
    have hback : (gs.drop run.2).length = 8 - run.2 := by rw [List.length_drop, h]
    by_cases hzero : gs.take run.1 = []
    · have hstart : run.1 = 0 := by rw [← hfront, hzero, List.length_nil]
      have hexpand := expand_run h hspec
      rw [hzero] at hpercent hexpand ⊢
      rw [List.nil_append, hstart] at hexpand
      rw [show colons [] = [] from rfl, List.nil_append] at hpercent ⊢
      rw [parseIPv6_colons (by simpa using hpercent)]
      split_ifs with hnil
      · have hdrop : gs.drop run.2 = [] := by
          by_contra hne
          exact colons_ne_nil hne hnil
        rw [hdrop, expand_nil, Option.some.injEq] at hexpand
        rw [hexpand]
      · have hdrop : gs.drop run.2 ≠ [] := by
          intro hdrop
          rw [hdrop] at hnil
          exact hnil rfl
        rw [parseGroups_join hdrop (by omega), Option.bind_some, List.nil_append, hexpand, Option.map_some]
    · have hhead : (colons (gs.take run.1) ++ 0x3A :: 0x3A :: colons (gs.drop run.2)).head? ≠ some 0x3A := by
        rw [List.head?_append_of_ne_nil _ (colons_ne_nil hzero)]
        exact head_colons
      rw [parseIPv6_of_head hpercent hhead, parseGroups_ellipsis hzero (by omega), Option.bind_some,
        List.nil_append, List.length_nil, Nat.zero_add, hfront, expand_run h hspec, Option.map_some]

theorem two_le_count_string6 {gs : List UInt16} (h : gs.length = 8) : 2 ≤ (string6 gs).count 0x3A := by
  rw [string6_eq]
  cases zeroRun gs with
  | none =>
    match gs, h with
    | g :: g' :: g'' :: gs, _ =>
      rw [Option.elim_none, colons_cons_cons, colons_cons_cons, List.count_append, List.count_cons_self,
        List.count_append, List.count_cons_self]
      omega
  | some run =>
    rw [Option.elim_some, List.count_append, List.count_cons_self, List.count_cons_self]
    omega

theorem parseAddr_string6 {gs : List UInt16} (h : gs.length = 8) :
    parseAddr (string6 gs) = some (.v6 ⟨gs.toArray, h⟩ "") := by
  have hcolon : (0x3A : UInt8) ∈ string6 gs :=
    List.count_pos_iff.mp (Nat.lt_of_lt_of_le Nat.zero_lt_two (two_le_count_string6 h))
  obtain ⟨x, y, hsplit, hx⟩ := List.eq_append_cons_of_mem hcolon
  have hfind : (string6 gs).find? (fun c => c == 0x2E || c == 0x3A || c == 0x25) = some 0x3A := by
    rw [hsplit]
    refine find_separator (fun b hb => ?_) (Or.inr (Or.inl rfl))
    have hhex : isLowerHex b = true := by
      have hmem : b ∈ string6 gs := by
        rw [hsplit]
        exact List.mem_append_left _ hb
      exact (mem_string6 hmem).resolve_left fun heq => hx (heq ▸ hb)
    refine ⟨?_, ?_, ?_⟩ <;> rintro rfl <;> exact absurd hhex (by decide)
  rw [parseAddr, hfind]
  exact parseIPv6_string6 h

theorem groups_inj : ∀ {xs ys : List UInt8}, xs.length = ys.length → xs.length % 2 = 0 →
    groups xs = groups ys → xs = ys
  | [], [], _, _, _ => rfl
  | hi :: lo :: xs, hi' :: lo' :: ys, hlen, heven, h => by
    rw [groups, groups, List.cons.injEq] at h
    have hhi : hi = hi' := by rw [← high_group hi lo, h.1, high_group]
    have hlo : lo = lo' := by rw [← low_group hi lo, h.1, low_group]
    simp only [List.length_cons] at hlen heven
    rw [hhi, hlo, groups_inj (by omega) (by omega) h.2]

theorem groups_mapped (a b c d : UInt8) :
    groups (v4InV6Prefix ++ [a, b, c, d]) = (mapped a b c d).toList := rfl

/-- **An address is read back**, an IPv4 address in an IPv6 one as the IPv4 address. -/
theorem parseAddr_ipString {ip : List UInt8} (h : ip.length = 4 ∨ ip.length = 16) :
    parseAddr (ipString ip) = (addrFromSlice ip).map Addr.unmap := by
  have hne : ip ≠ [] := List.ne_nil_of_length_pos (by omega)
  have hstring : ipString ip = if to4 ip ≠ [] then dotted (to4 ip) else string6 (groups ip) := by
    rw [ipString, if_neg hne, if_neg (by omega)]
  rcases h with h | h
  · match ip, h with
    | [a, b, c, d], _ =>
      have hto4 : to4 [a, b, c, d] = [a, b, c, d] := rfl
      rw [hstring, hto4, if_pos (List.cons_ne_nil _ _), parseAddr_dotted]
      rfl
  · have haddr : addrFromSlice ip = some (.v6 ⟨(groups ip).toArray,
        (length_groups ip).trans (congrArg (· / 2) h)⟩ "") := by
      unfold addrFromSlice
      split
      · simp at h
      · rw [dif_pos h]
    have hto4 : to4 ip = if v4InV6Prefix.isPrefixOf ip then ip.drop 12 else [] := by
      rw [to4, if_neg (by omega)]
      simp only [h, true_and]
    rw [hstring, hto4, haddr, Option.map_some]
    by_cases hpre : v4InV6Prefix.isPrefixOf ip = true
    · obtain ⟨t, rfl⟩ := List.isPrefixOf_iff_prefix.mp hpre
      match t, h with
      | [a, b, c, d], _ =>
        rw [if_pos hpre]
        exact (parseAddr_dotted a b c d).trans (congrArg some (unmap_mapped a b c d "").symm)
    · have hgroups : ∀ a b c d, groups ip ≠ (mapped a b c d).toList := by
        intro a b c d heq
        rw [← groups_mapped] at heq
        refine hpre (List.isPrefixOf_iff_prefix.mpr ⟨[a, b, c, d], ?_⟩)
        exact (groups_inj (h.trans rfl) (by omega) heq).symm
      rw [if_neg hpre, if_neg (not_not_intro rfl),
        parseAddr_string6 ((length_groups ip).trans (congrArg (· / 2) h)), Addr.unmap, if_neg]
      exact fun heq => hgroups _ _ _ _ (congrArg Vector.toList heq)

/-- The bytes addresses are written with. -/
def Numeric (s : GoString) : Prop := ∀ b ∈ s, b = 0x2E ∨ b = 0x3A ∨ isLowerHex b = true

theorem numeric_string6 (gs : List UInt16) : Numeric (string6 gs) :=
  fun _ hb => Or.inr (mem_string6 hb)

theorem mem_dotted {bytes : List UInt8} {b : UInt8} (hb : b ∈ dotted bytes) :
    b = 0x2E ∨ 0x30 ≤ b.toNat ∧ b.toNat ≤ 0x39 := by
  rcases mem_join hb with hb | ⟨x, hx, hb⟩
  · exact Or.inl (List.mem_singleton.mp hb)
  · obtain ⟨e, -, rfl⟩ := List.mem_map.mp hx
    exact Or.inr (digit_of_mem_itoa hb)

theorem numeric_dotted (bytes : List UInt8) : Numeric (dotted bytes) := by
  intro b hb
  rcases mem_dotted hb with hb | hb
  · exact Or.inl hb
  · exact Or.inr (Or.inr (isLowerHex_of_digit hb))

theorem not_mem_dotted {bytes : List UInt8} {c : UInt8} (hdot : c ≠ 0x2E)
    (hdigit : ¬ (0x30 ≤ c.toNat ∧ c.toNat ≤ 0x39)) : c ∉ dotted bytes := by
  intro hc
  rcases mem_dotted hc with hc | hc
  · exact hdot hc
  · exact hdigit hc

theorem Numeric.not_mem {s : GoString} (h : Numeric s) {c : UInt8}
    (hc : c ≠ 0x2E ∧ c ≠ 0x3A ∧ isLowerHex c = false) : c ∉ s := by
  intro hmem
  rcases h c hmem with heq | heq | hdigit
  · exact hc.1 heq
  · exact hc.2.1 heq
  · rw [hc.2.2] at hdigit
    cases hdigit

theorem numeric_ipString {ip : List UInt8} (h : ip.length = 4 ∨ ip.length = 16) : Numeric (ipString ip) := by
  have hne : ip ≠ [] := List.ne_nil_of_length_pos (by omega)
  rw [ipString, if_neg hne, if_neg (by omega)]
  split_ifs
  · exact numeric_dotted _
  · exact numeric_string6 _

/-- An IPv4 address written into an IPv6 one. -/
def mappedText (a b c d : UInt8) : GoString := ("::ffff:" : GoString) ++ dotted [a, b, c, d]

theorem parseGroups_dotted (a b c d : UInt8) {e : ℕ} (hacc : acc.length + 2 ≤ 8) :
    parseGroups (n + 1) (dotted [a, b, c, d]) acc (some e) =
      some (acc ++ [group a b, group c d], some e) := by
  have hsplit := dotted_cons_cons a b [c, d]
  have hall : ∀ x ∈ itoa a.toNat, isHexDigit x = true := fun x hx =>
    isHexDigit_of_isLowerHex (isLowerHex_of_digit (digit_of_mem_itoa hx))
  have htake : (dotted [a, b, c, d]).takeWhile isHexDigit = itoa a.toNat := by
    rw [hsplit, List.takeWhile_append_of_pos hall, List.takeWhile_cons_of_neg (by decide), List.append_nil]
  have hdrop : (dotted [a, b, c, d]).dropWhile isHexDigit = 0x2E :: dotted [b, c, d] := by
    rw [hsplit, List.dropWhile_append_of_pos hall, List.dropWhile_cons_of_neg (by decide)]
  have hshort : (itoa a.toNat).length ≤ 4 :=
    length_itoa_le (by decide) (Nat.lt_trans a.toNat_lt (by decide))
  have hdot : (0x2E :: dotted [b, c, d]).head? = some 0x2E := rfl
  rw [parseGroups, htake, hdrop, if_neg (by simp [itoa_ne_nil]; omega), if_pos hdot,
    if_neg (by simp; omega), parseIPv4Fields_dotted]
  rfl

theorem parseAddr_colon (s : GoString) : parseAddr (0x3A :: s) = parseIPv6 (0x3A :: s) := rfl

theorem parseAddr_mappedText (a b c d : UInt8) :
    parseAddr (mappedText a b c d) = some (.v6 (mapped a b c d) "") := by
  have hhex : ("ffff" : GoString) = hexText 0xFFFF := by decide
  have hgroup : ("ffff:" : GoString) ++ dotted [a, b, c, d] =
      hexText 0xFFFF ++ 0x3A :: dotted [a, b, c, d] := by
    rw [← hhex]
    rfl
  have hne : dotted [a, b, c, d] ≠ [] := by
    rw [dotted_cons_cons]
    exact List.append_ne_nil_of_left_ne_nil (itoa_ne_nil _) _
  have hhead : (dotted [a, b, c, d]).head? ≠ some 0x3A := fun h =>
    not_mem_dotted (by decide) (by decide) (List.mem_of_head? h)
  have hpercent : (0x25 : UInt8) ∉ ("ffff:" : GoString) ++ dotted [a, b, c, d] := by
    rw [List.mem_append, not_or]
    exact ⟨by decide, not_mem_dotted (by decide) (by decide)⟩
  have hpre : mappedText a b c d = 0x3A :: 0x3A :: (("ffff:" : GoString) ++ dotted [a, b, c, d]) := rfl
  rw [hpre, parseAddr_colon, parseIPv6_colons hpercent, if_neg (by simp [hne]), hgroup,
    parseGroups_colon hne hhead, List.nil_append, parseGroups_dotted _ _ _ _ (by decide), Option.bind_some]
  rfl

/-! ## Hosts and ports -/

/-- `net.JoinHostPort`: brackets around a host that has colons. -/
def joinHostPort (host port : GoString) : GoString :=
  if 0x3A ∈ host then ("[" : GoString) ++ host ++ ("]:" : GoString) ++ port
  else host ++ (":" : GoString) ++ port

/-- `net.SplitHostPort`; `none` is an error. -/
def splitHostPort (s : GoString) : Option (GoString × GoString) :=
  match lastIndexByte s 0x3A with
  | none => none
  | some i =>
    if s.head? = some 0x5B then
      match s.findIdx? (· == 0x5D) with
      | none => none
      | some e =>
        if e + 1 ≠ i ∨ 0x5B ∈ s.drop 1 ∨ 0x5D ∈ s.drop (e + 1) then none
        else some ((s.take e).drop 1, s.drop (i + 1))
    else if 0x3A ∈ s.take i ∨ 0x5B ∈ s ∨ 0x5D ∈ s then none
    else some (s.take i, s.drop (i + 1))

theorem findIdx_append {x y : GoString} {b : UInt8} (hx : b ∉ x) :
    (x ++ b :: y).findIdx? (· == b) = some x.length := by
  have hnone : x.findIdx? (· == b) = none :=
    List.findIdx?_eq_none_iff.mpr fun c hc => beq_eq_false_iff_ne.mpr fun hcb => hx (hcb ▸ hc)
  rw [List.findIdx?_append, hnone, List.findIdx?_cons, if_pos (beq_self_eq_true b)]
  simp

theorem lastIndexByte_append {x y : GoString} {b : UInt8} (hy : b ∉ y) :
    lastIndexByte (x ++ b :: y) b = some x.length := by
  have hrev : (x ++ b :: y).reverse = y.reverse ++ b :: x.reverse := by simp
  rw [lastIndexByte, hrev, findIdx_append (by simpa using hy), Option.map_some, List.length_append,
    List.length_cons, List.length_reverse]
  congr 1
  omega

theorem splitHostPort_bracketed {host port : GoString} (hhost : 0x5B ∉ host ∧ 0x5D ∉ host)
    (hport : 0x3A ∉ port ∧ 0x5B ∉ port ∧ 0x5D ∉ port) :
    splitHostPort (0x5B :: (host ++ [0x5D]) ++ 0x3A :: port) = some (host, port) := by
  have hhead : (0x5B :: (host ++ [0x5D]) ++ 0x3A :: port).head? = some 0x5B := rfl
  have hend : (0x5B :: (host ++ [0x5D]) ++ 0x3A :: port).findIdx? (· == 0x5D) =
      some (0x5B :: host).length := by
    have hassoc : 0x5B :: (host ++ [0x5D]) ++ 0x3A :: port = (0x5B :: host) ++ 0x5D :: 0x3A :: port := by
      simp
    rw [hassoc]
    refine findIdx_append ?_
    rw [List.mem_cons, not_or]
    exact ⟨by decide, hhost.2⟩
  rw [splitHostPort, lastIndexByte_append hport.1]
  dsimp only
  rw [if_pos hhead, hend]
  dsimp only
  rw [if_neg]
  · simp
  · simp [hhost.1, hport]

theorem splitHostPort_plain {host port : GoString} (hhost : 0x5B ∉ host ∧ 0x5D ∉ host)
    (hcolon : 0x3A ∉ host) (hport : 0x3A ∉ port ∧ 0x5B ∉ port ∧ 0x5D ∉ port) :
    splitHostPort (host ++ 0x3A :: port) = some (host, port) := by
  have hhead : (host ++ 0x3A :: port).head? ≠ some 0x5B := by
    cases host with
    | nil => simp
    | cons b host =>
      rintro ⟨⟩
      exact hhost.1 List.mem_cons_self
  rw [splitHostPort, lastIndexByte_append hport.1]
  dsimp only
  rw [if_neg hhead, if_neg]
  · simp
  · simp [hcolon, hhost, hport]

theorem joinHostPort_of_mem {host : GoString} (h : 0x3A ∈ host) (port : GoString) :
    joinHostPort host port = 0x5B :: (host ++ [0x5D]) ++ 0x3A :: port := by
  have hopen : ("[" : GoString) = [0x5B] := rfl
  have hclose : ("]:" : GoString) = [0x5D, 0x3A] := rfl
  rw [joinHostPort, if_pos h, hopen, hclose]
  simp

theorem joinHostPort_of_not_mem {host : GoString} (h : 0x3A ∉ host) (port : GoString) :
    joinHostPort host port = host ++ 0x3A :: port := by
  rw [joinHostPort, if_neg h]
  exact List.append_assoc _ _ _

/-- **A host and a port are found again**, if there are no brackets in them and no colons in the port. -/
theorem splitHostPort_joinHostPort {host port : GoString} (hhost : 0x5B ∉ host ∧ 0x5D ∉ host)
    (hport : 0x3A ∉ port ∧ 0x5B ∉ port ∧ 0x5D ∉ port) :
    splitHostPort (joinHostPort host port) = some (host, port) := by
  by_cases hcolon : 0x3A ∈ host
  · rw [joinHostPort_of_mem hcolon]
    exact splitHostPort_bracketed hhost hport
  · rw [joinHostPort_of_not_mem hcolon]
    exact splitHostPort_plain hhost hcolon hport

end Idryx.Net
