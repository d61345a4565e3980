import Idryx.Ebpf.Destination
import Idryx.Go.Search

/-!
# The destinations a detector judges

`internal/detect/detectors/unrouted_egress.go`: the host of a destination, and whether it is one on the
public internet.

* `destinationHost`, `isPublicAddr`, `isPublicDestination`;
* `isPublicDestination_eq`: an address is judged by what it is, however it is written;
* `destinationHost_bare`, `destinationHost_bracketed`, `destinationHost_port`: brackets and a port around it;
* **`destination_roundTrip`**: what the sensor writes is read back, and one verdict on an IPv4 address.
-/

namespace Idryx

open Net Strings

/-! ## The detector's side -/

/-- One of the brackets of an IPv6 address. -/
def isBracket (b : UInt8) : Bool := b == 0x5B || b == 0x5D

/-- `strings.Trim` of brackets. -/
def trimBrackets (s : GoString) : GoString :=
  ((s.dropWhile isBracket).reverse.dropWhile isBracket).reverse

/-- `destinationHost`. -/
def destinationHost (U : Unicode) (resource : GoString) : GoString :=
  match splitHostPort resource with
  | some (host, _) => toLower U (trimSpace host)
  | none => toLower U (trimSpace (trimBrackets resource))

/-- `IsLoopback`, of an address that is not an IPv4 address in an IPv6 one. -/
def isLoopback : Addr → Bool
  | .v4 a _ _ _ => a == 127
  | .v6 g _ => g == #v[0, 0, 0, 0, 0, 0, 0, 1]

/-- `IsMulticast`. -/
def isMulticast : Addr → Bool
  | .v4 a _ _ _ => a &&& 0xF0 == 0xE0
  | .v6 g _ => high g[0] == 0xFF

/-- `IsLinkLocalUnicast`. -/
def isLinkLocalUnicast : Addr → Bool
  | .v4 a b _ _ => a == 169 && b == 254
  | .v6 g _ => g[0] &&& 0xFFC0 == 0xFE80

/-- `IsGlobalUnicast`. -/
def isGlobalUnicast (addr : Addr) : Bool :=
  addr != .v4 0 0 0 0 && addr != .v4 255 255 255 255 && addr != .v6 (Vector.replicate 8 0) "" &&
    !isLoopback addr && !isMulticast addr && !isLinkLocalUnicast addr

/-- `IsPrivate`. -/
def isPrivate : Addr → Bool
  | .v4 a b _ _ => a == 10 || (a == 172 && b &&& 0xF0 == 16) || (a == 192 && b == 168)
  | .v6 g _ => high g[0] &&& 0xFE == 0xFC

/-- The two ranges that have no predicate: carrier-grade NAT, and this network. -/
def inNamedRange : Addr → Bool
  | .v4 a b _ _ => (a == 100 && b &&& 0xC0 == 64) || a == 0
  | .v6 _ _ => false

/-- What `isPublicDestination` makes of an address. -/
def isPublicAddr (addr : Addr) : Bool :=
  isGlobalUnicast addr && !isPrivate addr && !inNamedRange addr

/-- The suffixes of names inside a deployment. -/
def internalSuffixes : List GoString := [".internal", ".local", ".localdomain", ".cluster.local"]

/-- `isPublicDestination`. -/
def isPublicDestination (host : GoString) : Bool :=
  if internalSuffixes.any (hasSuffix host) then false
  else if host = "localhost" ∨ host = "" then false
  else
    match parseAddr host with
    | none => true
    | some addr => isPublicAddr addr.unmap

/-! ## Addresses as hosts -/

section Hosts

variable {U : Unicode} {t : GoString} {port : GoString}

theorem toLower_numeric (h : Numeric t) : toLower U (trimSpace t) = t := by
  have htable : ∀ b : UInt8, b = 0x2E ∨ b = 0x3A ∨ isLowerHex b = true →
      Printable b ∧ lowerByte b = b ∧ b < 0x80 := by
    refine forall_byte ?_
    decide +kernel
  rw [trimSpace_printable fun b hb => (htable b (h b hb)).1,
    toLower_ascii U fun b hb => (htable b (h b hb)).2.2]
  exact (List.map_congr_left fun b hb => (htable b (h b hb)).2.1).trans (List.map_id' t)

/-- **An address is judged by what it is**, however it is written. -/
theorem isPublicDestination_eq {addr : Addr} (h : Numeric t) (haddr : parseAddr t = some addr) :
    isPublicDestination t = isPublicAddr addr.unmap := by
  -- the suffixes and the one name have letters that are no digits
  have hl : (0x6C : UInt8) ∉ t := h.not_mem (by decide)
  have hn : (0x6E : UInt8) ∉ t := h.not_mem (by decide)
  have hsuffix : internalSuffixes.any (hasSuffix t) = false := by
    rw [List.any_eq_false]
    intro e he hsuf
    have hsub := (List.isSuffixOf_iff_suffix.mp hsuf).subset
    have hletter : ∀ e ∈ internalSuffixes, (0x6C : UInt8) ∈ e := by decide
    exact hl (hsub (hletter e he))
  have hname : ¬ (t = "localhost" ∨ t = "") := by
    rintro (rfl | rfl)
    · exact hl (by decide)
    · cases haddr
  rw [isPublicDestination, hsuffix, if_neg Bool.false_ne_true, if_neg hname, haddr]

theorem not_isBracket (h : Numeric t) : ∀ b ∈ t, isBracket b = false := by
  intro b hb
  rw [Bool.eq_false_iff]
  intro hbracket
  simp only [isBracket, Bool.or_eq_true, beq_iff_eq] at hbracket
  rcases hbracket with rfl | rfl
  · exact h.not_mem (by decide) hb
  · exact h.not_mem (by decide) hb

theorem dropWhile_isBracket {s : GoString} (h : ∀ b ∈ s, isBracket b = false) :
    s.dropWhile isBracket = s := by
  cases s with
  | nil => rfl
  | cons b s => rw [List.dropWhile_cons_of_neg (by simp [h b List.mem_cons_self])]

theorem trimBrackets_numeric (h : Numeric t) : trimBrackets t = t := by
  have hno := not_isBracket h
  rw [trimBrackets, dropWhile_isBracket hno, dropWhile_isBracket (by simpa using hno), List.reverse_reverse]

theorem trimBrackets_bracketed (h : Numeric t) (ht : t ≠ []) :
    trimBrackets (0x5B :: (t ++ [0x5D])) = t := by
  have hno := not_isBracket h
  have hfront : (t ++ [0x5D]).dropWhile isBracket = t ++ [0x5D] := by
    obtain ⟨b, s, rfl⟩ := List.exists_cons_of_ne_nil ht
    rw [List.cons_append, List.dropWhile_cons_of_neg (by simp [hno b List.mem_cons_self])]
  rw [trimBrackets, List.dropWhile_cons_of_pos rfl, hfront, List.reverse_append, List.reverse_singleton,
    List.singleton_append, List.dropWhile_cons_of_pos rfl, dropWhile_isBracket (by simpa using hno),
    List.reverse_reverse]

/-- The hosts that may stand without a port: no colons, or several. -/
structure Bare (t : GoString) : Prop where
  numeric : Numeric t
  ne_nil : t ≠ []
  colons : t.count 0x3A ≠ 1

theorem Bare.no_brackets (h : Bare t) : 0x5B ∉ t ∧ 0x5D ∉ t :=
  ⟨h.numeric.not_mem (by decide), h.numeric.not_mem (by decide)⟩

theorem lastIndexByte_eq_none {s : GoString} {b : UInt8} (h : b ∉ s) : lastIndexByte s b = none := by
  have hnone : s.reverse.findIdx? (· == b) = none :=
    List.findIdx?_eq_none_iff.mpr fun c hc =>
      beq_eq_false_iff_ne.mpr fun hcb => h (hcb ▸ List.mem_reverse.mp hc)
  rw [lastIndexByte, hnone, Option.map_none]

theorem exists_last {s : GoString} {b : UInt8} (h : b ∈ s) : ∃ x y, s = x ++ b :: y ∧ b ∉ y := by
  obtain ⟨x, y, hsplit, hx⟩ := List.eq_append_cons_of_mem (List.mem_reverse.mpr h)
  refine ⟨y.reverse, x.reverse, ?_, by simpa using hx⟩
  rw [← List.reverse_reverse s, hsplit]
  simp

theorem splitHostPort_bare (h : Bare t) : splitHostPort t = none := by
  by_cases hcolon : 0x3A ∈ t
  · obtain ⟨x, y, hsplit, hy⟩ := exists_last hcolon
    have hx : (0x3A : UInt8) ∈ x := by
      have hcount := h.colons
      rw [hsplit, List.count_append, List.count_cons_self, List.count_eq_zero_of_not_mem hy] at hcount
      exact List.count_pos_iff.mp (by omega)
    have hhead : t.head? ≠ some 0x5B := fun hhead => h.no_brackets.1 (List.mem_of_head? hhead)
    rw [splitHostPort, hsplit, lastIndexByte_append hy]
    dsimp only
    rw [if_neg (hsplit ▸ hhead), if_pos]
    exact Or.inl (by rwa [List.take_left])
  · rw [splitHostPort, lastIndexByte_eq_none hcolon]

theorem splitHostPort_bracketed_bare (h : Bare t) : splitHostPort (0x5B :: (t ++ [0x5D])) = none := by
  by_cases hcolon : 0x3A ∈ t
  · obtain ⟨x, y, rfl, hy⟩ := exists_last hcolon
    have hassoc : 0x5B :: (x ++ 0x3A :: y ++ [0x5D]) = (0x5B :: x) ++ 0x3A :: (y ++ [0x5D]) := by simp
    have hend : (0x5B :: (x ++ 0x3A :: y ++ [0x5D])).findIdx? (· == 0x5D) =
        some (0x5B :: (x ++ 0x3A :: y)).length := by
      refine findIdx_append (x := 0x5B :: (x ++ 0x3A :: y)) ?_
      rw [List.mem_cons, not_or]
      exact ⟨by decide, h.no_brackets.2⟩
    have hlast : lastIndexByte (0x5B :: (x ++ 0x3A :: y ++ [0x5D])) 0x3A = some (0x5B :: x).length := by
      rw [hassoc]
      exact lastIndexByte_append (by simpa using hy)
    have hhead : (0x5B :: (x ++ 0x3A :: y ++ [0x5D])).head? = some 0x5B := rfl
    rw [splitHostPort, hlast]
    dsimp only
    rw [if_pos hhead, hend]
    dsimp only
    rw [if_pos]
    refine Or.inl ?_
    simp only [List.length_cons, List.length_append]
    omega
  · have hnone : lastIndexByte (0x5B :: (t ++ [0x5D])) 0x3A = none :=
      lastIndexByte_eq_none (by simpa using hcolon)
    rw [splitHostPort, hnone]

theorem destinationHost_bare (h : Bare t) : destinationHost U t = t := by
  rw [destinationHost, splitHostPort_bare h]
  dsimp only
  rw [trimBrackets_numeric h.numeric, toLower_numeric h.numeric]

theorem destinationHost_bracketed (h : Bare t) : destinationHost U (0x5B :: (t ++ [0x5D])) = t := by
  rw [destinationHost, splitHostPort_bracketed_bare h]
  dsimp only
  rw [trimBrackets_bracketed h.numeric h.ne_nil, toLower_numeric h.numeric]

theorem destinationHost_port (h : Numeric t) (port : UInt16) :
    destinationHost U (joinHostPort t (Ebpf.itoa port)) = t := by
  have hno : 0x5B ∉ t ∧ 0x5D ∉ t := ⟨h.not_mem (by decide), h.not_mem (by decide)⟩
  rw [destinationHost, splitHostPort_joinHostPort hno (Ebpf.port_itoa port)]
  exact toLower_numeric h

theorem destinationHost_bracketed_port (h : Numeric t) (port : UInt16) :
    destinationHost U (0x5B :: (t ++ [0x5D]) ++ 0x3A :: Ebpf.itoa port) = t := by
  have hno : 0x5B ∉ t ∧ 0x5D ∉ t := ⟨h.not_mem (by decide), h.not_mem (by decide)⟩
  rw [destinationHost, splitHostPort_bracketed hno (Ebpf.port_itoa port)]
  exact toLower_numeric h

end Hosts

/-! ## The round trip -/

/-- **The address the sensor writes is read back.** -/
theorem parseAddr_destinationHost (U : Unicode) {ip : List UInt8} (h : ip.length = 4 ∨ ip.length = 16)
    (port : UInt16) : parseAddr (destinationHost U (Ebpf.destination ip port fun _ => none)) =
      (addrFromSlice ip).map Addr.unmap := by
  have hhost : destinationHost U (Ebpf.destination ip port fun _ => none) = ipString ip := by
    rw [destinationHost, Ebpf.splitHostPort_destination h]
    exact toLower_numeric (numeric_ipString h)
  rw [hhost, parseAddr_ipString h]

/-- The texts of an IPv4 address: itself, and in an IPv6 one, in decimal and in hexadecimal. -/
def textsOf (a b c d : UInt8) : List GoString :=
  [dotted [a, b, c, d], mappedText a b c d, string6 (mapped a b c d).toList]

/-- A host without and with brackets and a port. -/
def formsOf (t : GoString) (port : UInt16) : List GoString :=
  [t, 0x5B :: (t ++ [0x5D]), joinHostPort t (Ebpf.itoa port), 0x5B :: (t ++ [0x5D]) ++ 0x3A :: Ebpf.itoa port]

theorem bare_textsOf {a b c d : UInt8} {t : GoString} (ht : t ∈ textsOf a b c d) : Bare t := by
  simp only [textsOf, List.mem_cons, List.not_mem_nil, or_false] at ht
  rcases ht with rfl | rfl | rfl
  · refine ⟨numeric_dotted _, ?_, ?_⟩
    · rw [dotted_cons_cons]
      exact List.append_ne_nil_of_left_ne_nil (Strconv.itoa_ne_nil _) _
    · rw [List.count_eq_zero_of_not_mem (not_mem_dotted (by decide) (by decide))]
      decide
  · have hpre : ∀ b ∈ ("::ffff:" : GoString), b = 0x2E ∨ b = 0x3A ∨ isLowerHex b = true :=
      forall_mem_of_all (by decide)
    have hcount : ("::ffff:" : GoString).count 0x3A = 3 := by decide
    refine ⟨fun e he => ?_, List.append_ne_nil_of_left_ne_nil (by decide) _, ?_⟩
    · rcases List.mem_append.mp he with he | he
      · exact hpre e he
      · exact numeric_dotted _ e he
    · rw [mappedText, List.count_append, hcount]
      omega
  · have hcount : 2 ≤ (string6 (mapped a b c d).toList).count 0x3A := two_le_count_string6 (by rfl)
    refine ⟨numeric_string6 _, ?_, by omega⟩
    intro hnil
    rw [hnil] at hcount
    exact absurd hcount (by decide)

theorem parseAddr_textsOf {a b c d : UInt8} {t : GoString} (ht : t ∈ textsOf a b c d) :
    (parseAddr t).map Addr.unmap = some (.v4 a b c d) := by
  simp only [textsOf, List.mem_cons, List.not_mem_nil, or_false] at ht
  rcases ht with rfl | rfl | rfl
  · rw [parseAddr_dotted]
    rfl
  · rw [parseAddr_mappedText, Option.map_some, unmap_mapped]
  · rw [parseAddr_string6 (by rfl), Option.map_some]
    exact congrArg some (unmap_mapped a b c d "")

/-- **One verdict on an IPv4 address.** -/
theorem isPublicDestination_form (U : Unicode) {a b c d : UInt8} {port : UInt16} {t r : GoString}
    (ht : t ∈ textsOf a b c d) (hr : r ∈ formsOf t port) :
    isPublicDestination (destinationHost U r) = isPublicAddr (.v4 a b c d) := by
  have hbare := bare_textsOf ht
  have hhost : destinationHost U r = t := by
    simp only [formsOf, List.mem_cons, List.not_mem_nil, or_false] at hr
    rcases hr with rfl | rfl | rfl | rfl
    · exact destinationHost_bare hbare
    · exact destinationHost_bracketed hbare
    · exact destinationHost_port hbare.numeric port
    · exact destinationHost_bracketed_port hbare.numeric port
  obtain ⟨addr, haddr, hunmap⟩ := Option.map_eq_some_iff.mp (parseAddr_textsOf ht)
  rw [hhost, isPublicDestination_eq hbare.numeric haddr, hunmap]

/-- A port behind an IPv6 address without brackets is taken for a part of it. -/
theorem not_one_verdict :
    ¬ ∀ (U : Unicode) (a b c d : UInt8) (port : UInt16), ∀ t ∈ textsOf a b c d,
      isPublicDestination (destinationHost U (t ++ 0x3A :: Ebpf.itoa port)) =
        isPublicDestination (destinationHost U (dotted [a, b, c, d])) := by
  intro h
  have hcase := h Unicode.basic 10 0 0 1 443 (mappedText 10 0 0 1) (by decide)
  revert hcase
  decide +kernel

/-- **What the sensor writes is read back**: the address, an IPv4 address in an IPv6 one as the IPv4
address, and the port as its numeral, which has no leading zeros; every way of writing an IPv4 address is
judged the same, brackets and port around it or not; and a table of names changes only what goes to port
443 of an address in it, into the name. -/
theorem destination_roundTrip (U : Unicode) :
    (∀ (ip : List UInt8) (port : UInt16), ip.length = 4 ∨ ip.length = 16 →
      parseAddr (destinationHost U (Ebpf.destination ip port fun _ => none)) =
          (addrFromSlice ip).map Addr.unmap ∧
        (addrFromSlice ip).isSome ∧
        splitHostPort (Ebpf.destination ip port fun _ => none) = some (ipString ip, Ebpf.itoa port)) ∧
    (∀ port : UInt16, Ebpf.itoa port = Strconv.itoa port.toNat ∧
      Strconv.decimal (Ebpf.itoa port) = port.toNat ∧
      (∀ b ∈ Ebpf.itoa port, 0x30 ≤ b.toNat ∧ b.toNat ≤ 0x39) ∧
      (0 < port.toNat → (Ebpf.itoa port).head? ≠ some 0x30)) ∧
    (∀ (a b c d : UInt8) (port : UInt16), ∀ t ∈ textsOf a b c d, ∀ r ∈ formsOf t port,
      isPublicDestination (destinationHost U r) = isPublicAddr (.v4 a b c d)) ∧
    ∀ (ip : List UInt8) (port : UInt16) (llmIPs : GoString → Option GoString),
      Ebpf.destination ip port llmIPs ≠ Ebpf.destination ip port (fun _ => none) →
        port = 443 ∧ ∃ name, llmIPs (ipString ip) = some name ∧
          Ebpf.destination ip port llmIPs = joinHostPort name "443" := by
  refine ⟨fun ip port h => ⟨parseAddr_destinationHost U h port, ?_, Ebpf.splitHostPort_destination h port⟩,
    fun port => ?_, fun _ _ _ _ _ _ ht _ hr => isPublicDestination_form U ht hr,
    fun _ _ _ h => Ebpf.destination_ne h⟩
  · exact isSome_addrFromSlice h
  · rw [Ebpf.itoa_eq]
    exact ⟨rfl, Strconv.decimal_itoa _, fun _ hb => Strconv.digit_of_mem_itoa hb, Strconv.head_itoa⟩

end Idryx
