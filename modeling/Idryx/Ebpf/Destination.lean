import Idryx.Go.Net

/-!
# The destinations the sensor reports

`internal/ebpfcapture/decode.go`: an address and a port as one text.

* `itoa`, `destination`; **`itoa_eq`**: the port is written as its decimal numeral;
* `splitHostPort_destination`: the address and the port are found again;
* `destination_ne`: what a table of names changes.
-/

namespace Idryx.Ebpf

open Net

/-- The loop of `itoa`: the digits of `port` in front of `b`, with `i` bytes free. -/
def itoaLoop : ℕ → ℕ → GoString → GoString
  | 0, _, b => b
  | i + 1, port, b => if port = 0 then b else itoaLoop i (port / 10) (Strconv.digit (port % 10) :: b)

/-- `itoa`. -/
def itoa (port : UInt16) : GoString := if port = 0 then "0" else itoaLoop 5 port.toNat []

/-- `destination`; `llmIPs` is the table of the names that resolve to an address. -/
def destination (ip : List UInt8) (port : UInt16) (llmIPs : GoString → Option GoString) : GoString :=
  let host := ipString ip
  let host := if port = 443 then (llmIPs host).getD host else host
  joinHostPort host (itoa port)

theorem itoaLoop_eq {i n : ℕ} (hpos : 0 < n) (hlt : n < 10 ^ i) (b : GoString) :
    itoaLoop i n b = Strconv.itoa n ++ b := by
  induction i generalizing n b with
  | zero => omega
  | succ i ih =>
    rw [itoaLoop, if_neg (by omega), Strconv.itoa_eq]
    split_ifs with hdigit
    · have hzero : n / 10 = 0 := by omega
      have hmod : n % 10 = n := by omega
      rw [hzero, hmod]
      cases i <;> rfl
    · have hdiv : n / 10 < 10 ^ i := by
        rw [pow_succ] at hlt
        omega
      rw [ih (by omega) hdiv, List.append_assoc]
      rfl

/-- **A port is written as its decimal numeral.** -/
theorem itoa_eq (port : UInt16) : itoa port = Strconv.itoa port.toNat := by
  unfold itoa
  split_ifs with hzero
  · rw [hzero]
    decide
  · have hpos : 0 < port.toNat := Nat.pos_of_ne_zero fun h => hzero (UInt16.toNat_inj.mp h)
    have hlt : port.toNat < 65536 := port.toNat_lt
    rw [itoaLoop_eq hpos (by omega), List.append_nil]

theorem not_mem_itoa {port : UInt16} {c : UInt8} (hc : ¬ (0x30 ≤ c.toNat ∧ c.toNat ≤ 0x39)) :
    c ∉ itoa port := by
  rw [itoa_eq]
  exact Net.not_mem_itoa hc

theorem port_itoa (port : UInt16) : 0x3A ∉ itoa port ∧ 0x5B ∉ itoa port ∧ 0x5D ∉ itoa port :=
  ⟨not_mem_itoa (by decide), not_mem_itoa (by decide), not_mem_itoa (by decide)⟩

/-- **The address and the port are found again.** -/
theorem splitHostPort_destination {ip : List UInt8} (h : ip.length = 4 ∨ ip.length = 16) (port : UInt16) :
    splitHostPort (destination ip port fun _ => none) = some (ipString ip, itoa port) := by
  have hnumeric := numeric_ipString h
  have hhost : destination ip port (fun _ => none) = joinHostPort (ipString ip) (itoa port) := by
    simp [destination]
  rw [hhost]
  exact splitHostPort_joinHostPort ⟨hnumeric.not_mem (by decide), hnumeric.not_mem (by decide)⟩
    (port_itoa port)

/-- **A table of names** changes what goes to port 443 of an address in the table, into the name. -/
theorem destination_ne {ip : List UInt8} {port : UInt16} {llmIPs : GoString → Option GoString}
    (h : destination ip port llmIPs ≠ destination ip port fun _ => none) :
    port = 443 ∧ ∃ name, llmIPs (ipString ip) = some name ∧
      destination ip port llmIPs = joinHostPort name "443" := by
  by_cases hport : port = 443
  · subst hport
    refine ⟨rfl, ?_⟩
    cases hname : llmIPs (ipString ip) with
    | none =>
      refine absurd ?_ h
      simp [destination, hname]
    | some name =>
      refine ⟨name, rfl, ?_⟩
      have htext : itoa 443 = "443" := by decide
      simp [destination, hname, htext]
  · refine absurd ?_ h
    simp [destination, hport]

end Idryx.Ebpf
