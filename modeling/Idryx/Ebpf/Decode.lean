import Idryx.Lib.Layout

/-!
# The records of the sensor

`internal/ebpfcapture/bpf/connect.c` writes one `struct conn_event` for each connection and
`internal/ebpfcapture/decode.go` reads it back, by offsets of its own.

* `ConnEvent`, `members`, `Laid`: the struct, and the bytes it may have; `Sockaddr`, `onConnect`: what the
  sensor writes into it;
* `DecodedConnEvent`, `decodeConnEvent`, `ip`;
* `htons`, `ntohs`, `fields`: what a record says;
* `laid_iff`: the struct has no gaps; **`decodeConnEvent_laid`**: its bytes give its fields back;
* `ip_eq_iff`: where the two families read the same address; **`decodeConnEvent_roundTrip`**.
-/

namespace Idryx.Ebpf

open Layout

/-! ## The struct -/

/-- `struct conn_event`. -/
@[ext] structure ConnEvent where
  cgroupId : UInt64
  ktimeNs : UInt64
  pid : UInt32
  dport : Vector UInt8 2
  family : UInt8
  pad0 : UInt8
  daddr : Vector UInt8 16
  comm : Vector UInt8 16
  nsTgid : UInt32
  pad1 : UInt32

namespace ConnEvent

/-- The members in the order of the struct, numbers with the lowest byte first. -/
def members (ev : ConnEvent) : List Member :=
  [⟨8, le 8 ev.cgroupId.toNat⟩, ⟨8, le 8 ev.ktimeNs.toNat⟩, ⟨4, le 4 ev.pid.toNat⟩,
    ⟨1, ev.dport.toList⟩, ⟨1, [ev.family]⟩, ⟨1, [ev.pad0]⟩, ⟨1, ev.daddr.toList⟩,
    ⟨1, ev.comm.toList⟩, ⟨4, le 4 ev.nsTgid.toNat⟩, ⟨4, le 4 ev.pad1.toNat⟩]

/-- The record may have these bytes. -/
def Laid (ev : ConnEvent) (raw : List UInt8) : Prop := Image 8 0 ev.members raw

end ConnEvent

/-- An address to connect to, port and address as they are in the kernel's copy. -/
inductive Sockaddr where
  | inet (port : Vector UInt8 2) (addr : Vector UInt8 4)
  | inet6 (port : Vector UInt8 2) (addr : Vector UInt8 16)

/-- What the kernel says of the task that connects; a task has no id in the namespace of the sensor if it
is outside it. -/
structure Task where
  cgroupId : UInt64
  ktimeNs : UInt64
  pidTgid : UInt64
  comm : Vector UInt8 16
  nsTgid : Option UInt32

/-- The record `on_connect` submits. -/
def onConnect (address : Sockaddr) (task : Task) : ConnEvent where
  cgroupId := task.cgroupId
  ktimeNs := task.ktimeNs
  pid := (task.pidTgid >>> 32).toUInt32
  dport := match address with | .inet port _ => port | .inet6 port _ => port
  family := match address with | .inet _ _ => 4 | .inet6 _ _ => 6
  pad0 := 0
  daddr :=
    match address with
    | .inet _ addr => addr ++ (Vector.replicate 12 0 : Vector UInt8 12)
    | .inet6 _ addr => addr
  comm := task.comm
  nsTgid := task.nsTgid.getD 0
  pad1 := 0

/-! ## Decoding -/

/-- An address of the `net` package: sixteen bytes, those of an IPv4 address behind a prefix. -/
abbrev IP : Type := Vector UInt8 16

/-- `net.IPv4`. -/
def ipv4 (a b c d : UInt8) : IP := #v[0, 0, 0, 0, 0, 0, 0, 0, 0, 0, 0xFF, 0xFF, a, b, c, d]

/-- The bytes of a record. -/
def connEventSize : ℕ := 64

/-- `decodedConnEvent`. -/
@[ext] structure DecodedConnEvent where
  cgroupID : UInt64
  ktimeNS : UInt64
  pid : UInt32
  nsTgid : UInt32
  dport : UInt16
  family : UInt8
  daddr : Vector UInt8 16
  comm : Vector UInt8 16

/-- `copy` into an array that is zero. -/
def copyArray (n : ℕ) (src : List UInt8) : Vector UInt8 n := Vector.ofFn fun i => src.getD i 0

/-- `decodeConnEvent`; `none` for a record that is too short. -/
def decodeConnEvent (raw : List UInt8) : Option DecodedConnEvent :=
  if raw.length < connEventSize then none
  else some
    { cgroupID := UInt64.ofNat (ofLE (slice 0 8 raw))
      ktimeNS := UInt64.ofNat (ofLE (slice 8 16 raw))
      pid := UInt32.ofNat (ofLE (slice 16 20 raw))
      dport := UInt16.ofNat (ofLE (slice 20 22 raw).reverse)
      family := raw.getD 22 0
      daddr := copyArray 16 (slice 24 40 raw)
      comm := copyArray 16 (slice 40 56 raw)
      nsTgid := UInt32.ofNat (ofLE (slice 56 60 raw)) }

/-- `IP`; `none` for a family that is neither of the two. -/
def DecodedConnEvent.ip (e : DecodedConnEvent) : Option IP :=
  if e.family = 4 then some (ipv4 e.daddr[0] e.daddr[1] e.daddr[2] e.daddr[3])
  else if e.family = 6 then some e.daddr
  else none

/-! ## The round trip -/

/-- A port in the order of the network. -/
def htons (port : UInt16) : Vector UInt8 2 := #v[(port >>> 8).toUInt8, port.toUInt8]

/-- The port that two bytes in the order of the network are. -/
def ntohs (bytes : Vector UInt8 2) : UInt16 := UInt16.ofNat (256 * bytes[0].toNat + bytes[1].toNat)

/-- What the record says. -/
def ConnEvent.fields (ev : ConnEvent) : DecodedConnEvent where
  cgroupID := ev.cgroupId
  ktimeNS := ev.ktimeNs
  pid := ev.pid
  nsTgid := ev.nsTgid
  dport := ntohs ev.dport
  family := ev.family
  daddr := ev.daddr
  comm := ev.comm

variable {ev : ConnEvent} {raw rest : List UInt8}

/-- **The struct has no gaps.** -/
theorem laid_iff : ev.Laid raw ↔ raw = ev.members.flatMap Member.bytes := by
  refine image_iff ?_
  simp only [ConnEvent.members, Packed, length_le, Vector.length_toList, List.length_cons,
    List.length_nil]
  decide

theorem lengths_members (ev : ConnEvent) :
    ev.members.map (fun m => m.bytes.length) = [8, 8, 4, 2, 1, 1, 16, 16, 4, 4] := by
  simp [ConnEvent.members]

theorem length_laid (h : ev.Laid raw) : raw.length = connEventSize := by
  rw [laid_iff.mp h, List.length_flatMap, lengths_members]
  rfl

theorem copyArray_toList {n : ℕ} (v : Vector UInt8 n) : copyArray n v.toList = v := by
  ext i hi
  simp [copyArray]

theorem toList_two {α : Type*} (v : Vector α 2) : v.toList = [v[0], v[1]] := by
  obtain ⟨⟨xs⟩, h⟩ := v
  match xs, h with
  | [_, _], _ => rfl

/-- **The bytes of a record give its fields back**, whatever follows them. -/
theorem decodeConnEvent_laid (h : ev.Laid raw) : decodeConnEvent (raw ++ rest) = some ev.fields := by
  have hlen : ¬ (raw ++ rest).length < connEventSize := by
    rw [List.length_append, length_laid h]
    omega
  have hmember : ∀ {m : Member} {i a b : ℕ}, ev.members[i]? = some m →
      ([8, 8, 4, 2, 1, 1, 16, 16, 4, 4].take i).sum = a →
      ([8, 8, 4, 2, 1, 1, 16, 16, 4, 4].take (i + 1)).sum = b → slice a b (raw ++ rest) = m.bytes := by
    intro m i a b hm ha hb
    rw [laid_iff.mp h]
    exact slice_member (lengths_members ev) hm ha hb
  have hcgroup : slice 0 8 (raw ++ rest) = le 8 ev.cgroupId.toNat := hmember (i := 0) rfl rfl rfl
  have hktime : slice 8 16 (raw ++ rest) = le 8 ev.ktimeNs.toNat := hmember (i := 1) rfl rfl rfl
  have hpid : slice 16 20 (raw ++ rest) = le 4 ev.pid.toNat := hmember (i := 2) rfl rfl rfl
  have hdport : slice 20 22 (raw ++ rest) = ev.dport.toList := hmember (i := 3) rfl rfl rfl
  have hfamily : slice 22 23 (raw ++ rest) = [ev.family] := hmember (i := 4) rfl rfl rfl
  have hdaddr : slice 24 40 (raw ++ rest) = ev.daddr.toList := hmember (i := 6) rfl rfl rfl
  have hcomm : slice 40 56 (raw ++ rest) = ev.comm.toList := hmember (i := 7) rfl rfl rfl
  have hnsTgid : slice 56 60 (raw ++ rest) = le 4 ev.nsTgid.toNat := hmember (i := 8) rfl rfl rfl
  -- the port is the one number with its highest byte first
  have hport : ofLE ev.dport.toList.reverse = 256 * ev.dport[0].toNat + ev.dport[1].toNat := by
    rw [toList_two]
    simp [ofLE]
    omega
  rw [decodeConnEvent, if_neg hlen, hcgroup, hktime, hpid, hdport, hdaddr, hcomm, hnsTgid, hport,
    getD_of_slice hfamily, copyArray_toList, copyArray_toList, ofLE_le_of_lt ev.cgroupId.toNat_lt,
    ofLE_le_of_lt ev.ktimeNs.toNat_lt, ofLE_le_of_lt ev.pid.toNat_lt, ofLE_le_of_lt ev.nsTgid.toNat_lt,
    UInt64.ofNat_toNat, UInt64.ofNat_toNat, UInt32.ofNat_toNat, UInt32.ofNat_toNat]
  rfl

theorem toNat_ntohs (bytes : Vector UInt8 2) :
    (ntohs bytes).toNat = 256 * bytes[0].toNat + bytes[1].toNat := by
  have h₀ := bytes[0].toNat_lt
  have h₁ := bytes[1].toNat_lt
  exact UInt16.toNat_ofNat_of_lt' (by rw [UInt16.size]; omega)

theorem ntohs_htons (port : UInt16) : ntohs (htons port) = port := by
  have hlt := port.toNat_lt
  have hhigh : (htons port)[0].toNat = port.toNat / 256 := by
    simp [htons, Nat.shiftRight_eq_div_pow]
    omega
  have hlow : (htons port)[1].toNat = port.toNat % 256 := by simp [htons]
  apply UInt16.toNat_inj.mp
  rw [toNat_ntohs, hhigh, hlow]
  omega

theorem ntohs_inj {v w : Vector UInt8 2} (h : ntohs v = ntohs w) : v = w := by
  have hv := toNat_ntohs v
  rw [h, toNat_ntohs] at hv
  have hlow : v[1].toNat < 256 := v[1].toNat_lt
  have hlow' : w[1].toNat < 256 := w[1].toNat_lt
  apply Vector.toList_inj.mp
  rw [toList_two, toList_two, UInt8.toNat_inj.mp (by omega : v[0].toNat = w[0].toNat),
    UInt8.toNat_inj.mp (by omega : v[1].toNat = w[1].toNat)]

theorem fields_inj {ev ev' : ConnEvent} (h : ev.fields = ev'.fields) :
    { ev' with pad0 := ev.pad0, pad1 := ev.pad1 } = ev := by
  obtain ⟨hcgroup, hktime, hpid, hns, hport, hfamily, hdaddr, hcomm⟩ := DecodedConnEvent.ext_iff.mp h
  exact ConnEvent.ext hcgroup.symm hktime.symm hpid.symm (ntohs_inj hport).symm hfamily.symm rfl
    hdaddr.symm hcomm.symm hns.symm rfl

/-! ## Addresses -/

/-- The address the kernel connects to. -/
def Sockaddr.ip : Sockaddr → IP
  | .inet _ addr => ipv4 addr[0] addr[1] addr[2] addr[3]
  | .inet6 _ addr => addr

theorem ip_four {e : DecodedConnEvent} (h : e.family = 4) :
    e.ip = some (ipv4 e.daddr[0] e.daddr[1] e.daddr[2] e.daddr[3]) := if_pos h

theorem ip_six {e : DecodedConnEvent} (h : e.family = 6) : e.ip = some e.daddr := by
  have hfour : e.family ≠ 4 := by rw [h]; decide
  rw [DecodedConnEvent.ip, if_neg hfour, if_pos h]

theorem ip_eq_none {e : DecodedConnEvent} (h₄ : e.family ≠ 4) (h₆ : e.family ≠ 6) : e.ip = none := by
  rw [DecodedConnEvent.ip, if_neg h₄, if_neg h₆]

/-- **The address a record was written for** is the one that is read. -/
theorem ip_onConnect (address : Sockaddr) (task : Task) :
    (onConnect address task).fields.ip = some address.ip := by
  cases address with
  | inet port addr =>
    have hbyte : ∀ i (hi : i < 4), (addr ++ (Vector.replicate 12 0 : Vector UInt8 12))[i] = addr[i] :=
      fun i hi => Vector.getElem_append_left hi
    rw [ip_four rfl]
    exact congrArg some (congr (congr (congrArg₂ ipv4 (hbyte 0 (by decide)) (hbyte 1 (by decide)))
      (hbyte 2 (by decide))) (hbyte 3 (by decide)))
  | inet6 port addr => rw [ip_six rfl]; rfl

/-- **The two families read one address** only where the bytes are those of `::ffff:0.0.0.0`. -/
theorem ip_eq_iff (e : DecodedConnEvent) :
    ({ e with family := 4 } : DecodedConnEvent).ip = ({ e with family := 6 } : DecodedConnEvent).ip ↔
      e.daddr = ipv4 0 0 0 0 := by
  rw [ip_four rfl, ip_six rfl, Option.some.injEq]
  dsimp only
  constructor
  · intro h
    have hzero : ∀ i (hi : i < 4), e.daddr[i] = 0 := by
      intro i hi
      rw [← h]
      match i, hi with
      | 0, _ | 1, _ | 2, _ | 3, _ => rfl
    rw [← h, hzero 0 (by decide), hzero 1 (by decide), hzero 2 (by decide), hzero 3 (by decide)]
  · intro h
    rw [h]
    rfl

/-- On these bytes they do. -/
theorem not_ip_ne :
    ¬ ∀ e : DecodedConnEvent, ({ e with family := 4 } : DecodedConnEvent).ip ≠
      ({ e with family := 6 } : DecodedConnEvent).ip := by
  intro h
  exact h ⟨0, 0, 0, 0, 0, 0, ipv4 0 0 0 0, Vector.replicate 16 0⟩ (by rfl)

/-- **The round trip**: the bytes of a record give back its values, whatever follows them, and no record
that is shorter is read; the address is the one that was written, none for a family that is not one of
the two, and not the same for both families but on the bytes of `::ffff:0.0.0.0`. -/
theorem decodeConnEvent_roundTrip :
    (∀ (ev : ConnEvent) (raw rest : List UInt8), ev.Laid raw →
      decodeConnEvent (raw ++ rest) = some ev.fields) ∧
    (∀ ev ev' : ConnEvent, ev.fields = ev'.fields →
      { ev' with pad0 := ev.pad0, pad1 := ev.pad1 } = ev) ∧
    (∀ port, ntohs (htons port) = port) ∧
    (∀ raw : List UInt8, raw.length < 64 → decodeConnEvent raw = none) ∧
    (∀ (address : Sockaddr) (task : Task) (raw rest : List UInt8), (onConnect address task).Laid raw →
      (decodeConnEvent (raw ++ rest)).bind DecodedConnEvent.ip = some address.ip) ∧
    (∀ e : DecodedConnEvent, e.family = 4 →
      e.ip = some (ipv4 e.daddr[0] e.daddr[1] e.daddr[2] e.daddr[3])) ∧
    (∀ e : DecodedConnEvent, e.family = 6 → e.ip = some e.daddr) ∧
    (∀ e : DecodedConnEvent, ({ e with family := 4 } : DecodedConnEvent).ip =
      ({ e with family := 6 } : DecodedConnEvent).ip ↔ e.daddr = ipv4 0 0 0 0) ∧
    ∀ e : DecodedConnEvent, e.family ≠ 4 → e.family ≠ 6 → e.ip = none := by
  refine ⟨fun _ _ _ h => decodeConnEvent_laid h, fun _ _ h => fields_inj h, ntohs_htons, ?_, ?_,
    fun _ h => ip_four h, fun _ h => ip_six h, ip_eq_iff, fun _ h₄ h₆ => ip_eq_none h₄ h₆⟩
  · intro raw hshort
    exact if_pos hshort
  · intro address task raw rest h
    rw [decodeConnEvent_laid h]
    exact ip_onConnect address task

end Idryx.Ebpf
