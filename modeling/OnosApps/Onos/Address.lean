import Mathlib.Order.Fin.Basic

/-!
# Addresses, prefixes and connect points

The identifiers of ONOS that the applications read: hardware addresses, IPv4 addresses and
prefixes, devices, ports and connect points. A prefix carries the proofs that its length is
at most 32 and that its address is masked to that length, as every prefix built by
`IpPrefix.valueOf` is.

## Main definitions

* `MacAddress`, `Ip4Address`, `DeviceId`, `PortNumber`, `ConnectPoint`
* `IpPrefix`, `IpPrefix.valueOf`, `IpPrefix.contains`, `IpPrefix.Overlaps`

## Main results

* `IpPrefix.contains_valueOf`: the addresses of `valueOf ip len` are those that agree with
  `ip` on the first `len` bits
* `IpPrefix.valueOf_eq_valueOf_iff`: prefixes of one length are equal exactly when the
  addresses agree on it
* `IpPrefix.overlaps_iff_of_le`: prefixes overlap only if one contains the other's address
-/

namespace Onos

/-- A 48-bit hardware address. -/
structure MacAddress where
  toLong : BitVec 48
deriving DecidableEq, Repr

/-- `MacAddress.ZERO`. -/
def MacAddress.ZERO : MacAddress := ⟨0⟩

/-- An IPv4 address. -/
structure Ip4Address where
  toInt : BitVec 32
deriving DecidableEq, Repr

/-- `Ip4Address.ZERO`. -/
def Ip4Address.ZERO : Ip4Address := ⟨0⟩

/-- The mask of the first `prefixLength` bits. -/
def Ip4Address.mask (prefixLength : ℕ) : BitVec 32 :=
  ~~~ ((BitVec.allOnes 32) >>> prefixLength)

/-- The address with all but its first `prefixLength` bits cleared. -/
def Ip4Address.makeMaskedAddress (ip : Ip4Address) (prefixLength : ℕ) : Ip4Address :=
  ⟨ip.toInt &&& mask prefixLength⟩

/-- Masking twice with one length is masking once. -/
@[simp] theorem Ip4Address.makeMaskedAddress_idem (ip : Ip4Address) (n : ℕ) :
    (ip.makeMaskedAddress n).makeMaskedAddress n = ip.makeMaskedAddress n := by
  simp only [makeMaskedAddress, BitVec.and_assoc, BitVec.and_self]

theorem Ip4Address.mask_and_mask {m n : ℕ} (h : n ≤ m) : mask m &&& mask n = mask n := by
  unfold mask
  -- bit `i` is set in the mask of length `n` if it is among the first `n` bits
  ext i hi
  simp only [BitVec.getElem_and, BitVec.getElem_not, BitVec.getElem_ushiftRight,
    BitVec.getLsbD_allOnes, Bool.and_eq_right_iff_imp, Bool.not_eq_true', decide_eq_false_iff_not]
  omega

/-- Masking with a shorter length forgets masking with a longer one. -/
theorem Ip4Address.makeMaskedAddress_of_le (ip : Ip4Address) {m n : ℕ} (h : n ≤ m) :
    (ip.makeMaskedAddress m).makeMaskedAddress n = ip.makeMaskedAddress n := by
  simp only [makeMaskedAddress, BitVec.and_assoc, mask_and_mask h]

/-- There is a prefix length, so that numerals can stand for prefix lengths. -/
instance neZero_prefixLengths : @NeZero ℕ Zero.ofOfNat0 33 := ⟨Nat.succ_ne_zero 32⟩

/-- An IPv4 prefix: a length of at most 32 and an address masked to it. -/
structure IpPrefix where
  address : Ip4Address
  prefixLength : Fin 33
  masked : address.makeMaskedAddress prefixLength = address
deriving DecidableEq

namespace IpPrefix

/-- `IpPrefix.valueOf(ip, prefixLength)`. -/
def valueOf (ip : Ip4Address) (prefixLength : Fin 33) : IpPrefix where
  address := ip.makeMaskedAddress prefixLength
  prefixLength := prefixLength
  masked := ip.makeMaskedAddress_idem prefixLength

/-- Whether the prefix contains `ip`: the masked address of `ip` is the address of the
prefix. -/
def contains (p : IpPrefix) (ip : Ip4Address) : Bool :=
  ip.makeMaskedAddress p.prefixLength = p.address

theorem contains_iff {p : IpPrefix} {ip : Ip4Address} :
    p.contains ip = true ↔ ip.makeMaskedAddress p.prefixLength = p.address := by
  simp [contains]

/-- The addresses of `valueOf ip n` are those that agree with `ip` on the first `n` bits. -/
theorem contains_valueOf {ip ip' : Ip4Address} {n : Fin 33} :
    (valueOf ip n).contains ip' = true ↔ ip'.makeMaskedAddress n = ip.makeMaskedAddress n := by
  simp [contains_iff, valueOf]

/-- Prefixes of one length are equal exactly when the addresses agree on it. -/
theorem valueOf_eq_valueOf_iff {ip ip' : Ip4Address} {n : Fin 33} :
    valueOf ip n = valueOf ip' n ↔ ip.makeMaskedAddress n = ip'.makeMaskedAddress n := by
  simp [valueOf]

/-- Some address lies in both prefixes. -/
def Overlaps (p q : IpPrefix) : Prop :=
  ∃ ip, p.contains ip ∧ q.contains ip

theorem overlaps_comm {p q : IpPrefix} : p.Overlaps q ↔ q.Overlaps p :=
  exists_congr fun _ => and_comm

/-- A shorter prefix overlaps a longer one exactly when it contains the address of the longer
one. -/
theorem overlaps_iff_of_le {p q : IpPrefix} (h : p.prefixLength ≤ q.prefixLength) :
    p.Overlaps q ↔ p.contains q.address := by
  constructor
  · rintro ⟨ip, hp, hq⟩
    rw [contains_iff] at hp hq ⊢
    -- an address in both, masked to the shorter length, is the address of `p`
    rw [← hq, Ip4Address.makeMaskedAddress_of_le ip h, hp]
  · exact fun hp => ⟨q.address, hp, contains_iff.mpr q.masked⟩

instance (p q : IpPrefix) : Decidable (p.Overlaps q) :=
  if h : p.prefixLength ≤ q.prefixLength then decidable_of_iff _ (overlaps_iff_of_le h).symm
  else decidable_of_iff _ (overlaps_comm.trans (overlaps_iff_of_le (le_of_not_ge h))).symm

end IpPrefix

/-- A switch, by its datapath number. -/
structure DeviceId where
  dpid : ℕ
deriving DecidableEq, Repr

/-- A physical port of a switch. -/
structure PortNumber where
  number : ℕ
deriving DecidableEq, Repr

/-- A port of a switch. -/
structure ConnectPoint where
  deviceId : DeviceId
  port : PortNumber
deriving DecidableEq, Repr

end Onos
