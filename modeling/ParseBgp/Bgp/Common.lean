import ParseBgp.Bgp.Update

/-!
# Common types of BGP

The enumeration of address families, AS numbers with their registered ranges,
and communities, whose two halves a union lays over one 32-bit value.  The three
predicates that classify AS numbers partition them (`Asn.classified`).
-/

namespace ParseBgp.Bgp

/-! ## Address families

The views convert raw values to the enumeration without a check, so the
predicates are functions of the raw value. -/

namespace AfiType

def isIpv4 (value : UInt16) : Bool := value == 1

def isIpv6 (value : UInt16) : Bool := value == 2

def isValid (value : UInt16) : Bool := isIpv4 value || isIpv6 value

end AfiType

/-! ## AS numbers -/

namespace Asn

def isPrivate (asn : UInt32) : Bool :=
  (64512 ≤ asn && asn ≤ 65534) || (4200000000 ≤ asn && asn ≤ 4294967294)

def isReserved (asn : UInt32) : Bool :=
  asn == 0 || asn >>> 4 == 4031 || asn == 65535 || asn >>> 16 == 1 ||
    asn == 4294967295

def isPublic (asn : UInt32) : Bool := !isPrivate asn && !isReserved asn

theorem isPrivate_iff (asn : UInt32) :
    isPrivate asn = true ↔
      (64512 ≤ asn.toNat ∧ asn.toNat ≤ 65534) ∨
        (4200000000 ≤ asn.toNat ∧ asn.toNat ≤ 4294967294) := by
  simp [isPrivate, UInt32.le_iff_toNat_le]

theorem isReserved_iff (asn : UInt32) :
    isReserved asn = true ↔
      asn.toNat = 0 ∨ (64496 ≤ asn.toNat ∧ asn.toNat ≤ 64511) ∨
        (65535 ≤ asn.toNat ∧ asn.toNat ≤ 131071) ∨
          asn.toNat = 4294967295 := by
  have hshift4 : asn >>> 4 = 4031 ↔ asn.toNat / 16 = 4031 := by
    rw [← UInt32.toNat_inj, UInt32.toNat_shiftRight, Nat.shiftRight_eq_div_pow]
    rfl
  have hshift16 : asn >>> 16 = 1 ↔ asn.toNat / 65536 = 1 := by
    rw [← UInt32.toNat_inj, UInt32.toNat_shiftRight, Nat.shiftRight_eq_div_pow]
    rfl
  simp only [isReserved, Bool.or_eq_true, beq_iff_eq, hshift4, hshift16,
    ← UInt32.toNat_inj]
  simp only [UInt32.reduceToNat]
  omega

theorem isPublic_eq_true_iff (asn : UInt32) :
    isPublic asn = true ↔
      ¬ isPrivate asn = true ∧ ¬ isReserved asn = true := by
  simp [isPublic]

/-- Every AS number is exactly one of private, reserved and public, although
`is_reserved` finds two of its ranges with shifts, and the public ones are those
outside of all ranges that the comments name. -/
theorem classified (asn : UInt32) :
    [isPrivate asn, isReserved asn, isPublic asn].count true = 1 ∧
      (isPublic asn = true ↔
        (1 ≤ asn.toNat ∧ asn.toNat ≤ 64495) ∨
          (131072 ≤ asn.toNat ∧ asn.toNat ≤ 4199999999)) := by
  have hbound := asn.toNat_lt
  have hdisjoint : ¬ (isPrivate asn = true ∧ isReserved asn = true) := by
    rw [isPrivate_iff, isReserved_iff]
    omega
  constructor
  · cases hprivate : isPrivate asn with
    | false => cases hreserved : isReserved asn <;>
        simp [isPublic, hprivate, hreserved]
    | true =>
        have hreserved : isReserved asn = false := by
          rw [← Bool.not_eq_true]
          exact fun hreserved => hdisjoint ⟨hprivate, hreserved⟩
        simp [isPublic, hprivate, hreserved]
  · rw [isPublic_eq_true_iff, isPrivate_iff, isReserved_iff]
    omega

end Asn

/-! ## Communities -/

namespace PathAttributes.Community

/-- The member `value` of the union, which lies over the low half of `u32` on a
little-endian machine. -/
def value (u32 : UInt32) : UInt16 := u32.toUInt16

/-- The member `asn`, over the high half. -/
def asn (u32 : UInt32) : UInt16 := (u32 >>> 16).toUInt16

/-- The two halves make up the 32-bit value. -/
theorem asn_value (u32 : UInt32) :
    (asn u32).toNat * 65536 + (value u32).toNat = u32.toNat := by
  have hbound := u32.toNat_lt
  have hasn : (asn u32).toNat = u32.toNat / 65536 := by
    rw [asn, UInt32.toNat_toUInt16, UInt32.toNat_shiftRight,
      Nat.shiftRight_eq_div_pow]
    have hshift : (16 : UInt32).toNat % 32 = 16 := rfl
    rw [hshift]
    omega
  have hvalue : (value u32).toNat = u32.toNat % 65536 :=
    UInt32.toNat_toUInt16 u32
  omega

end PathAttributes.Community

end ParseBgp.Bgp
