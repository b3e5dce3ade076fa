import ParseBgp.Bgp.Common
import ParseBgp.Message
import ParseBgp.Utils.RangeLoop

/-!
# MRT messages and their views

An MRT message is seen through views of the records that the C library decoded
it into.  Which record is meant depends on the type and the subtype of the
message; the conversions from one view to the next assert them, and at most one
of them succeeds (`TableDumpV2.conversions`).  The address of a peer is read
behind assertions about its family, of which only the first can fail
(`PeerEntry.ip_eq`).
-/

namespace ParseBgp

open Loop

/-- Ways a use of a view goes wrong: the assertions of the accessors, and a
read through a null pointer. -/
inductive ViewFault where
  /-- `assert(type().is_table_dump_v2())` -/
  | toTableDumpV2
  /-- `assert(subtype().is_peer_index_table())` -/
  | toPeerIndex
  /-- `assert(subtype().is_rib_ip())` -/
  | toRib
  /-- `assert(ip_afi().is_valid())` -/
  | ip
  /-- `assert(ip_afi().is_ipv4())` -/
  | ipv4
  /-- `assert(ip_afi().is_ipv6())` -/
  | ipv6
  /-- `assert(has_...())` in an accessor of `PathAttributes` -/
  | attribute
  | nullPointer
  deriving DecidableEq, Repr

/-- `*cptr`, or a range over what it leads to. -/
def orNull {α : Type*} : Option α → Outcome ViewFault α
  | some value => .ok value
  | none => .fault .nullPointer

@[simp]
theorem orNull_some {α : Type*} (value : α) : orNull (some value) = .ok value :=
  rfl

@[simp]
theorem orNull_none {α : Type*} :
    orNull (none : Option α) = .fault .nullPointer := rfl

/-- An accessor of `PathAttributes`, which asserts that the attribute is
there. -/
def Bgp.PathAttributes.attribute (cptr : Bgp.PathAttrs) (type : AttrType) :
    Outcome ViewFault Bgp.PathAttrRecord :=
  if hasAttrType cptr type then .ok (cptr.attrs type.value)
  else .fault .attribute

namespace Mrt

open Utils Bgp

/-! ## Records of the C library -/

/-- `parsebgp_mrt_table_dump_v2_peer_entry` -/
structure PeerEntryRecord where
  ipAfi : UInt16
  ip : Vector UInt8 16
  asn : UInt32

/-- `parsebgp_mrt_table_dump_v2_peer_index`; `peerEntries` stands for
`peer_entries` with `peer_count`. -/
structure PeerIndexRecord where
  peerEntries : CArray PeerEntryRecord

/-- `parsebgp_mrt_table_dump_v2_rib_entry` -/
structure RibEntryRecord where
  pathAttrs : PathAttrs

/-- `parsebgp_mrt_table_dump_v2_afi_safi_rib`; `entries` stands for `entries`
with `entry_count`. -/
structure RibRecord where
  entries : CArray RibEntryRecord

/-- `parsebgp_mrt_table_dump_v2` -/
structure TableDumpV2Record where
  peerIndex : PeerIndexRecord
  afiSafiRib : RibRecord

/-- `parsebgp_mrt_msg`; `tableDumpV2` is `types.table_dump_v2`, and `none` a
null pointer. -/
structure MsgRecord where
  type : UInt16
  subtype : UInt16
  tableDumpV2 : Option TableDumpV2Record

/-- `parsebgp_msg`, of which the views read `types.mrt`. -/
structure MsgContent where
  mrt : Option MsgRecord

/-! ## Views -/

/-- `parsebgp::Message::to_mrt` -/
def toMrt (message : ParseBgp.Message MsgContent) :
    Outcome ViewFault (Option MsgRecord) :=
  (orNull message).bind fun content => .ok content.mrt

namespace Message

/-- `Type::is_table_dump_v2` -/
def isTableDumpV2 (type : UInt16) : Bool := type == 13

/-- `to_table_dump_v2`; the new view has the pointer of the old one. -/
def toTableDumpV2 (cptr : Option MsgRecord) : Outcome ViewFault MsgRecord :=
  (orNull cptr).bind fun msg =>
    if isTableDumpV2 msg.type then .ok msg else .fault .toTableDumpV2

end Message

namespace TableDumpV2

namespace Subtype

def isPeerIndexTable (value : UInt16) : Bool := value == 1

def isRibIpv4Unicast (value : UInt16) : Bool := value == 2

def isRibIpv4Multicast (value : UInt16) : Bool := value == 3

def isRibIpv6Unicast (value : UInt16) : Bool := value == 4

def isRibIpv6Multicast (value : UInt16) : Bool := value == 5

def isRibGeneric (value : UInt16) : Bool := value == 6

def isRibIp (value : UInt16) : Bool := 2 ≤ value && value ≤ 5

def isRib (value : UInt16) : Bool := isRibIp value || isRibGeneric value

def isRibIpUnicast (value : UInt16) : Bool :=
  isRibIpv4Unicast value || isRibIpv6Unicast value

def isRibIpMulticast (value : UInt16) : Bool :=
  isRibIpv4Multicast value || isRibIpv6Multicast value

def isValid (value : UInt16) : Bool :=
  value == 1 || value == 2 || value == 3 || value == 4 || value == 5 ||
    value == 6

/-- `is_rib_ip` compares with the first and the last of four consecutive
enumerators. -/
theorem isRibIp_eq (value : UInt16) :
    isRibIp value = (isRibIpUnicast value || isRibIpMulticast value) := by
  rw [Bool.eq_iff_iff]
  simp only [isRibIp, isRibIpUnicast, isRibIpMulticast, isRibIpv4Unicast,
    isRibIpv4Multicast, isRibIpv6Unicast, isRibIpv6Multicast, Bool.and_eq_true,
    Bool.or_eq_true, decide_eq_true_eq, beq_iff_eq, UInt16.le_iff_toNat_le,
    ← UInt16.toNat_inj]
  simp only [UInt16.reduceToNat]
  omega

/-- The subtypes of the format are the peer index table and the RIBs. -/
theorem isValid_eq (value : UInt16) :
    isValid value = (isPeerIndexTable value || isRib value) := by
  rw [isRib, isRibIp_eq]
  simp only [isValid, isPeerIndexTable, isRibGeneric, isRibIpUnicast,
    isRibIpMulticast, isRibIpv4Unicast, isRibIpv4Multicast, isRibIpv6Unicast,
    isRibIpv6Multicast]
  ac_rfl

end Subtype

/-- `to_peer_index` -/
def toPeerIndex (cptr : MsgRecord) : Outcome ViewFault PeerIndexRecord :=
  if Subtype.isPeerIndexTable cptr.subtype then
    (orNull cptr.tableDumpV2).bind fun tableDumpV2 => .ok tableDumpV2.peerIndex
  else .fault .toPeerIndex

/-- `to_rib` -/
def toRib (cptr : MsgRecord) : Outcome ViewFault RibRecord :=
  if Subtype.isRibIp cptr.subtype then
    (orNull cptr.tableDumpV2).bind fun tableDumpV2 => .ok tableDumpV2.afiSafiRib
  else .fault .toRib

namespace PeerEntry

/-- `ipv4`, the first four bytes of the address -/
def ipv4 (cptr : PeerEntryRecord) : Outcome ViewFault (List UInt8) :=
  if AfiType.isIpv4 cptr.ipAfi then .ok (cptr.ip.toList.take 4)
  else .fault .ipv4

def ipv6 (cptr : PeerEntryRecord) : Outcome ViewFault (List UInt8) :=
  if AfiType.isIpv6 cptr.ipAfi then .ok cptr.ip.toList else .fault .ipv6

def ip (cptr : PeerEntryRecord) : Outcome ViewFault (List UInt8) :=
  if AfiType.isValid cptr.ipAfi then
    if cptr.ipAfi = 1 then ipv4 cptr
    else if cptr.ipAfi = 2 then ipv6 cptr
    else .ok []
  else .fault .ip

/-- The assertions of `ipv4` and `ipv6` hold when `ip` calls them, and its
return behind the switch is not reached. -/
theorem ip_eq (cptr : PeerEntryRecord) :
    ip cptr =
      if cptr.ipAfi = 1 then .ok (cptr.ip.toList.take 4)
      else if cptr.ipAfi = 2 then .ok cptr.ip.toList
      else .fault .ip := by
  by_cases hipv4 : cptr.ipAfi = 1
  · simp [ip, ipv4, AfiType.isValid, AfiType.isIpv4, hipv4]
  by_cases hipv6 : cptr.ipAfi = 2
  · simp [ip, ipv6, AfiType.isValid, AfiType.isIpv6, hipv6]
  · simp [ip, AfiType.isValid, AfiType.isIpv4, AfiType.isIpv6, hipv4, hipv6]

end PeerEntry

namespace PeerIndex

def view : RangeClass PeerEntryRecord PeerEntryRecord :=
  .ofPointer (some Pointer.load)

/-- `range_data` and `range_size` -/
def range (cptr : PeerIndexRecord) : CPtrRange view where
  rangeData := cptr.peerEntries.data
  rangeSize := cptr.peerEntries.count

theorem shows (cptr : PeerIndexRecord) :
    (range cptr).Shows cptr.peerEntries.toList :=
  CPtrRange.shows_load cptr.peerEntries

end PeerIndex

namespace RibEntry

def pathAttributes (cptr : RibEntryRecord) : PathAttrs := cptr.pathAttrs

end RibEntry

namespace Rib

def view : RangeClass RibEntryRecord RibEntryRecord :=
  .ofPointer (some Pointer.load)

/-- `range_data` and `range_size` -/
def range (cptr : RibRecord) : CPtrRange view where
  rangeData := cptr.entries.data
  rangeSize := cptr.entries.count

theorem shows (cptr : RibRecord) : (range cptr).Shows cptr.entries.toList :=
  CPtrRange.shows_load cptr.entries

end Rib

/-- A message has one view of its payload, or none: of the subtypes of the
format `RIB_GENERIC` has none, although it is a RIB. -/
theorem conversions {cptr : MsgRecord} {payload : TableDumpV2Record}
    (hpayload : cptr.tableDumpV2 = some payload) :
    (toPeerIndex cptr = .ok payload.peerIndex ∧
        toRib cptr = .fault .toRib) ∨
      (toPeerIndex cptr = .fault .toPeerIndex ∧
        toRib cptr = .ok payload.afiSafiRib) ∨
      (toPeerIndex cptr = .fault .toPeerIndex ∧ toRib cptr = .fault .toRib ∧
        (Subtype.isValid cptr.subtype = true →
          Subtype.isRibGeneric cptr.subtype = true)) := by
  rw [toPeerIndex, toRib, hpayload]
  cases hpeers : Subtype.isPeerIndexTable cptr.subtype with
  | true =>
      have hrib : Subtype.isRibIp cptr.subtype = false := by
        rw [Subtype.isPeerIndexTable, beq_iff_eq] at hpeers
        rw [hpeers]
        rfl
      simp [hrib]
  | false =>
      cases hrib : Subtype.isRibIp cptr.subtype with
      | true => simp
      | false => simp [Subtype.isValid_eq, Subtype.isRib, hpeers, hrib]

end TableDumpV2

end Mrt

end ParseBgp
