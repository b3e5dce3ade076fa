import ParseBgp.Utils.CPtrRange

/-!
# The records of a BGP update and their views

The C library decodes the path attributes of an update into a table that is
indexed by the attribute type.  A record of the table points to the payload of
its attribute through the data member named after the type; the views of
`PathAttributes` are built on a record and read its payload.
-/

namespace ParseBgp.Bgp

open Utils

/-! ## Records of the C library -/

/-- `parsebgp_bgp_prefix` -/
structure PrefixRecord where
  type : UInt8
  afi : UInt16
  safi : UInt8
  addr : List UInt8
  len : UInt8
  deriving DecidableEq

/-- `parsebgp_bgp_update_as_path_seg`; `asns` stands for `asns` with
`asns_cnt`. -/
structure AsPathSegRecord where
  type : UInt8
  asns : CArray UInt32
  deriving DecidableEq

/-- `segs` with `segs_cnt` -/
structure AsPathRecord where
  segs : CArray AsPathSegRecord

structure CommunitiesRecord where
  communities : CArray UInt32

structure ClusterListRecord where
  clusterIds : CArray UInt32

structure MpReachRecord where
  afi : UInt16
  safi : UInt8
  nlris : CArray PrefixRecord

structure MpUnreachRecord where
  afi : UInt16
  safi : UInt8
  withdrawnNlris : CArray PrefixRecord

structure LargeCommunityRecord where
  globalAdmin : UInt32
  local1 : UInt32
  local2 : UInt32
  deriving DecidableEq

structure LargeCommunitiesRecord where
  communities : CArray LargeCommunityRecord

/-- The pointer members of `data`; `none` is a null pointer. -/
structure AttrData where
  asPath : Option AsPathRecord
  communities : Option CommunitiesRecord
  clusterList : Option ClusterListRecord
  mpReach : Option MpReachRecord
  mpUnreach : Option MpUnreachRecord
  largeCommunities : Option LargeCommunitiesRecord

/-- `parsebgp_bgp_update_path_attr` -/
structure PathAttrRecord where
  type : UInt8
  data : AttrData

/-- `parsebgp_bgp_update_path_attrs_t` -/
structure PathAttrs where
  attrs : UInt8 → PathAttrRecord

namespace PathAttributes

/-- The values of `PathAttributes::Type` that have a range view. -/
inductive AttrType where
  | asPath
  | communities
  | clusterList
  | mpReachNlri
  | mpUnreachNlri
  | largeCommunities
  deriving DecidableEq, Repr

def AttrType.value : AttrType → UInt8
  | asPath => 2
  | communities => 8
  | clusterList => 10
  | mpReachNlri => 14
  | mpUnreachNlri => 15
  | largeCommunities => 32

def hasAttrType (cptr : PathAttrs) (type : AttrType) : Bool :=
  (cptr.attrs type.value).type == type.value

/-- The record a view of this type is built on; an accessor asserts that it is
present. -/
def record (cptr : PathAttrs) (type : AttrType) : Option PathAttrRecord :=
  if hasAttrType cptr type then some (cptr.attrs type.value) else none

/-- The range over what `range_data` and `range_size` return; there is none
when they read through a null pointer. -/
def rangeOf {α β : Type*} (view : RangeClass α β)
    (rangeData : Option (Pointer α)) (rangeSize : Option ℕ) :
    Option (CPtrRange view) :=
  rangeData.bind fun data =>
    rangeSize.map fun size => { rangeData := data, rangeSize := size }

namespace AsPathSegment

/-- `Asn(uint32_t* asnp) : Asn(asnp ? *asnp : 0)` -/
def asn (asnp : Pointer UInt32) : Option UInt32 :=
  if asnp.isNull then some 0 else asnp.load

def view : RangeClass UInt32 UInt32 := .ofPointer (some asn)

def type (cptr : AsPathSegRecord) : UInt8 := cptr.type

def rangeData (cptr : AsPathSegRecord) : Pointer UInt32 :=
  cptr.asns.data

def rangeSize (cptr : AsPathSegRecord) : ℕ :=
  cptr.asns.count

def range (cptr : AsPathSegRecord) : Option (CPtrRange view) :=
  rangeOf view (some (rangeData cptr)) (some (rangeSize cptr))

end AsPathSegment

namespace AsPath

/-- An `AsPathSegment` is a view of the record its pointer points to. -/
def view : RangeClass AsPathSegRecord AsPathSegRecord :=
  .ofPointer (some Pointer.load)

def rangeData (cptr : PathAttrRecord) : Option (Pointer AsPathSegRecord) :=
  cptr.data.asPath.map fun asPath => asPath.segs.data

def rangeSize (cptr : PathAttrRecord) : Option ℕ :=
  cptr.data.asPath.map fun asPath => asPath.segs.count

def range (cptr : PathAttrRecord) : Option (CPtrRange view) :=
  rangeOf view (rangeData cptr) (rangeSize cptr)

end AsPath

namespace Communities

/-- `Community(uint32_t* cptr) : u32(*cptr)` -/
def view : RangeClass UInt32 UInt32 := .ofPointer (some Pointer.load)

def rangeData (cptr : PathAttrRecord) : Option (Pointer UInt32) :=
  cptr.data.communities.map fun communities => communities.communities.data

def rangeSize (cptr : PathAttrRecord) : Option ℕ :=
  cptr.data.communities.map fun communities => communities.communities.count

def range (cptr : PathAttrRecord) : Option (CPtrRange view) :=
  rangeOf view (rangeData cptr) (rangeSize cptr)

end Communities

namespace ClusterList

/-- `Element` is `uint32_t` and `ElementCPtr` is `uint32_t*`, from which there
is no conversion: `return { cptr() }` is ill-formed. -/
def view : RangeClass UInt32 UInt32 := .ofPointer none

def rangeData (cptr : PathAttrRecord) : Option (Pointer UInt32) :=
  cptr.data.clusterList.map fun clusterList => clusterList.clusterIds.data

def rangeSize (cptr : PathAttrRecord) : Option ℕ :=
  cptr.data.clusterList.map fun clusterList => clusterList.clusterIds.count

def range (cptr : PathAttrRecord) : Option (CPtrRange view) :=
  rangeOf view (rangeData cptr) (rangeSize cptr)

end ClusterList

namespace MpReach

/-- A `Prefix` is a view of the record its pointer points to. -/
def view : RangeClass PrefixRecord PrefixRecord :=
  .ofPointer (some Pointer.load)

def afiType (cptr : PathAttrRecord) : Option UInt16 :=
  cptr.data.mpReach.map MpReachRecord.afi

def safiType (cptr : PathAttrRecord) : Option UInt8 :=
  cptr.data.mpReach.map MpReachRecord.safi

def rangeData (cptr : PathAttrRecord) : Option (Pointer PrefixRecord) :=
  cptr.data.mpReach.map fun mpReach => mpReach.nlris.data

def rangeSize (cptr : PathAttrRecord) : Option ℕ :=
  cptr.data.mpReach.map fun mpReach => mpReach.nlris.count

def range (cptr : PathAttrRecord) : Option (CPtrRange view) :=
  rangeOf view (rangeData cptr) (rangeSize cptr)

end MpReach

namespace MpUnreach

def view : RangeClass PrefixRecord PrefixRecord :=
  .ofPointer (some Pointer.load)

def afiType (cptr : PathAttrRecord) : Option UInt16 :=
  cptr.data.mpReach.map MpReachRecord.afi

def safiType (cptr : PathAttrRecord) : Option UInt8 :=
  cptr.data.mpReach.map MpReachRecord.safi

def rangeData (cptr : PathAttrRecord) : Option (Pointer PrefixRecord) :=
  cptr.data.mpReach.map fun mpReach => mpReach.nlris.data

def rangeSize (cptr : PathAttrRecord) : Option ℕ :=
  cptr.data.mpReach.map fun mpReach => mpReach.nlris.count

def range (cptr : PathAttrRecord) : Option (CPtrRange view) :=
  rangeOf view (rangeData cptr) (rangeSize cptr)

end MpUnreach

/-- `LargeCommunity`, which copies the members of the record. -/
structure LargeCommunity where
  globalAdmin : UInt32
  local1 : UInt32
  local2 : UInt32
  deriving DecidableEq

def LargeCommunity.ofRecord (cptr : LargeCommunityRecord) : LargeCommunity where
  globalAdmin := cptr.globalAdmin
  local1 := cptr.local1
  local2 := cptr.local2

namespace LargeCommunities

def view : RangeClass LargeCommunityRecord LargeCommunity :=
  .ofPointer (some fun cptr => cptr.load.map LargeCommunity.ofRecord)

def rangeData (cptr : PathAttrRecord) : Option (Pointer LargeCommunityRecord) :=
  cptr.data.largeCommunities.map fun largeCommunities =>
    largeCommunities.communities.data

def rangeSize (cptr : PathAttrRecord) : Option ℕ :=
  cptr.data.largeCommunities.map fun largeCommunities =>
    largeCommunities.communities.count

def range (cptr : PathAttrRecord) : Option (CPtrRange view) :=
  rangeOf view (rangeData cptr) (rangeSize cptr)

end LargeCommunities

end PathAttributes

end ParseBgp.Bgp
