import ParseBgp.Io.ReadCounts
import ParseBgp.Io.ReaderLoop
import ParseBgp.Mrt.Message

/-!
# The dump tool

`dump` reads a gzip file of MRT messages and prints the AS path and the
communities of every RIB entry.  It is the one program of the repository that
uses the library as a client does: a range-for over a reader, with range-for
loops over the views of each message inside.
-/

namespace ParseBgp.Tools

open Loop WholeInput Utils Bgp Mrt Io

/-! ## Options -/

/-- `parsebgp_opts`; nothing here looks into `parsebgp_bgp_opts`. -/
structure OptsRecord (BgpOpts : Type) where
  ignoreNotImplemented : Bool
  silenceNotImplemented : Bool
  ignoreInvalid : Bool
  silenceInvalid : Bool
  bgp : BgpOpts

variable {File BgpOpts : Type}

/-- `Options::set_ignore_not_implemented`; the options are null if they could
not be allocated. -/
def setIgnoreNotImplemented (cptr : Option (OptsRecord BgpOpts))
    (value : Bool) : Outcome Fault (OptsRecord BgpOpts) :=
  match cptr with
  | none => .fault .nullOptions
  | some opts => .ok { opts with ignoreNotImplemented := value }

/-! ## What the tool calls and prints -/

/-- The outside of a run: `gzopen` and the other functions of zlib, the C
library, the mappings, and what the constructors of `Options` and `Message`
allocate. -/
structure Dump (File BgpOpts : Type) where
  gzopen : String → Option File
  zlib : Zlib File
  library : Library (OptsRecord BgpOpts) MsgContent
  mirrors : MirrorSource
  options : Option (OptsRecord BgpOpts)
  message : Message MsgContent

/-- One `<<` on `std::cout`.  The type of a segment is an enumeration over
`uint8_t` and comes out as a character. -/
inductive Printed where
  | text (str : String)
  | character (code : UInt8)
  | number (value : ℕ)
  | endl
  deriving DecidableEq, Repr

/-- Ways a run ends other than by `return`. -/
inductive DumpFault where
  | reader (fault : Fault)
  | range (fault : RangeFault)
  | view (fault : ViewFault)
  /-- `assert(entry.path_attributes().has_as_path())` -/
  | asPath
  /-- an uncaught `std::runtime_error` -/
  | thrown (what : String)
  deriving DecidableEq, Repr

/-- The enumerator as `std::to_string` sees it. -/
def code : StatusValue → ℕ
  | .ok => 0
  | .streamFinished => 1
  | .finished => 2
  | .streamError => 3
  | .decoderError => 4
  | .memoryFailure => 5

/-- The `throw` of the loop. -/
def throwStatus (status : ReaderStatus GzipStatus) : DumpFault :=
  .thrown (toString (code status.value))

/-! ## The loops -/

/-- A range-for of the tool over a range of a view.  It leaves the range after
as many tests as the range has elements, and one. -/
def eachOf {α β : Type*} {view : RangeClass α β} (range : CPtrRange view)
    (body : List Printed → β → Outcome DumpFault (List Printed))
    (out : List Printed) : Outcome DumpFault (List Printed) :=
  range.forEach .range
    (fun out element => (body out element).bind fun out => .ok (.next out))
    (range.size + 1) out

/-- A range of a view, which may read through a null pointer. -/
def rangeOrNull {α β : Type*} {view : RangeClass α β}
    (range : Option (CPtrRange view)) : Outcome DumpFault (CPtrRange view) :=
  (orNull range).mapFault .view

def printAsn (out : List Printed) (asn : UInt32) : List Printed :=
  out ++ [.number asn.toNat, .text (if !Asn.isPublic asn then "[!]" else ""),
    .text " "]

def printSegment (out : List Printed) (seg : AsPathSegRecord) :
    Outcome DumpFault (List Printed) :=
  let out := out ++
    [.text "(", .character (PathAttributes.AsPathSegment.type seg), .text ") "]
  (rangeOrNull (PathAttributes.AsPathSegment.range seg)).bind fun range =>
    eachOf range (fun out asn => .ok (printAsn out asn)) out

def printCommunity (out : List Printed) (comm : UInt32) : List Printed :=
  out ++ [.number (PathAttributes.Community.asn comm).toNat, .text ":",
    .number (PathAttributes.Community.value comm).toNat, .text " "]

/-- The body of the loop over a RIB. -/
def printEntry (out : List Printed) (entry : RibEntryRecord) :
    Outcome DumpFault (List Printed) :=
  let attrs := TableDumpV2.RibEntry.pathAttributes entry
  if PathAttributes.hasAttrType attrs .asPath then
    let out := out ++ [.text "ASPATH: "]
    ((PathAttributes.attribute attrs .asPath).mapFault .view).bind fun attr =>
      (rangeOrNull (PathAttributes.AsPath.range attr)).bind fun segs =>
        (eachOf segs printSegment out).bind fun out =>
          let out := out ++ [.endl]
          if PathAttributes.hasAttrType attrs .communities then
            let out := out ++ [.text "COMMUNITIES: "]
            ((PathAttributes.attribute attrs .communities).mapFault .view).bind
              fun attr =>
                (rangeOrNull (PathAttributes.Communities.range attr)).bind
                  fun comms =>
                    (eachOf comms (fun out comm => .ok (printCommunity out comm))
                      out).bind fun out => .ok (out ++ [.endl])
          else .ok out
  else .fault .asPath

/-- What the loop over the reader does with an MRT message. -/
def printMessage (out : List Printed) (msg : Option MsgRecord) :
    Outcome DumpFault (List Printed) :=
  ((Mrt.Message.toTableDumpV2 msg).mapFault .view).bind fun tdv2 =>
    if TableDumpV2.Subtype.isRibIp tdv2.subtype then
      ((TableDumpV2.toRib tdv2).mapFault .view).bind fun rib =>
        eachOf (TableDumpV2.Rib.range rib) printEntry out
    else .ok out

/-- `mrt_transform` -/
def mrtTransform (ret : TransformInput GzipStatus MsgContent) :
    Outcome ViewFault (Except (ReaderStatus GzipStatus) (Option MsgRecord)) :=
  match ret with
  | .ok message => (toMrt message).bind fun msg => .ok (.ok msg)
  | .error status => .ok (.error status)

/-- The body of the loop over the reader. -/
def printNext (out : List Printed)
    (msg : Outcome ViewFault
      (Except (ReaderStatus GzipStatus) (Option MsgRecord))) :
    Outcome DumpFault (Flow (List Printed)) :=
  (msg.mapFault .view).bind fun
    | .ok msg => (printMessage out msg).bind fun out => .ok (.next out)
    | .error status => .fault (throwStatus status)

namespace Dump

/-- The instantiation of the reader. -/
def env (tool : Dump File BgpOpts) :
    ReaderEnv (GzipStream File) GzipStatus (OptsRecord BgpOpts) MsgContent :=
  gzipEnv tool.zlib tool.library tool.mirrors .mrt

/-- `io::GzipStream gzs(argv[1], 32678 * 4)` -/
def gzs (tool : Dump File BgpOpts) (path : String) : GzipStream File :=
  .create tool.zlib (tool.gzopen path) (32678 * 4)

/-- `main`, with at most `rounds` tests of the condition of the loop: what it
prints and what it returns.  The destructor of the stream runs at the end. -/
def main (tool : Dump File BgpOpts) (fuel rounds : ℕ) (argv : List String) :
    Outcome DumpFault (List Printed × ℕ) :=
  match argv with
  | [_, path] =>
      ((setIgnoreNotImplemented tool.options true).mapFault .reader).bind
        fun options =>
          (Reader.forEach tool.env mrtTransform fuel .reader printNext rounds []
            (.create tool.env (tool.gzs path) (some options) tool.message
              32678)).bind fun (out, reader) =>
            ((reader.stream.destroy tool.zlib).mapFault .reader).bind fun _ =>
              .ok (out, 0)
  | _ => .ok ([], 1)

end Dump

end ParseBgp.Tools
