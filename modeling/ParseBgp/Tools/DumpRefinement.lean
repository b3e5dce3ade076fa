import ParseBgp.Tools.Dump

/-!
# What the dump tool prints

`messageText` says what a message is printed as, over the lists that its records
stand for.  Over a complete gzip file the tool prints the texts of the messages
of the reference run, one after the other, whatever the error is that the run
ends with; it throws if there is no message.  A truncated file mostly stops it
in the destructor of the stream.
-/

namespace ParseBgp.Tools

open Loop WholeInput Utils Bgp Mrt Io

/-! ## The text of a message -/

def asnText (asn : UInt32) : List Printed :=
  [.number asn.toNat, .text (if Asn.isPublic asn then "" else "[!]"),
    .text " "]

def segmentText (seg : AsPathSegRecord) : List Printed :=
  [.text "(", .character seg.type, .text ") "] ++
    seg.asns.toList.flatMap asnText

def pathText (path : AsPathRecord) : List Printed :=
  [.text "ASPATH: "] ++ path.segs.toList.flatMap segmentText ++ [.endl]

def communityText (comm : UInt32) : List Printed :=
  [.number (comm.toNat / 65536), .text ":", .number (comm.toNat % 65536),
    .text " "]

def communitiesText (communities : CommunitiesRecord) : List Printed :=
  [.text "COMMUNITIES: "] ++
    communities.communities.toList.flatMap communityText ++ [.endl]

/-- A record that is read through a pointer. -/
def pointed {α : Type*} (cptr : Option α) : Outcome DumpFault α :=
  (orNull cptr).mapFault .view

/-- The lines of a RIB entry, which has to have an AS path. -/
def entryText (entry : RibEntryRecord) : Outcome DumpFault (List Printed) :=
  match PathAttributes.record entry.pathAttrs .asPath with
  | none => .fault .asPath
  | some attr =>
      (pointed attr.data.asPath).bind fun path =>
        match PathAttributes.record entry.pathAttrs .communities with
        | none => .ok (pathText path)
        | some attr =>
            (pointed attr.data.communities).bind fun communities =>
              .ok (pathText path ++ communitiesText communities)

/-- The lines of a message: those of its entries if it is a RIB of one address
family, and none for any other `TABLE_DUMP_V2` message. -/
def messageText (content : MsgContent) : Outcome DumpFault (List Printed) :=
  (pointed content.mrt).bind fun msg =>
    if msg.type = 13 then
      if 2 ≤ msg.subtype ∧ msg.subtype ≤ 5 then
        (pointed msg.tableDumpV2).bind fun tableDumpV2 =>
          collect entryText tableDumpV2.afiSafiRib.entries.toList
      else .ok []
    else .fault (.view .toTableDumpV2)

/-- The views that the tool asks an entry for have what they show: the AS path
is there with its payload, and the communities have theirs if they are
there. -/
structure HasLines (entry : RibEntryRecord) : Prop where
  asPath : ∃ attr path,
    PathAttributes.record entry.pathAttrs .asPath = some attr ∧
      attr.data.asPath = some path
  communities : ∀ attr,
    PathAttributes.record entry.pathAttrs .communities = some attr →
      ∃ payload, attr.data.communities = some payload

/-- A message that the tool goes on after: it is a `TABLE_DUMP_V2` message, and
all entries have their lines if it is a RIB of one address family. -/
def Printable (content : MsgContent) : Prop :=
  ∃ msg, content.mrt = some msg ∧ msg.type = 13 ∧
    (2 ≤ msg.subtype ∧ msg.subtype ≤ 5 →
      ∃ payload, msg.tableDumpV2 = some payload ∧
        ∀ entry ∈ payload.afiSafiRib.entries.toList, HasLines entry)

@[simp]
theorem pointed_some {α : Type*} (value : α) :
    pointed (some value) = .ok value := rfl

@[simp]
theorem pointed_none {α : Type*} :
    pointed (none : Option α) = .fault (.view .nullPointer) := rfl

theorem exists_entryText_iff (entry : RibEntryRecord) :
    (∃ out, entryText entry = .ok out) ↔ HasLines entry := by
  constructor
  · rintro ⟨out, hout⟩
    rw [entryText] at hout
    cases hpath : PathAttributes.record entry.pathAttrs .asPath with
    | none => simp [hpath] at hout
    | some attr =>
        simp only [hpath] at hout
        obtain ⟨path, hpayload, hrest⟩ := Outcome.bind_eq_ok_iff.mp hout
        cases hasPath : attr.data.asPath with
        | none => simp [hasPath] at hpayload
        | some payload =>
            refine ⟨⟨attr, payload, hpath, hasPath⟩, ?_⟩
            intro attr' hcommunities
            rw [hcommunities] at hrest
            cases hdata : attr'.data.communities with
            | none => simp [hdata] at hrest
            | some communities => exact ⟨communities, rfl⟩
  · rintro ⟨⟨attr, path, hpath, hpayload⟩, hcommunities⟩
    cases hrecord : PathAttributes.record entry.pathAttrs .communities with
    | none =>
        exact ⟨pathText path, by simp [entryText, hpath, hpayload, hrecord]⟩
    | some attr' =>
        obtain ⟨payload, hpayload'⟩ := hcommunities attr' hrecord
        exact ⟨pathText path ++ communitiesText payload, by
          simp [entryText, hpath, hpayload, hrecord, hpayload']⟩

theorem exists_messageText_iff (content : MsgContent) :
    (∃ out, messageText content = .ok out) ↔ Printable content := by
  rw [messageText, Printable]
  cases content.mrt with
  | none => simp
  | some msg =>
      by_cases htype : msg.type = 13
      · by_cases hrib : 2 ≤ msg.subtype ∧ msg.subtype ≤ 5
        · cases hpayload : msg.tableDumpV2 with
          | none => simp [htype, hrib, hpayload]
          | some payload =>
              simp [htype, hrib, hpayload, exists_collect_eq_ok_iff,
                exists_entryText_iff]
        · have hskip := not_and.mp hrib
          simp only [pointed_some, Outcome.ok_bind, htype, hrib, if_true,
            if_false]
          refine ⟨fun _ => ⟨msg, rfl, htype, ?_⟩, fun _ => ⟨[], rfl⟩⟩
          exact fun hsubtype => absurd hsubtype.2 (hskip hsubtype.1)
      · simp [htype]

/-! ## The loops print these texts -/

/-- A loop of the tool over a range that stands for a list. -/
theorem eachOf_of_shows {α β : Type*} {view : RangeClass α β}
    {range : CPtrRange view} {elements : List β}
    (hshows : range.Shows elements)
    {produce : β → Outcome DumpFault (List Printed)}
    {body : List Printed → β → Outcome DumpFault (List Printed)}
    (hbody : ∀ out element, body out element =
      (produce element).bind fun more => .ok (out ++ more))
    (out : List Printed) :
    eachOf range body out =
      (collect produce elements).bind fun more => .ok (out ++ more) := by
  have hfuel : elements.length < range.size + 1 := by
    rw [hshows.size_eq]
    exact Nat.lt_succ_self _
  apply CPtrRange.forEach_collect hshows _ hfuel
  intro out element
  simp only [hbody, Outcome.bind_assoc, Outcome.ok_bind]

/-- A loop that prints a text for each element. -/
theorem eachOf_of_ok {α β : Type*} {view : RangeClass α β}
    {range : CPtrRange view} {elements : List β}
    (hshows : range.Shows elements) {produce : β → List Printed}
    {body : List Printed → β → Outcome DumpFault (List Printed)}
    (hbody : ∀ out element, body out element = .ok (out ++ produce element))
    (out : List Printed) :
    eachOf range body out = .ok (out ++ elements.flatMap produce) := by
  have hbody' : ∀ out element, body out element =
      (Outcome.ok (produce element)).bind fun more => .ok (out ++ more) :=
    hbody
  rw [eachOf_of_shows hshows hbody', collect_ok, Outcome.ok_bind]

theorem printAsn_eq (out : List Printed) (asn : UInt32) :
    printAsn out asn = out ++ asnText asn := by
  cases hpublic : Asn.isPublic asn <;> simp [printAsn, asnText, hpublic]

theorem segment_shows (seg : AsPathSegRecord) :
    ∃ range, PathAttributes.AsPathSegment.range seg = some range ∧
      range.Shows seg.asns.toList := by
  have hasn : ∀ {ptr : Pointer UInt32} {entry}, ptr.load = some entry →
      PathAttributes.AsPathSegment.asn ptr = some (id entry) := by
    intro ptr entry hload
    cases harray : ptr.array with
    | nil => simp [Pointer.load, harray] at hload
    | cons _ _ =>
        simp [PathAttributes.AsPathSegment.asn, Pointer.isNull, harray, hload]
  have hshows := CPtrRange.shows_of_load hasn seg.asns
  rw [List.map_id] at hshows
  exact ⟨_, rfl, hshows⟩

theorem printSegment_eq (out : List Printed) (seg : AsPathSegRecord) :
    printSegment out seg = .ok (out ++ segmentText seg) := by
  obtain ⟨range, hrange, hshows⟩ := segment_shows seg
  have hbody : ∀ (out : List Printed) (asn : UInt32),
      (Outcome.ok (printAsn out asn) : Outcome DumpFault (List Printed)) =
        .ok (out ++ asnText asn) := by
    intro out asn
    rw [printAsn_eq]
  simp only [printSegment, rangeOrNull, hrange, orNull_some,
    Outcome.ok_mapFault, Outcome.ok_bind, eachOf_of_ok hshows hbody,
    PathAttributes.AsPathSegment.type, segmentText, List.append_assoc]

theorem printCommunity_eq (out : List Printed) (comm : UInt32) :
    printCommunity out comm = out ++ communityText comm := by
  have hhalves := PathAttributes.Community.asn_value comm
  have hvalue := (PathAttributes.Community.value comm).toNat_lt
  have hasn : (PathAttributes.Community.asn comm).toNat =
      comm.toNat / 65536 := by omega
  have hrest : (PathAttributes.Community.value comm).toNat =
      comm.toNat % 65536 := by omega
  rw [printCommunity, communityText, hasn, hrest]

/-- The loop over an AS path, whose payload may be missing. -/
theorem printPath_eq (out : List Printed) (attr : PathAttrRecord) :
    ((rangeOrNull (PathAttributes.AsPath.range attr)).bind fun segs =>
        eachOf segs printSegment out) =
      (pointed attr.data.asPath).bind fun path =>
        .ok (out ++ path.segs.toList.flatMap segmentText) := by
  cases hpayload : attr.data.asPath with
  | none =>
      simp [PathAttributes.AsPath.range, PathAttributes.AsPath.rangeData,
        PathAttributes.rangeOf, rangeOrNull, pointed, hpayload]
  | some path =>
      have hshows : CPtrRange.Shows (⟨path.segs.data, path.segs.count⟩ :
          CPtrRange PathAttributes.AsPath.view) path.segs.toList :=
        CPtrRange.shows_load path.segs
      simp [PathAttributes.AsPath.range, PathAttributes.AsPath.rangeData,
        PathAttributes.AsPath.rangeSize, PathAttributes.rangeOf, rangeOrNull,
        pointed, hpayload, eachOf_of_ok hshows printSegment_eq]

theorem printCommunities_eq (out : List Printed) (attr : PathAttrRecord) :
    ((rangeOrNull (PathAttributes.Communities.range attr)).bind fun comms =>
        eachOf comms (fun out comm => .ok (printCommunity out comm)) out) =
      (pointed attr.data.communities).bind fun communities =>
        .ok (out ++
          communities.communities.toList.flatMap communityText) := by
  have hbody : ∀ (out : List Printed) (comm : UInt32),
      (Outcome.ok (printCommunity out comm) :
        Outcome DumpFault (List Printed)) = .ok (out ++ communityText comm) := by
    intro out comm
    rw [printCommunity_eq]
  cases hpayload : attr.data.communities with
  | none =>
      simp [PathAttributes.Communities.range,
        PathAttributes.Communities.rangeData, PathAttributes.rangeOf,
        rangeOrNull, pointed, hpayload]
  | some communities =>
      have hshows : CPtrRange.Shows
          (⟨communities.communities.data, communities.communities.count⟩ :
            CPtrRange PathAttributes.Communities.view)
          communities.communities.toList :=
        CPtrRange.shows_load communities.communities
      simp [PathAttributes.Communities.range,
        PathAttributes.Communities.rangeData,
        PathAttributes.Communities.rangeSize, PathAttributes.rangeOf,
        rangeOrNull, pointed, hpayload, eachOf_of_ok hshows hbody]

theorem printEntry_eq (out : List Printed) (entry : RibEntryRecord) :
    printEntry out entry =
      (entryText entry).bind fun more => .ok (out ++ more) := by
  rw [printEntry, entryText, TableDumpV2.RibEntry.pathAttributes]
  cases hasPath : PathAttributes.hasAttrType entry.pathAttrs .asPath with
  | false => simp [PathAttributes.record, hasPath]
  | true =>
      simp only [PathAttributes.attribute, PathAttributes.record, hasPath,
        if_true, Outcome.ok_mapFault, Outcome.ok_bind, ← Outcome.bind_assoc,
        printPath_eq]
      simp only [Outcome.bind_assoc]
      congr 1
      funext path
      cases hcommunities :
          PathAttributes.hasAttrType entry.pathAttrs .communities with
      | false => simp [pathText]
      | true =>
          simp only [if_true, Outcome.ok_mapFault, Outcome.ok_bind,
            ← Outcome.bind_assoc, printCommunities_eq]
          simp [Outcome.bind_assoc, pathText, communitiesText]

theorem isRibIp_iff (subtype : UInt16) :
    TableDumpV2.Subtype.isRibIp subtype = true ↔
      2 ≤ subtype ∧ subtype ≤ 5 := by
  simp [TableDumpV2.Subtype.isRibIp]

/-- A message is printed as its text. -/
theorem printMessage_eq (out : List Printed) (content : MsgContent) :
    printMessage out content.mrt =
      (messageText content).bind fun more => .ok (out ++ more) := by
  rw [printMessage, messageText]
  cases content.mrt with
  | none => simp [Mrt.Message.toTableDumpV2, pointed]
  | some msg =>
      by_cases htype : msg.type = 13
      · by_cases hrib : 2 ≤ msg.subtype ∧ msg.subtype ≤ 5
        · have hisRib := (isRibIp_iff msg.subtype).mpr hrib
          cases hpayload : msg.tableDumpV2 with
          | none =>
              simp [Mrt.Message.toTableDumpV2, Mrt.Message.isTableDumpV2,
                TableDumpV2.toRib, pointed, htype, hrib, hisRib, hpayload]
          | some payload =>
              have hloop := eachOf_of_shows
                (TableDumpV2.Rib.shows payload.afiSafiRib) printEntry_eq out
              simp [Mrt.Message.toTableDumpV2, Mrt.Message.isTableDumpV2,
                TableDumpV2.toRib, pointed, htype, hrib, hisRib, hpayload,
                hloop]
        · have hnot : ¬ TableDumpV2.Subtype.isRibIp msg.subtype = true := by
            rwa [isRibIp_iff]
          simp [Mrt.Message.toTableDumpV2, Mrt.Message.isTableDumpV2, pointed,
            htype, hrib, hnot]
      · simp [Mrt.Message.toTableDumpV2, Mrt.Message.isTableDumpV2, pointed,
          htype]

/-- The body of the loop over the reader, on a message. -/
theorem printNext_message (out : List Printed)
    (message : ParseBgp.Message MsgContent) :
    Reader.onMessage mrtTransform printNext out message =
      ((pointed message).bind messageText).bind fun more =>
        .ok (.next (out ++ more)) := by
  cases message with
  | none => simp [Reader.onMessage, mrtTransform, toMrt, printNext, pointed]
  | some content =>
      simp [Reader.onMessage, mrtTransform, toMrt, printNext, pointed,
        printMessage_eq, Outcome.bind_assoc]

/-! ## Runs of the tool -/

/-- What the tool comes to when the messages of a complete file, and how they
end, are given. -/
def dumped (run : List MsgContent × End Error) :
    Outcome DumpFault (List Printed × ℕ) :=
  if run.1.isEmpty then .fault (throwStatus (Reader.statusOf run.2))
  else (collect messageText run.1).bind fun out => .ok (out, 0)

/-- The same, when the destructor of the stream fails behind the loop. -/
def aborted (run : List MsgContent × End Error) :
    Outcome DumpFault (List Printed × ℕ) :=
  (collect messageText run.1).bind fun _ => .fault (.reader .gzclose)

namespace Dump

/-- The options that the reader gets. -/
def opts (defaults : OptsRecord BgpOpts) : OptsRecord BgpOpts :=
  { defaults with ignoreNotImplemented := true }

/-- The reader of a run on a file. -/
def reader (tool : Dump File BgpOpts) (defaults : OptsRecord BgpOpts)
    (path : String) :
    Reader (GzipStream File) GzipStatus (OptsRecord BgpOpts) MsgContent :=
  .create tool.env (tool.gzs path) (some (opts defaults)) tool.message 32678

variable {tool : Dump File BgpOpts} {fuel rounds calls : ℕ}
variable {defaults : OptsRecord BgpOpts} {path : String}
variable {messages : List MsgContent} {status : ReaderStatus GzipStatus}
variable {final : Reader (GzipStream File) GzipStatus (OptsRecord BgpOpts)
  MsgContent}

/-- The loop and the destructor behind it. -/
theorem main_eq (program : String) (hoptions : tool.options = some defaults) :
    tool.main fuel rounds [program, path] =
      (Reader.forEach tool.env mrtTransform fuel .reader printNext rounds []
        (tool.reader defaults path)).bind fun result =>
          ((result.2.stream.destroy tool.zlib).mapFault .reader).bind fun _ =>
            .ok (result.1, 0) := by
  rw [main, hoptions]
  rfl

/-- The run of the tool, given the client loop on its reader. -/
theorem main_of_readAll (program : String)
    (hoptions : tool.options = some defaults)
    (hnot : (tool.reader defaults path).status.notFinished = true)
    (hread : Reader.readAll tool.env fuel calls (tool.reader defaults path) =
      .ok (messages.map some, status, final))
    (hrounds : messages.length + 1 < rounds) :
    tool.main fuel rounds [program, path] =
      if messages.isEmpty then .fault (throwStatus status)
      else (collect messageText messages).bind fun out =>
        ((final.stream.destroy tool.zlib).mapFault .reader).bind fun _ =>
          .ok (out, 0) := by
  rw [main_eq program hoptions]
  cases messages with
  | nil =>
      have hthrows : forList (fun state (_ : Unit) =>
          printNext state (mrtTransform (.error status))) [()] [] =
            .fault (throwStatus status) := rfl
      have hloop : Outcome.Rel (fun result spec => result.1 = spec.1)
          (Reader.forEach tool.env mrtTransform fuel .reader printNext rounds []
            (tool.reader defaults path))
          (forList (fun state (_ : Unit) =>
            printNext state (mrtTransform (.error status))) [()] []) :=
        Reader.forEach_of_readAll_nil hnot hread hrounds
      rw [hthrows] at hloop
      rw [hloop.eq_fault]
      rfl
  | cons message rest =>
      have hmore : ((message :: rest).map some).length < rounds := by
        rw [List.length_map]
        exact Nat.lt_of_succ_lt hrounds
      rw [Reader.forEach_collect_of_readAll printNext_message hnot hread
        (by simp) hmore, collect_map]
      simp [Outcome.bind_assoc, pointed]

/-- What the C decoder answers with the options of a run. -/
def answer (tool : Dump File BgpOpts) (defaults : OptsRecord BgpOpts) :
    List UInt8 → Except Error (ℕ × MsgContent) :=
  tool.env.answer (opts defaults)

/-- The tool is run on a file that zlib opens and reads as documented, nothing
it allocates is null, and each message fits the buffer. -/
structure Reads (tool : Dump File BgpOpts) (complete : Bool)
    (Left : File → List UInt8 → Bool → Prop) (defaults : OptsRecord BgpOpts)
    (block : MirroredMemory.Block UInt8) (path : String)
    (input : List UInt8) : Prop where
  zlib : tool.zlib.Contract complete Left
  opened : GzipStream.Opened Left false (tool.gzs path) input
  options : tool.options = some defaults
  message : ∃ content, tool.message = some content
  mirrors : tool.mirrors.create 0 32678 = some block
  capacity_le : block.capacity ≤ intMax
  lawful : Lawful (tool.answer defaults) .partialMsg
  fits : Fits (tool.answer defaults) .partialMsg block.capacity input

variable {complete : Bool} {Left : File → List UInt8 → Bool → Prop}
variable {block : MirroredMemory.Block UInt8} {input : List UInt8}

/-- The reader of the tool yields the reference run, its stream closes as the
file does, and a run that ends in whole messages or in an incomplete one has met
the end of the file. -/
theorem Reads.readAll
    (hreads : tool.Reads complete Left defaults block path input)
    (hfuel : 2 ≤ fuel) :
    ∃ final, Reader.readAll tool.env fuel (input.length + 1)
        (tool.reader defaults path) =
      .ok ((reference (tool.answer defaults) input).1.map some,
        Reader.statusOf (reference (tool.answer defaults) input).2, final) ∧
      final.stream.Closes tool.zlib complete ∧
      ((reference (tool.answer defaults) input).2 = .finished ∨
          (reference (tool.answer defaults) input).2 = .failed .partialMsg →
        final.stream.eof tool.zlib = true) := by
  obtain ⟨content, hmessage⟩ := hreads.message
  have hexact : tool.env.stream.ExactUpTo intMax
      (GzipStream.Opened Left false) := gzipStream_exactUpTo hreads.zlib
  obtain ⟨final, hread⟩ := Reader.readAll_of_fits hreads.lawful hexact
    hreads.mirrors hreads.capacity_le hreads.opened hreads.fits hfuel
    (Nat.lt_succ_self input.length)
  have hinv := gzipInv_of_readAll hreads.zlib hreads.opened hread
  have hincomplete := eof_of_readAll_incomplete hreads.zlib hreads.opened hread
  rw [← hmessage] at hread
  refine ⟨final, hread, hinv.closes, ?_⟩
  rintro (hend | hend)
  · apply hinv.ended
    have hvalue : (Reader.statusOf (reference (tool.answer defaults) input).2 :
        ReaderStatus GzipStatus).value = .finished := by
      rw [hend]
      rfl
    exact Or.inr hvalue
  · apply hincomplete
    have hstatus : (Reader.statusOf (reference (tool.answer defaults) input).2 :
        ReaderStatus GzipStatus) = .ofDecoder .partialMsg := by
      rw [hend]
      rfl
    exact hstatus

theorem Reads.notFinished
    (hreads : tool.Reads complete Left defaults block path input) :
    (tool.reader defaults path).status.notFinished = true := by
  obtain ⟨content, hmessage⟩ := hreads.message
  rw [reader, hmessage]
  exact ReaderStatus.notFinished_of_isOk (Reader.create_isOk (opts defaults)
    (tool.gzs path) content hreads.mirrors)

/-- A short RIB message: its subtype, and behind it the AS numbers of the one
path it has. -/
def shortContent (bytes : List UInt8) : MsgContent where
  mrt := some
    { type := 13
      subtype := (bytes.getD 1 0).toUInt16
      tableDumpV2 := some
        { peerIndex := ⟨.ofList []⟩
          afiSafiRib := ⟨.ofList [⟨⟨fun index =>
            { type := if index = 2 then 2 else 0
              data :=
                { asPath := some
                    { segs := .ofList
                        [⟨2, .ofList ((bytes.drop 2).map UInt8.toUInt32)⟩] }
                  communities := none
                  clusterList := none
                  mpReach := none
                  mpUnreach := none
                  largeCommunities := none } }⟩⟩]⟩ } }

def shortLibrary : Library (OptsRecord Unit) MsgContent where
  blank := ⟨none⟩
  clear _ := ⟨none⟩
  clear_eq _ := rfl
  decode _ _ _ bytes :=
    let result := prefixedDecode bytes
    (result.1, result.2.1, shortContent result.2.2)

theorem shortLibrary_answer (options : OptsRecord Unit) (type : MessageType)
    (bytes : List UInt8) :
    shortLibrary.answer options type bytes =
      (prefixedLibrary.answer () type bytes).map
        (Prod.map id shortContent) := by
  change (if (prefixedDecode bytes).1.isOk then _ else _) =
    (if (prefixedDecode bytes).1.isOk then _ else _ : Except _ _).map _
  cases (prefixedDecode bytes).1.isOk <;> rfl

/-- The tool on a gzip file in memory. -/
def shortTool (content : List UInt8) (complete : Bool) : Dump GzFile Unit where
  gzopen _ := some ⟨content, false, complete⟩
  zlib := listZlib
  library := shortLibrary
  mirrors := exactMirrors
  options := some ⟨false, false, false, false, ()⟩
  message := some ⟨none⟩

theorem shortTool_reads {content : List UInt8} (complete : Bool)
    (hlength : content.length < 32678) :
    (shortTool content complete).Reads complete
      (fun file bytes past => file = ⟨bytes, past, complete⟩)
      ⟨false, false, false, false, ()⟩ ⟨32678, fun _ => 0, by decide⟩ path
      content where
  zlib := listZlib_contract complete
  opened := ⟨_, rfl, rfl⟩
  options := rfl
  message := ⟨_, rfl⟩
  mirrors := rfl
  capacity_le := by decide
  lawful := by
    have hanswer : (shortTool content complete).answer
        ⟨false, false, false, false, ()⟩ = fun bytes =>
          (prefixedLibrary.answer () .mrt bytes).map
            (Prod.map id shortContent) := by
      funext bytes
      exact shortLibrary_answer _ _ bytes
    rw [hanswer]
    exact (prefixed_lawful .mrt).map shortContent
  fits := fits_of_length_lt hlength

/-- Over a complete file the tool prints the texts of the messages of the
reference run, in order, and returns 0, also when an error ends the run behind
the first message.  Without a message it throws the code of the status, over a
truncated file too.  Behind the messages of a truncated file whose end is met,
in whole messages or in an incomplete one, the destructor of the stream fails;
behind those that an invalid message follows it may. -/
theorem main_refines_reference
    (hreads : tool.Reads complete Left defaults block path input)
    (hfuel : 2 ≤ fuel)
    (hrounds : (reference (tool.answer defaults) input).1.length + 1 < rounds)
    (program : String) :
    (complete = true → tool.main fuel rounds [program, path] =
      dumped (reference (tool.answer defaults) input)) ∧
    ((reference (tool.answer defaults) input).1 = [] →
      tool.main fuel rounds [program, path] =
        dumped (reference (tool.answer defaults) input)) ∧
    (complete = false →
      (reference (tool.answer defaults) input).1 ≠ [] →
      (reference (tool.answer defaults) input).2 = .finished ∨
          (reference (tool.answer defaults) input).2 = .failed .partialMsg →
        tool.main fuel rounds [program, path] =
          aborted (reference (tool.answer defaults) input)) ∧
    (tool.main fuel rounds [program, path] =
        dumped (reference (tool.answer defaults) input) ∨
      tool.main fuel rounds [program, path] =
        aborted (reference (tool.answer defaults) input)) := by
  obtain ⟨final, hread, hcloses, hended⟩ := hreads.readAll hfuel
  have hmain := main_of_readAll program hreads.options hreads.notFinished hread
    hrounds
  have hempty : (reference (tool.answer defaults) input).1 = [] →
      tool.main fuel rounds [program, path] =
        dumped (reference (tool.answer defaults) input) := by
    intro hnil
    rw [hmain, dumped, hnil]
    rfl
  have hok : final.stream.destroy tool.zlib = .ok () →
      tool.main fuel rounds [program, path] =
        dumped (reference (tool.answer defaults) input) := by
    intro hdestroy
    rw [hmain, hdestroy]
    rfl
  have hfault : (reference (tool.answer defaults) input).1 ≠ [] →
      final.stream.destroy tool.zlib = .fault .gzclose →
        tool.main fuel rounds [program, path] =
          aborted (reference (tool.answer defaults) input) := by
    intro hsome hdestroy
    rw [hmain, if_neg (by simpa using hsome), hdestroy]
    rfl
  refine ⟨fun hcomplete => hok (hcloses.of_complete hcomplete), hempty, ?_, ?_⟩
  · intro htruncated hsome hend
    exact hfault hsome (hcloses.of_truncated htruncated (hended hend))
  · by_cases hnil : (reference (tool.answer defaults) input).1 = []
    · exact Or.inl (hempty hnil)
    · exact (GzipStream.destroy_cases final.stream).imp hok (hfault hnil)

/-- A message and a broken one behind it: over a complete file the tool prints
the first and returns 0.  An incomplete message at the end of a truncated file
stops it in the destructor. -/
theorem main_refines_reference_broken :
    (shortTool [4, 2, 7, 0, 0] true).main 2 3 ["dump", "rib.gz"] =
        .ok ([.text "ASPATH: ", .text "(", .character 2, .text ") ", .number 7,
          .text "", .text " ", .number 0, .text "[!]", .text " ", .endl], 0) ∧
      (shortTool [4, 2, 7, 0, 3] false).main 2 3 ["dump", "rib.gz"] =
        .fault (.reader .gzclose) := by
  constructor
  · exact (main_refines_reference (shortTool_reads true (by decide)) le_rfl
      (by decide) "dump").1 rfl
  · have hmessages : (reference ((shortTool [4, 2, 7, 0, 3] false).answer
        ⟨false, false, false, false, ()⟩) [4, 2, 7, 0, 3]).1 =
          [shortContent [4, 2, 7, 0]] := rfl
    refine (main_refines_reference (shortTool_reads false (by decide)) le_rfl
      (by decide) "dump").2.2.1 rfl ?_ (Or.inr rfl)
    rw [hmessages]
    simp

/-- Over a complete file the tool returns 0 exactly if the run has a message and
all its messages are printable; how the run ends does not matter. -/
theorem main_returns_iff
    (hreads : tool.Reads true Left defaults block path input)
    (hfuel : 2 ≤ fuel)
    (hrounds : (reference (tool.answer defaults) input).1.length + 1 < rounds)
    (program : String) :
    (∃ out, tool.main fuel rounds [program, path] = .ok (out, 0)) ↔
      (reference (tool.answer defaults) input).1 ≠ [] ∧
        ∀ content ∈ (reference (tool.answer defaults) input).1,
          Printable content := by
  obtain ⟨final, hread, hcloses, -⟩ := hreads.readAll hfuel
  rw [main_of_readAll program hreads.options hreads.notFinished hread hrounds,
    hcloses.of_complete rfl]
  simp only [← exists_messageText_iff, ← exists_collect_eq_ok_iff]
  cases hmessages : (reference (tool.answer defaults) input).1 with
  | nil => simp
  | cons first rest =>
      simp [Outcome.bind_eq_ok_iff]

/-- A peer index table, which has no lines, and a RIB behind it. -/
theorem main_returns_iff_rib :
    ∃ out, (shortTool [2, 1, 4, 2, 7, 9] true).main 2 4 ["dump", "rib.gz"] =
      .ok (out, 0) := by
  apply (main_returns_iff (shortTool_reads true (by decide)) le_rfl (by decide)
    "dump").mpr
  have hmessages : (reference ((shortTool [2, 1, 4, 2, 7, 9] true).answer
      ⟨false, false, false, false, ()⟩) [2, 1, 4, 2, 7, 9]).1 =
        [shortContent [2, 1], shortContent [4, 2, 7, 9]] := rfl
  rw [hmessages]
  constructor
  · simp
  · intro content hcontent
    rcases List.mem_pair.mp hcontent with rfl | rfl
    · exact ⟨_, rfl, rfl, fun hrib => absurd hrib.1 (by decide)⟩
    · refine ⟨_, rfl, rfl, fun _ => ⟨_, rfl, ?_⟩⟩
      intro entry hentry
      obtain rfl := List.mem_singleton.mp hentry
      refine ⟨⟨_, _, rfl, rfl⟩, fun attr hattr => ?_⟩
      have hnone : none = some attr := hattr
      simp at hnone

/-! ## Runs without a message to read -/

/-- When the buffer cannot be mapped the loop has no rounds, and the tool
returns 0 with nothing printed. -/
theorem main_of_unmapped (program : String)
    (hoptions : tool.options = some defaults)
    (hmirrors : tool.mirrors.create 0 32678 = none)
    (hcloses : (tool.gzs path).destroy tool.zlib = .ok ())
    (hrounds : 0 < rounds) :
    tool.main fuel rounds [program, path] = .ok ([], 0) := by
  obtain ⟨rounds, rfl⟩ := Nat.exists_eq_succ_of_ne_zero hrounds.ne'
  have hnull : (MirroredRingBuffer.create tool.env.mirrors 0 32678).isNull =
      true := by
    change (MirroredRingBuffer.create tool.mirrors 0 32678).isNull = true
    rw [MirroredRingBuffer.create_eq_null hmirrors]
    rfl
  have hended : (tool.reader defaults path).notAtEnd = false := by
    rw [Reader.notAtEnd, reader, Reader.create, if_pos hnull]
    rfl
  rw [main_eq program hoptions, Reader.forEach, hended]
  simp [reader, Reader.create, hcloses]

/-- A file that cannot be opened ends the program with the code of
`STREAM_ERROR`, as far as zlib answers calls on a null file with errors. -/
theorem main_of_unopened (program : String)
    (hoptions : tool.options = some defaults)
    (hunopened : tool.gzopen path = none)
    (hread : ∀ count, tool.zlib.gzread none count = (-1, [], none))
    (heof : tool.zlib.gzeof none = false)
    (hmirrors : tool.mirrors.create 0 32678 = some block)
    (hrounds : 1 < rounds) :
    tool.main fuel rounds [program, path] = .fault (.thrown "3") := by
  have hgzs : tool.gzs path = ⟨none, .memError⟩ := by
    rw [gzs, hunopened]
    rfl
  have hrefused : ∀ count, GzipStream.read tool.zlib (tool.gzs path) count =
      ([], ⟨none, .errno⟩) := by
    intro count
    rw [hgzs, GzipStream.read, hread]
    rfl
  have hfails : tool.env.stream.FailsAt (tool.reader defaults path).stream
      (tool.reader defaults path).buffer.availableWrite := by
    change (gzipStream tool.zlib).FailsAt (tool.gzs path) _
    constructor <;>
      simp [gzipStream, hrefused, GzipStream.good, GzipStream.bad,
        GzipStream.eof, GzipStatus.isOk, heof]
  obtain ⟨hvalid, -, -⟩ := MirroredRingBuffer.create_valid hmirrors
  have hok : (tool.reader defaults path).status.isOk = true := by
    have hnull : (MirroredRingBuffer.create tool.env.mirrors 0 32678).isNull =
        false := hvalid.isNull_eq
    rw [reader, Reader.create, hnull]
    rfl
  obtain ⟨final, hall⟩ : ∃ final, Reader.readAll tool.env fuel 1
      (tool.reader defaults path) = .ok (([] : List MsgContent).map some,
        .ofStream (tool.env.stream.status
          (Reader.refilled tool.env (tool.reader defaults path))), final) :=
    Reader.readAll_of_unreadable hvalid hok rfl hfails
  have hcode : toString (code .streamError) = "3" := by decide
  rw [main_of_readAll program hoptions (ReaderStatus.notFinished_of_isOk hok)
    hall hrounds, List.isEmpty_nil, if_pos rfl, throwStatus]
  exact congrArg (fun what => Outcome.fault (DumpFault.thrown what)) hcode

end Dump

end ParseBgp.Tools
