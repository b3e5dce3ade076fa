import ParseBgp.Io.GzipStream
import ParseBgp.Io.Instances
import ParseBgp.Io.MessageBoundaries

/-!
# Truncated gzip files

zlib reports that a file ends in the middle of a gzip member in `gzerror` and
`gzclose_r` only.  `GzipStream` looks at neither before its destructor, and the
destructor asserts that the file was closed with `Z_OK`: a truncated file that
is cut at a message boundary is taken for a complete one, and one that is read
to its end stops the program.
-/

namespace ParseBgp.Io

open Loop WholeInput

variable {File Opts Content : Type}

/-- A reader over a `GzipStream`. -/
def gzipEnv (zlib : Zlib File) (library : Library Opts Content)
    (mirrors : MirrorSource) (messageType : MessageType) :
    ReaderEnv (GzipStream File) GzipStatus Opts Content where
  stream := gzipStream zlib
  library := library
  mirrors := mirrors
  messageType := messageType

/-- The promise that a truncated file is never taken for a complete one: the
final status is `FINISHED` only if the file is complete and its content a
concatenation of whole messages, and destroying the stream does not violate the
assertion. -/
structure NoticesTruncation (zlib : Zlib File)
    (answer : List UInt8 → Except Error (ℕ × Content)) (complete : Bool)
    (input : List UInt8) (status : ReaderStatus GzipStatus)
    (stream : GzipStream File) : Prop where
  finished : status.isFinished = true →
    complete = true ∧ WholeMessages answer input
  destroyed : stream.destroy zlib = .ok ()

/-- How destroying a stream goes: without a fault if the file is complete, and
with one if it is truncated and its end was reached. -/
structure GzipStream.Closes (zlib : Zlib File) (complete : Bool)
    (stream : GzipStream File) : Prop where
  of_complete : complete = true → stream.destroy zlib = .ok ()
  of_truncated : complete = false → stream.eof zlib = true →
    stream.destroy zlib = .fault .gzclose

/-- What the status of the reader says about its `GzipStream`: it is open while
the status is `OK`, and its end has been reached once the stream is finished. -/
structure GzipInv (zlib : Zlib File) (complete : Bool)
    (Left : File → List UInt8 → Bool → Prop) (value : StatusValue)
    (stream : GzipStream File) : Prop where
  opened : value = .ok →
    ∃ bytes, GzipStream.Opened Left false stream bytes
  closes : stream.Closes zlib complete
  ended : value = .streamFinished ∨ value = .finished →
    stream.eof zlib = true

variable {zlib : Zlib File} {complete : Bool}
variable {Left : File → List UInt8 → Bool → Prop}

section Contract

variable (hzlib : zlib.Contract complete Left)
include hzlib

namespace GzipStream

omit hzlib in
theorem destroy_eq_ok_iff {stream : GzipStream File} :
    stream.destroy zlib = .ok () ↔
      ∀ file, stream.cptr = some file → zlib.gzcloseR file = zOk := by
  rw [destroy]
  cases stream.cptr with
  | none => simp
  | some file =>
      by_cases hclose : zlib.gzcloseR file = zOk <;> simp [hclose]

omit hzlib in
theorem destroy_cases (stream : GzipStream File) :
    stream.destroy zlib = .ok () ∨ stream.destroy zlib = .fault .gzclose := by
  rw [destroy]
  split
  · exact Or.inl rfl
  · split
    · exact Or.inl rfl
    · exact Or.inr rfl

theorem Opened.closes {past : Bool} {stream : GzipStream File}
    {bytes : List UInt8} (hopened : Opened Left past stream bytes) :
    stream.Closes zlib complete where
  of_complete := by
    obtain ⟨file, rfl, hleft⟩ := hopened
    intro hcomplete
    simp [destroy, hzlib.closes hleft hcomplete]
  of_truncated := by
    intro htruncated heof
    rw [hopened.eof hzlib] at heof
    obtain ⟨file, rfl, hleft⟩ := hopened
    rw [heof] at hleft
    simp [destroy, hzlib.truncated hleft htruncated, zBufError, zOk]

/-- Counts that `gzread` refuses make the stream fail. -/
theorem Opened.read_refused {stream : GzipStream File} {bytes : List UInt8}
    {count : ℕ} (hopened : Opened Left false stream bytes)
    (hcount : intMax < count % 2 ^ 32) :
    (gzipStream zlib).FailsAt stream count ∧
      (stream.read zlib count).2.Closes zlib complete := by
  obtain ⟨file, rfl, hleft⟩ := hopened
  obtain ⟨after, hread, heof, hclose⟩ := hzlib.refused hleft hcount
  have hresult : GzipStream.read zlib ⟨some file, .ok⟩ count =
      ([], ⟨some after, .errno⟩) := by
    rw [GzipStream.read, hread]
    rfl
  have hbad : GzipStream.bad ⟨some after, .errno⟩ = true := rfl
  have hend : GzipStream.eof zlib ⟨some after, .errno⟩ = false := heof
  constructor
  · constructor <;>
      simp [gzipStream, hresult, GzipStream.good, hbad, hend]
  · rw [hresult]
    constructor
    · intro hcomplete
      simp [destroy, hclose hcomplete]
    · intro _ hpast
      rw [hend] at hpast
      simp at hpast

theorem Opened.closes_read {stream : GzipStream File} {bytes : List UInt8}
    (hopened : Opened Left false stream bytes) (count : ℕ) :
    (stream.read zlib count).2.Closes zlib complete := by
  by_cases hcount : count % 2 ^ 32 ≤ intMax
  · exact (hopened.read hzlib hcount).2.closes hzlib
  · exact (hopened.read_refused hzlib (not_le.mp hcount)).2

end GzipStream

/-- An opened `GzipStream` hands out the content in order, whatever counts it is
asked for. -/
theorem gzipStream_soundReads :
    (gzipStream zlib).SoundReads (GzipStream.Opened Left false) where
  read := by
    intro stream bytes count hopened
    by_cases hcount : count % 2 ^ 32 ≤ intMax
    · left
      obtain ⟨hread, hafter⟩ := hopened.read hzlib hcount
      have hgood := hafter.good hzlib
      have heof := hafter.eof hzlib
      refine ⟨bytes.drop (count % 2 ^ 32), ?_, ?_, ?_⟩
      · change bytes = (stream.read zlib count).1 ++ _
        rw [hread, List.take_append_drop]
      · change (stream.read zlib count).1.length ≤ count
        rw [hread, List.length_take]
        exact (min_le_left _ _).trans (Nat.mod_le _ _)
      · by_cases hshort : bytes.length < count % 2 ^ 32
        · simp only [hshort, decide_true, Bool.false_or] at hgood heof
          exact Or.inr ⟨hgood, heof, List.drop_eq_nil_of_le hshort.le⟩
        · simp only [hshort, decide_false, Bool.false_or] at hgood hafter
          exact Or.inl ⟨hgood, hafter⟩
    · exact Or.inr (hopened.read_refused hzlib (not_le.mp hcount)).1

theorem gzip_statusInvariant (library : Library Opts Content)
    (mirrors : MirrorSource) (messageType : MessageType) :
    Reader.StatusInvariant (gzipEnv zlib library mirrors messageType)
      (GzipInv zlib complete Left) where
  good := by
    intro stream count hinv hgood
    obtain ⟨bytes, hopened⟩ := hinv.opened rfl
    refine ⟨fun _ => ?_, hopened.closes_read hzlib count, by simp⟩
    rcases (gzipStream_soundReads hzlib).read count hopened with
      ⟨rest, -, -, ⟨-, hnext⟩ | ⟨hnot, -⟩⟩ | hfails
    · exact ⟨rest, hnext⟩
    · exact absurd (hgood.symm.trans hnot) (by simp)
    · exact absurd (hgood.symm.trans hfails.not_good) (by simp)
  eof := by
    intro stream count hinv _ heof
    obtain ⟨bytes, hopened⟩ := hinv.opened rfl
    exact ⟨by simp, hopened.closes_read hzlib count, fun _ => heof⟩
  bad := by
    intro stream count hinv _ _ _
    obtain ⟨bytes, hopened⟩ := hinv.opened rfl
    exact ⟨by simp, hopened.closes_read hzlib count, by simp⟩
  finished := fun hinv =>
    ⟨by simp, hinv.closes, fun _ => hinv.ended (Or.inl rfl)⟩
  failed := fun hinv => ⟨by simp, hinv.closes, by simp⟩

end Contract

/-! ## Runs of the reader -/

section Run

variable {library : Library Opts Content} {mirrors : MirrorSource}
variable {messageType : MessageType} {opts : Opts} {content : Content}
variable {bufferSize fuel calls : ℕ} {stream : GzipStream File}
variable {input : List UInt8} {messages : List (Message Content)}
variable {status : ReaderStatus GzipStatus}
variable {final : Reader (GzipStream File) GzipStatus Opts Content}
variable (hzlib : zlib.Contract complete Left)
variable (hopened : GzipStream.Opened Left false stream input)
variable (hread : Reader.readAll (gzipEnv zlib library mirrors messageType)
  fuel calls (.create (gzipEnv zlib library mirrors messageType) stream
    (some opts) (some content) bufferSize) = .ok (messages, status, final))
include hzlib hopened hread

theorem gzipInv_create :
    (Reader.create (gzipEnv zlib library mirrors messageType) stream
      (some opts) (some content) bufferSize).Satisfies
        (GzipInv zlib complete Left) :=
  ⟨fun _ => ⟨input, hopened⟩, hopened.closes hzlib, by
    rw [ReaderStatus.value_of_isOk (Reader.readAll_isOk rfl hread)]
    simp⟩

/-- At the end of a run the status tells whether the end of the stream was
reached, and the stream closes as its file does. -/
theorem gzipInv_of_readAll :
    GzipInv zlib complete Left status.value final.stream := by
  have hinv := gzipInv_create hzlib hopened hread
  obtain ⟨rfl, -⟩ := Reader.readAll_final rfl hread
  exact (gzip_statusInvariant hzlib library mirrors messageType).readAll hinv
    rfl hread

/-- A run that ends in an incomplete message has met the end of the file. -/
theorem eof_of_readAll_incomplete
    (hincomplete : status = .ofDecoder .partialMsg) :
    final.stream.eof zlib = true := by
  have hinv := gzipInv_create hzlib hopened hread
  have hended := (gzip_statusInvariant hzlib library mirrors
    messageType).readAll_incomplete hinv rfl hread hincomplete
  exact hended.ended (Or.inl rfl)

theorem wholeMessages_of_gzip_isFinished
    (hrefill : ∀ reader, Reader.DecodePoint
        (gzipEnv zlib library mirrors messageType) fuel
        (.create (gzipEnv zlib library mirrors messageType) stream (some opts)
          (some content) bufferSize) reader →
      Reader.OneRefillSuffices (gzipEnv zlib library mirrors messageType) opts
        reader)
    (hfinished : status.isFinished = true) :
    WholeMessages (library.answer opts messageType) input := by
  obtain ⟨block, hcreate⟩ :=
    Reader.create_of_isOk (Reader.readAll_isOk rfl hread)
  obtain ⟨-, -, hsynced⟩ := Reader.create_synced opts content hcreate hopened
  have hsound : (gzipEnv zlib library mirrors messageType).stream.SoundReads
      (GzipStream.Opened Left false) := gzipStream_soundReads hzlib
  exact Reader.wholeMessages_of_isFinished hsound hsynced rfl hrefill hread
    hfinished

end Run

/-- A run over a complete file in which no `decode_one` asks for a second refill
before the end of the stream keeps the promise.  Over a truncated file the
promise is kept exactly if no read has met the end of the file and `gzclose_r`
does not notice either; a run that has not met the end is not `FINISHED`. -/
theorem noticesTruncation_iff_closes (hzlib : zlib.Contract complete Left)
    (library : Library Opts Content) (mirrors : MirrorSource)
    (messageType : MessageType) (opts : Opts) (content : Content)
    (bufferSize : ℕ) {stream : GzipStream File} {input : List UInt8}
    (hopened : GzipStream.Opened Left false stream input) (fuel calls : ℕ)
    {messages : List (Message Content)} {status : ReaderStatus GzipStatus}
    {final : Reader (GzipStream File) GzipStatus Opts Content}
    (hread : Reader.readAll (gzipEnv zlib library mirrors messageType)
      fuel calls (.create (gzipEnv zlib library mirrors messageType) stream
        (some opts) (some content) bufferSize) =
          .ok (messages, status, final)) :
    (complete = true →
      (∀ reader, Reader.DecodePoint
          (gzipEnv zlib library mirrors messageType) fuel
          (.create (gzipEnv zlib library mirrors messageType) stream
            (some opts) (some content) bufferSize) reader →
        Reader.OneRefillSuffices (gzipEnv zlib library mirrors messageType)
          opts reader) →
        NoticesTruncation zlib (library.answer opts messageType) complete
          input status final.stream) ∧
    (complete = false →
      (NoticesTruncation zlib (library.answer opts messageType) complete
          input status final.stream ↔
        final.stream.eof zlib = false ∧
          ∀ file, final.stream.cptr = some file →
            zlib.gzcloseR file = zOk)) ∧
    (complete = false → final.stream.eof zlib = false →
      status.isFinished = false) := by
  have hinv := gzipInv_of_readAll hzlib hopened hread
  have hunfinished : final.stream.eof zlib = false →
      status.isFinished = false := by
    intro heof
    by_contra hfinished
    rw [Bool.not_eq_false] at hfinished
    have hvalue : status.value = .finished := by
      simpa [ReaderStatus.isFinished] using hfinished
    have hended := hinv.ended (Or.inr hvalue)
    exact absurd (hended.symm.trans heof) (by simp)
  refine ⟨?_, ?_, fun _ => hunfinished⟩
  · intro hcomplete hrefill
    constructor
    · intro hfinished
      exact ⟨hcomplete, wholeMessages_of_gzip_isFinished hzlib hopened hread
        hrefill hfinished⟩
    · exact hinv.closes.of_complete hcomplete
  · intro htruncated
    constructor
    · intro hnotices
      refine ⟨?_, GzipStream.destroy_eq_ok_iff.mp hnotices.destroyed⟩
      by_contra heof
      rw [Bool.not_eq_false] at heof
      have hfault := hinv.closes.of_truncated htruncated heof
      exact absurd (hfault.symm.trans hnotices.destroyed) (by simp)
    · rintro ⟨heof, hcloses⟩
      constructor
      · intro hfinished
        exact absurd (hfinished.symm.trans (hunfinished heof)) (by simp)
      · exact GzipStream.destroy_eq_ok_iff.mpr hcloses

/-! ## A file in memory -/

/-- A gzip file that is already in memory: the content that is left, whether a
read has come up short, and whether the file is complete. -/
structure GzFile where
  rest : List UInt8
  past : Bool
  complete : Bool
  deriving DecidableEq, Repr

def listZlib : Zlib GzFile where
  gzbuffer file _ := (zOk, file)
  gzread file count :=
    match file with
    | none => (-1, [], none)
    | some file =>
        if intMax < count then (-1, [], some file)
        else
          (((file.rest.take count).length : ℤ), file.rest.take count,
            some { file with
              rest := file.rest.drop count
              past := file.past || decide (file.rest.length < count) })
  gzeof file :=
    match file with
    | none => false
    | some file => file.past
  gzcloseR file := if !file.complete && file.past then zBufError else zOk

theorem listZlib_contract (complete : Bool) :
    listZlib.Contract complete
      fun file bytes past => file = ⟨bytes, past, complete⟩ where
  gzread := by
    rintro _ bytes past count rfl hcount
    exact ⟨_, if_neg (not_lt.mpr hcount), rfl⟩
  refused := by
    rintro _ bytes past count rfl hcount
    refine ⟨_, if_pos hcount, rfl, ?_⟩
    rintro rfl
    rfl
  gzeof := by
    rintro _ bytes past rfl
    rfl
  closes := by
    rintro _ bytes past rfl rfl
    rfl
  truncated := by
    rintro _ bytes rfl rfl
    rfl

/-- Length-prefixed messages from a gzip file in memory. -/
def gzFileEnv : ReaderEnv (GzipStream GzFile) GzipStatus Unit (List UInt8) :=
  gzipEnv listZlib prefixedLibrary exactMirrors .mrt

/-- A new reader with a buffer of `bufferSize` bytes over a file. -/
def gzFileReader (content : List UInt8) (complete : Bool) (bufferSize : ℕ) :
    Reader (GzipStream GzFile) GzipStatus Unit (List UInt8) :=
  .create gzFileEnv (.create listZlib (some ⟨content, false, complete⟩) 8192)
    (some ()) (some []) bufferSize

/-- The decode points of a run that ends in its third `decode_one`. -/
private theorem three_points {env : ReaderEnv (GzipStream File) GzipStatus Opts
      Content} {fuel : ℕ}
    {fresh first second third last reader :
      Reader (GzipStream File) GzipStatus Opts Content}
    (hfill : Reader.fillBuffer env { fresh with started := true } = .ok first)
    (hfirst : Reader.decodeOne env fuel first = .ok second)
    (hsecond : Reader.decodeOne env fuel second = .ok third)
    (hthird : Reader.decodeOne env fuel third = .ok last)
    (hended : last.status.notFinished = false)
    (hpoint : Reader.DecodePoint env fuel fresh reader) :
    reader = first ∨ reader = second ∨ reader = third := by
  induction hpoint with
  | first hfill' _ =>
      exact Or.inl (Outcome.ok.inj (hfill'.symm.trans hfill))
  | next _ hdecode hnot ih =>
      rcases ih with rfl | rfl | rfl
      · exact Or.inr (Or.inl (Outcome.ok.inj (hdecode.symm.trans hfirst)))
      · exact Or.inr (Or.inr (Outcome.ok.inj (hdecode.symm.trans hsecond)))
      · rw [Outcome.ok.inj (hdecode.symm.trans hthird)] at hnot
        exact absurd (hnot.symm.trans hended) (by simp)

/-- An invalid message ends the run after the first fill. -/
private theorem invalid_run (rest : List UInt8) :
    ∃ final, Reader.readAll gzFileEnv 4 4
        (gzFileReader (0 :: 1 :: rest) false 2) =
          .ok ([], .ofDecoder .invalidMsg, final) ∧
      final.stream = ⟨some ⟨rest, false, false⟩, .ok⟩ :=
  ⟨_, rfl, rfl⟩

/-- A complete file of two messages, of which the second is refilled, and a
truncated one with an invalid message long before its end. -/
theorem noticesTruncation_iff_closes_two :
    NoticesTruncation listZlib (prefixedLibrary.answer () .mrt) true
        [2, 7, 3, 8, 9] (.ofValue .finished) ⟨some ⟨[], true, true⟩, .ok⟩ ∧
      NoticesTruncation listZlib (prefixedLibrary.answer () .mrt) false
        (0 :: 1 :: List.replicate 200000 1) (.ofDecoder .invalidMsg)
        ⟨some ⟨List.replicate 200000 1, false, false⟩, .ok⟩ := by
  constructor
  · refine (noticesTruncation_iff_closes (listZlib_contract true)
      prefixedLibrary exactMirrors .mrt () [] 4 ⟨_, rfl, rfl⟩ 4 4
      (rfl : Reader.readAll gzFileEnv 4 4 (gzFileReader [2, 7, 3, 8, 9] true 4) =
        .ok ([some [2, 7], some [3, 8, 9]], .ofValue .finished, _))).1 rfl ?_
    intro reader hpoint
    rcases three_points rfl rfl rfl rfl rfl hpoint with rfl | rfl | rfl
    · exact Or.inr (Or.inl (by decide))
    · exact Or.inr (Or.inr (Or.inl rfl))
    · exact Or.inl rfl
  · obtain ⟨final, hread, hstream⟩ := invalid_run (List.replicate 200000 1)
    rw [← hstream]
    refine ((noticesTruncation_iff_closes (listZlib_contract false)
      prefixedLibrary exactMirrors .mrt () [] 2 ⟨_, rfl, rfl⟩ 4 4
      hread).2.1 rfl).mpr ?_
    rw [hstream]
    refine ⟨rfl, fun file hfile => ?_⟩
    rw [← Option.some.inj hfile]
    rfl

/-- A file that is cut at a message boundary is `FINISHED`, and destroying its
stream violates the assertion.  A complete file whose last message is cut short
is `FINISHED` if the buffer has to grow. -/
theorem not_noticesTruncation :
    (∃ final, Reader.readAll gzFileEnv 4 3 (gzFileReader [2, 7] false 4) =
        .ok ([some [2, 7]], .ofValue .finished, final) ∧
      final.stream.destroy listZlib = .fault .gzclose ∧
      ¬ NoticesTruncation listZlib (prefixedLibrary.answer () .mrt) false
        [2, 7] (.ofValue .finished) final.stream) ∧
    (∃ final, Reader.readAll gzFileEnv 4 3 (gzFileReader [4, 1, 1] true 1) =
        .ok ([some [1], some [1]], .ofValue .finished, final) ∧
      ¬ NoticesTruncation listZlib (prefixedLibrary.answer () .mrt) true
        [4, 1, 1] (.ofValue .finished) final.stream) := by
  constructor
  · refine ⟨_, rfl, rfl, ?_⟩
    intro hnotices
    exact absurd (hnotices.finished rfl).1 (by simp)
  · refine ⟨_, rfl, ?_⟩
    intro hnotices
    have hwhole := (hnotices.finished rfl).2
    rw [(prefixed_lawful .mrt).wholeMessages_iff] at hwhole
    exact absurd hwhole (by decide)

end ParseBgp.Io
