import ParseBgp.Io.Bzip2Stream
import ParseBgp.Io.GzipReader

/-!
# Read lengths of 64 bits

`read` passes its `size_t` length on to `gzread`, which takes an `unsigned`,
and to `BZ2_bzread`, which takes an `int`.  Both keep the length modulo `2 ^ 32`
only.  `Bzip2Stream` then compares the result with the length before the
conversion.
-/

namespace ParseBgp.Io

open Loop

/-- What a read of `length` bytes should do to a healthy stream with `bytes`
left, in terms of the bytes it returns and of how it leaves the stream. -/
structure FaithfulRead (bytes result : List UInt8) (length : ℕ)
    (bad ended : Bool) : Prop where
  next : result <+: bytes
  length_le : result.length ≤ min length bytes.length
  progress : bytes ≠ [] → 1 ≤ result.length
  not_bad : bad = false
  all_of_ended : ended = true → result = bytes

/-- `BZ_PARAM_ERROR` -/
def bzParamError : ℤ := -2

/-- Nothing is read for a count of zero. -/
structure Bzlib.LengthContract {File : Type} (bzlib : Bzlib File)
    (Left : File → List UInt8 → Prop) : Prop extends bzlib.Contract Left where
  zero : ∀ {file : File} {bytes : List UInt8}, Left file bytes →
    ∃ after, bzlib.bzread (some file) 0 = (0, [], some after) ∧
      Left after bytes

/-- A negative count is a parameter error, whatever is left. -/
structure Bzlib.CountContract {File : Type} (bzlib : Bzlib File)
    (Left : File → List UInt8 → Prop) : Prop
    extends bzlib.LengthContract Left where
  negative : ∀ {file : File} {bytes : List UInt8} {count : ℤ},
    Left file bytes → count < 0 →
      ∃ after, bzlib.bzread (some file) count = (-1, [], some after) ∧
        bzlib.bzerror (some after) = bzParamError

/-- A `Bzip2Stream` that has not failed, and that has recorded the end only if
nothing is left. -/
structure Bzip2Stream.Healthy {File : Type} (Left : File → List UInt8 → Prop)
    (stream : Bzip2Stream File) (bytes : List UInt8) : Prop where
  opened : Bzip2Stream.Opened Left stream bytes
  status : stream.status_ = .ok ∨ (stream.status_ = .streamEnd ∧ bytes = [])

/-! ## Conversions -/

theorem toInt_mod (length : ℕ) : toInt (length % 2 ^ 32) = toInt length := by
  unfold toInt
  rw [Int.natCast_emod]
  exact Int.emod_bmod _ _

theorem toInt_of_mod_le {length : ℕ} (hlength : length % 2 ^ 32 ≤ intMax) :
    toInt length = (length % 2 ^ 32 : ℕ) := by
  rw [← toInt_mod]
  exact toInt_of_le_intMax hlength

theorem toInt_neg {length : ℕ} (hlength : intMax < length % 2 ^ 32) :
    toInt length < 0 := by
  have hlt : length % 2 ^ 32 < 2 ^ 32 := Nat.mod_lt _ (by norm_num)
  rw [← toInt_mod]
  unfold intMax at hlength
  generalize length % 2 ^ 32 = low at hlength hlt
  apply (Int.bmod_neg_iff _ _).mpr
  · omega
  · omega
  · omega

theorem take_ne_nil_iff {bytes : List UInt8} (hbytes : bytes ≠ [])
    {count : ℕ} : 1 ≤ (bytes.take count).length ↔ count ≠ 0 := by
  have hpos := List.length_pos_of_ne_nil hbytes
  rw [List.length_take]
  omega

/-! ## `GzipStream` -/

section Gzip

variable {File : Type} {zlib : Zlib File} {complete : Bool}
variable {Left : File → List UInt8 → Bool → Prop}

theorem GzipStream.Opened.bad_of_refused (hzlib : zlib.Contract complete Left)
    {past : Bool} {stream : GzipStream File} {bytes : List UInt8} {length : ℕ}
    (hopened : GzipStream.Opened Left past stream bytes)
    (hlength : intMax < length % 2 ^ 32) :
    (stream.read zlib length).2.bad = true := by
  obtain ⟨file, rfl, hleft⟩ := hopened
  obtain ⟨after, hread, -⟩ := hzlib.refused hleft hlength
  rw [GzipStream.read, hread]
  rfl

/-- A read of a `GzipStream` is faithful exactly for lengths whose low 32 bits
are at most `INT_MAX` and, as long as something is left, not zero. -/
theorem gzipStream_faithfulRead_iff (hzlib : zlib.Contract complete Left)
    {past : Bool} {stream : GzipStream File} {bytes : List UInt8}
    (hopened : GzipStream.Opened Left past stream bytes)
    (hpast : past = true → bytes = []) (length : ℕ) :
    FaithfulRead bytes (stream.read zlib length).1 length
        (stream.read zlib length).2.bad
        ((stream.read zlib length).2.eof zlib) ↔
      length % 2 ^ 32 ≤ intMax ∧ (bytes ≠ [] → length % 2 ^ 32 ≠ 0) := by
  by_cases hlength : length % 2 ^ 32 ≤ intMax
  · obtain ⟨hread, hafter⟩ := hopened.read hzlib hlength
    rw [hread, hafter.bad, hafter.eof hzlib]
    constructor
    · intro hfaithful
      refine ⟨hlength, fun hbytes => ?_⟩
      exact (take_ne_nil_iff hbytes).mp (hfaithful.progress hbytes)
    · rintro ⟨-, hnonzero⟩
      have hmod := Nat.mod_le length (2 ^ 32)
      exact {
        next := List.take_prefix _ _
        length_le := by
          rw [List.length_take]
          omega
        progress := fun hbytes =>
          (take_ne_nil_iff hbytes).mpr (hnonzero hbytes)
        not_bad := rfl
        all_of_ended := fun hended => by
          rw [Bool.or_eq_true, decide_eq_true_eq] at hended
          rcases hended with hended | hshort
          · rw [hpast hended, List.take_nil]
          · exact List.take_of_length_le hshort.le }
  · have hbad := hopened.bad_of_refused hzlib (not_le.mp hlength)
    constructor
    · intro hfaithful
      exact absurd (hbad.symm.trans hfaithful.not_bad) (by simp)
    · rintro ⟨hsmall, -⟩
      exact absurd hsmall hlength

end Gzip

/-! ## `Bzip2Stream` -/

section Bzip2

variable {File : Type} {bzlib : Bzlib File}
variable {Left : File → List UInt8 → Prop}

/-- Any count that is not negative reads up to that many bytes. -/
theorem Bzlib.LengthContract.bzread_of_le (hbzlib : bzlib.LengthContract Left)
    {file : File} {bytes : List UInt8} {count : ℕ} (hleft : Left file bytes)
    (hcount : count ≤ intMax) :
    ∃ after, bzlib.bzread (some file) count =
        (((bytes.take count).length : ℤ), bytes.take count, some after) ∧
      Left after (bytes.drop count) := by
  rcases Nat.eq_zero_or_pos count with rfl | hpos
  · exact hbzlib.zero hleft
  · exact hbzlib.bzread hleft hpos hcount

/-- A read of a length that is not negative as an `int`. -/
theorem Bzip2Stream.Opened.read_mod (hbzlib : bzlib.LengthContract Left)
    {stream : Bzip2Stream File} {bytes : List UInt8} {length : ℕ}
    (hopened : Bzip2Stream.Opened Left stream bytes)
    (hlength : length % 2 ^ 32 ≤ intMax) :
    (stream.read bzlib length).1 = bytes.take (length % 2 ^ 32) ∧
      (stream.read bzlib length).2.status_ =
        if (bytes.take (length % 2 ^ 32)).length < length then .streamEnd
        else stream.status_ := by
  obtain ⟨file, hfile, hleft⟩ := hopened
  obtain ⟨after, hread, -⟩ := hbzlib.bzread_of_le hleft hlength
  simp only [Bzip2Stream.read, hfile, toInt_of_mod_le hlength, hread,
    Int.natCast_nonneg, if_true, Int.toNat_natCast, List.take_length]
  exact ⟨trivial, rfl⟩

/-- A count that libbz2 refuses makes the stream fail. -/
theorem Bzip2Stream.failsAt_of_refused {stream : Bzip2Stream File}
    {file after : File} {length : ℕ} (hfile : stream.cptr = some file)
    (hread : bzlib.bzread (some file) (toInt length) = (-1, [], some after))
    (herror : bzlib.bzerror (some after) = bzParamError) :
    (bzip2Stream bzlib).FailsAt stream length := by
  have hresult : stream.read bzlib length = ([], ⟨some after, .paramError⟩) := by
    rw [Bzip2Stream.read, hfile, hread]
    exact congrArg (fun code => (([], ⟨some after, Bzip2Status.ofCode code⟩) :
      List UInt8 × Bzip2Stream File)) herror
  constructor <;>
    simp [bzip2Stream, hresult, Bzip2Stream.good, Bzip2Stream.bad,
      Bzip2Stream.eof, Bzip2Status.isOk, Bzip2Status.isStreamEnd,
      Bzip2Status.code, zStreamEnd]

/-- So does a length that is negative as an `int`, if those are refused. -/
theorem Bzip2Stream.Opened.failsAt_of_negative
    (hbzlib : bzlib.CountContract Left) {stream : Bzip2Stream File}
    {bytes : List UInt8} {length : ℕ}
    (hopened : Bzip2Stream.Opened Left stream bytes)
    (hlength : intMax < length % 2 ^ 32) :
    (bzip2Stream bzlib).FailsAt stream length := by
  obtain ⟨file, hfile, hleft⟩ := hopened
  obtain ⟨after, hread, herror⟩ := hbzlib.negative hleft (toInt_neg hlength)
  exact Bzip2Stream.failsAt_of_refused hfile hread herror

theorem Bzip2Stream.bad_of_status {stream : Bzip2Stream File}
    (hstatus : stream.status_ = .ok ∨ stream.status_ = .streamEnd) :
    stream.bad = false := by
  rcases hstatus with hstatus | hstatus <;>
    simp [Bzip2Stream.bad, hstatus, Bzip2Status.isOk, Bzip2Status.isStreamEnd]

theorem Bzip2Stream.Healthy.status_read (hbzlib : bzlib.LengthContract Left)
    {stream : Bzip2Stream File} {bytes : List UInt8} {length : ℕ}
    (hhealthy : stream.Healthy Left bytes)
    (hlength : length % 2 ^ 32 ≤ intMax) :
    (stream.read bzlib length).2.status_ = .ok ∨
      (stream.read bzlib length).2.status_ = .streamEnd := by
  rw [(hhealthy.opened.read_mod hbzlib hlength).2]
  split_ifs
  · exact Or.inr rfl
  · exact hhealthy.status.imp_right And.left

/-- A read whose length has further bits records the end, which must be true
then. -/
theorem Bzip2Stream.Healthy.fits_of_faithful
    (hbzlib : bzlib.LengthContract Left) {stream : Bzip2Stream File}
    {bytes : List UInt8} (hhealthy : stream.Healthy Left bytes) {length : ℕ}
    (hlength : length % 2 ^ 32 ≤ intMax)
    (hfaithful : FaithfulRead bytes (stream.read bzlib length).1 length
      (stream.read bzlib length).2.bad
      (stream.read bzlib length).2.status_.isStreamEnd) :
    length ≤ intMax ∨ bytes.length ≤ length % 2 ^ 32 := by
  obtain ⟨hread, hstatus⟩ := hhealthy.opened.read_mod hbzlib hlength
  by_cases hsmall : length ≤ intMax
  · exact Or.inl hsmall
  have hmod := Nat.mod_le length (2 ^ 32)
  -- the result is an `int`, the length is larger: the end is recorded
  have hshort : (bytes.take (length % 2 ^ 32)).length < length := by
    rw [List.length_take]
    omega
  rw [if_pos hshort] at hstatus
  have hall := hfaithful.all_of_ended (by rw [hstatus]; rfl)
  have hlen := congrArg List.length hall
  rw [hread, List.length_take] at hlen
  exact Or.inr (by omega)

theorem Bzip2Stream.Healthy.faithful_of_fits
    (hbzlib : bzlib.LengthContract Left) {stream : Bzip2Stream File}
    {bytes : List UInt8} (hhealthy : stream.Healthy Left bytes) {length : ℕ}
    (hpos : 1 ≤ length) (hlength : length % 2 ^ 32 ≤ intMax)
    (hfits : length ≤ intMax ∨ bytes.length ≤ length % 2 ^ 32) :
    FaithfulRead bytes (stream.read bzlib length).1 length
      (stream.read bzlib length).2.bad
      (stream.read bzlib length).2.status_.isStreamEnd := by
  obtain ⟨hread, hstatus⟩ := hhealthy.opened.read_mod hbzlib hlength
  have hbad := Bzip2Stream.bad_of_status
    (hhealthy.status_read hbzlib hlength)
  have hmod := Nat.mod_le length (2 ^ 32)
  rw [hread, hbad]
  exact {
    next := List.take_prefix _ _
    length_le := by
      rw [List.length_take]
      omega
    progress := fun hbytes => by
      rw [take_ne_nil_iff hbytes]
      have hleft := List.length_pos_of_ne_nil hbytes
      rcases hfits with hsmall | hfits
      · rw [mod_of_le_intMax hsmall]
        omega
      · omega
    not_bad := rfl
    all_of_ended := fun hended => by
      rcases hfits with hsmall | hfits
      · rw [mod_of_le_intMax hsmall, List.length_take] at hstatus
        rw [mod_of_le_intMax hsmall]
        split_ifs at hstatus with hshort
        · exact List.take_of_length_le (by omega)
        · rw [hstatus] at hended
          rcases hhealthy.status with hok | ⟨-, hnil⟩
          · simp [hok, Bzip2Status.isStreamEnd] at hended
          · rw [hnil, List.take_nil]
      · exact List.take_of_length_le hfits }

/-- A read of a `Bzip2Stream` is faithful exactly for lengths whose low 32 bits
are at most `INT_MAX` and that have no other bits, unless everything that is
left fits into the low bits. -/
theorem bzip2Stream_faithfulRead_iff (hbzlib : bzlib.CountContract Left)
    {stream : Bzip2Stream File} {bytes : List UInt8}
    (hhealthy : stream.Healthy Left bytes) {length : ℕ}
    (hpos : 1 ≤ length) :
    FaithfulRead bytes (stream.read bzlib length).1 length
        (stream.read bzlib length).2.bad
        (stream.read bzlib length).2.status_.isStreamEnd ↔
      length % 2 ^ 32 ≤ intMax ∧
        (length ≤ intMax ∨ bytes.length ≤ length % 2 ^ 32) := by
  by_cases hlength : length % 2 ^ 32 ≤ intMax
  · constructor
    · intro hfaithful
      exact ⟨hlength, hhealthy.fits_of_faithful hbzlib.toLengthContract hlength
        hfaithful⟩
    · rintro ⟨-, hfits⟩
      exact hhealthy.faithful_of_fits hbzlib.toLengthContract hpos hlength hfits
  · have hfails := hhealthy.opened.failsAt_of_negative hbzlib
      (not_le.mp hlength)
    constructor
    · intro hfaithful
      exact absurd (hfails.bad.symm.trans hfaithful.not_bad) (by simp)
    · rintro ⟨hsmall, -⟩
      exact absurd hsmall hlength

end Bzip2

/-! ## What `fill_buffer` makes of it -/

/-- `fill_buffer` returns and has not ended the run with `STREAM_ERROR`. -/
def Reader.FillsWithoutError {σ ς Opts Content : Type}
    (env : ReaderEnv σ ς Opts Content) (reader : Reader σ ς Opts Content) :
    Prop :=
  ∃ after, Reader.fillBuffer env reader = .ok after ∧
    after.status.isStreamError = false

namespace Reader

variable {σ ς Opts Content : Type} {env : ReaderEnv σ ς Opts Content}
variable {reader : Reader σ ς Opts Content}

theorem fillsWithoutError_of_not_bad (hvalid : reader.buffer.Valid)
    (hok : reader.status.isOk = true)
    (hlength : (refill env reader).length ≤ reader.buffer.availableWrite)
    (hgood : env.stream.good (refilled env reader) =
      !env.stream.eof (refilled env reader)) :
    FillsWithoutError env reader := by
  cases heof : env.stream.eof (refilled env reader) with
  | false =>
      rw [heof] at hgood
      obtain ⟨buffer, hfill, -⟩ :=
        fillBuffer_of_good hvalid hok hlength hgood
      refine ⟨_, hfill, ?_⟩
      rw [afterRead_status, ReaderStatus.isStreamError,
        ReaderStatus.value_of_isOk hok]
      rfl
  | true =>
      rw [heof] at hgood
      obtain ⟨buffer, hfill, -⟩ :=
        fillBuffer_of_eof hvalid hok hlength hgood heof
      exact ⟨_, hfill, rfl⟩

theorem not_fillsWithoutError_of_fails (hvalid : reader.buffer.Valid)
    (hok : reader.status.isOk = true)
    (hfails : env.stream.FailsAt reader.stream
      reader.buffer.availableWrite) :
    ¬ FillsWithoutError env reader := by
  rintro ⟨after, hfill, hstatus⟩
  obtain ⟨buffer, hfill', -⟩ := fillBuffer_of_fails hvalid hok hfails
  rw [hfill] at hfill'
  obtain rfl := Outcome.ok.inj hfill'
  simp [ReaderStatus.isStreamError, ReaderStatus.ofStream] at hstatus

theorem fillsWithoutError_gzip_iff {File : Type} {zlib : Zlib File}
    {complete : Bool} {Left : File → List UInt8 → Bool → Prop}
    (hzlib : zlib.Contract complete Left)
    {env : ReaderEnv (GzipStream File) GzipStatus Opts Content}
    (hstream : env.stream = gzipStream zlib)
    {reader : Reader (GzipStream File) GzipStatus Opts Content}
    (hvalid : reader.buffer.Valid) (hok : reader.status.isOk = true)
    {bytes : List UInt8}
    (hopened : GzipStream.Opened Left false reader.stream bytes) :
    FillsWithoutError env reader ↔
      reader.buffer.availableWrite % 2 ^ 32 ≤ intMax := by
  constructor
  · intro hfills
    by_contra hlength
    have hfails := (hopened.read_refused hzlib (not_le.mp hlength)).1
    rw [← hstream] at hfails
    exact not_fillsWithoutError_of_fails hvalid hok hfails hfills
  · intro hlength
    obtain ⟨hread, hafter⟩ := hopened.read hzlib hlength
    apply fillsWithoutError_of_not_bad hvalid hok
    · rw [refill, hstream]
      change (GzipStream.read zlib _ _).1.length ≤ _
      rw [hread]
      exact (List.length_take_le _ _).trans (Nat.mod_le _ _)
    · rw [refilled, hstream]
      change (GzipStream.read zlib _ _).2.good zlib =
        !(GzipStream.read zlib _ _).2.eof zlib
      rw [hafter.good hzlib, hafter.eof hzlib]

theorem fillsWithoutError_bzip2_iff {File : Type} {bzlib : Bzlib File}
    {Left : File → List UInt8 → Prop} (hbzlib : bzlib.CountContract Left)
    {env : ReaderEnv (Bzip2Stream File) Bzip2Status Opts Content}
    (hstream : env.stream = bzip2Stream bzlib)
    {reader : Reader (Bzip2Stream File) Bzip2Status Opts Content}
    (hvalid : reader.buffer.Valid) (hok : reader.status.isOk = true)
    {bytes : List UInt8} (hhealthy : reader.stream.Healthy Left bytes) :
    FillsWithoutError env reader ↔
      reader.buffer.availableWrite % 2 ^ 32 ≤ intMax := by
  constructor
  · intro hfills
    by_contra hlength
    have hfails :=
      hhealthy.opened.failsAt_of_negative hbzlib (not_le.mp hlength)
    rw [← hstream] at hfails
    exact not_fillsWithoutError_of_fails hvalid hok hfails hfills
  · intro hlength
    have hread :=
      (hhealthy.opened.read_mod hbzlib.toLengthContract hlength).1
    have hbad := Bzip2Stream.bad_of_status
      (hhealthy.status_read hbzlib.toLengthContract hlength)
    apply fillsWithoutError_of_not_bad hvalid hok
    · rw [refill, hstream]
      change (Bzip2Stream.read bzlib _ _).1.length ≤ _
      rw [hread]
      exact (List.length_take_le _ _).trans (Nat.mod_le _ _)
    · rw [refilled, hstream]
      change (Bzip2Stream.read bzlib _ _).2.good =
        !(Bzip2Stream.read bzlib _ _).2.eof
      rw [Bzip2Stream.good, hbad]
      rfl

end Reader

/-- Which lengths survive their conversion, for each of the two streams: the
first two parts are about one read, the last two about a reader whose buffer has
that much room. -/
theorem readLengths_iff {GzFile BzFile : Type} {zlib : Zlib GzFile}
    {complete : Bool} {GzLeft : GzFile → List UInt8 → Bool → Prop}
    (hzlib : zlib.Contract complete GzLeft) {bzlib : Bzlib BzFile}
    {BzLeft : BzFile → List UInt8 → Prop}
    (hbzlib : bzlib.CountContract BzLeft) :
    (∀ past stream bytes length, GzipStream.Opened GzLeft past stream bytes →
      (past = true → bytes = []) → 1 ≤ length →
        (FaithfulRead bytes (stream.read zlib length).1 length
            (stream.read zlib length).2.bad
            ((stream.read zlib length).2.eof zlib) ↔
          length % 2 ^ 32 ≤ intMax ∧
            (bytes ≠ [] → length % 2 ^ 32 ≠ 0))) ∧
      (∀ stream bytes length, Bzip2Stream.Healthy BzLeft stream bytes →
        1 ≤ length →
          (FaithfulRead bytes (stream.read bzlib length).1 length
              (stream.read bzlib length).2.bad
              (stream.read bzlib length).2.status_.isStreamEnd ↔
            length % 2 ^ 32 ≤ intMax ∧
              (length ≤ intMax ∨ bytes.length ≤ length % 2 ^ 32))) ∧
      (∀ (Opts Content : Type)
        (env : ReaderEnv (GzipStream GzFile) GzipStatus Opts Content)
        (reader : Reader (GzipStream GzFile) GzipStatus Opts Content) bytes,
        env.stream = gzipStream zlib → reader.buffer.Valid →
          reader.status.isOk = true →
            GzipStream.Opened GzLeft false reader.stream bytes →
              (Reader.FillsWithoutError env reader ↔
                reader.buffer.availableWrite % 2 ^ 32 ≤ intMax)) ∧
      (∀ (Opts Content : Type)
        (env : ReaderEnv (Bzip2Stream BzFile) Bzip2Status Opts Content)
        (reader : Reader (Bzip2Stream BzFile) Bzip2Status Opts Content) bytes,
        env.stream = bzip2Stream bzlib → reader.buffer.Valid →
          reader.status.isOk = true →
            reader.stream.Healthy BzLeft bytes →
              (Reader.FillsWithoutError env reader ↔
                reader.buffer.availableWrite % 2 ^ 32 ≤ intMax)) := by
  refine ⟨?_, ?_, ?_, ?_⟩
  · intro past stream bytes length hopened hpast _
    exact gzipStream_faithfulRead_iff hzlib hopened hpast length
  · intro stream bytes length hhealthy hpos
    exact bzip2Stream_faithfulRead_iff hbzlib hhealthy hpos
  · intro Opts Content env reader bytes hstream hvalid hok hopened
    exact Reader.fillsWithoutError_gzip_iff hzlib hstream hvalid hok hopened
  · intro Opts Content env reader bytes hstream hvalid hok hhealthy
    exact Reader.fillsWithoutError_bzip2_iff hbzlib hstream hvalid hok hhealthy

/-- libbz2 on files that are already in memory and whose end no read has met,
with its check of the count. -/
def checkedBzlib : Bzlib (List UInt8) where
  bzread file count :=
    match file with
    | none => (-1, [], none)
    | some bytes =>
        if count < 0 then (-1, [], some bytes)
        else
          (((bytes.take count.toNat).length : ℤ), bytes.take count.toNat,
            some (bytes.drop count.toNat))
  bzerror _ := bzParamError

theorem checkedBzlib_contract :
    checkedBzlib.CountContract fun file bytes => file = bytes where
  bzread := by
    rintro bytes _ count rfl - -
    have hcount : ¬ (count : ℤ) < 0 := not_lt.mpr (Int.natCast_nonneg count)
    refine ⟨bytes.drop count, ?_, rfl⟩
    simp only [checkedBzlib, if_neg hcount, Int.toNat_natCast]
  zero := by
    rintro bytes _ rfl
    exact ⟨bytes, rfl, rfl⟩
  negative := by
    rintro bytes _ count rfl hcount
    exact ⟨bytes, if_pos hcount, rfl⟩

/-- Lengths of a few bytes reach both libraries unchanged. -/
theorem readLengths_iff_small :
    FaithfulRead [5, 6] [5] 1 false false ∧
      FaithfulRead [5, 6] [5, 6] 3 false true := by
  obtain ⟨hgzip, hbzip2, -, -⟩ :=
    readLengths_iff (listZlib_contract true) checkedBzlib_contract
  have hopened : GzipStream.Opened
      (fun file bytes past => file = (⟨bytes, past, true⟩ : GzFile)) false
      ⟨some ⟨[5, 6], false, true⟩, .ok⟩ [5, 6] := ⟨_, rfl, rfl⟩
  have hhealthy : Bzip2Stream.Healthy (fun file bytes => file = bytes)
      ⟨some [5, 6], .ok⟩ [5, 6] := ⟨⟨_, rfl, rfl⟩, Or.inl rfl⟩
  constructor
  · exact (hgzip false _ [5, 6] 1 hopened (by simp) le_rfl).mpr (by decide)
  · exact (hbzip2 _ [5, 6] 3 hhealthy (by decide)).mpr (by decide)

/-- A length of `2 ^ 31` makes a `GzipStream` fail, `2 ^ 32` reads nothing from
it, and `2 ^ 32 + 1` makes a `Bzip2Stream` record its end after one byte of
two. -/
theorem not_faithfulRead_narrowed :
    ((gzipStream listZlib).FailsAt ⟨some ⟨[5, 6], false, true⟩, .ok⟩
        (2 ^ 31)) ∧
      (GzipStream.read listZlib ⟨some ⟨[5, 6], false, true⟩, .ok⟩
        (2 ^ 32)).1 = [] ∧
      ((Bzip2Stream.read checkedBzlib ⟨some [5, 6], .ok⟩ (2 ^ 32 + 1)).1 = [5] ∧
        (Bzip2Stream.read checkedBzlib ⟨some [5, 6], .ok⟩
          (2 ^ 32 + 1)).2.status_ = .streamEnd) ∧
      ¬ FaithfulRead [5, 6]
        (Bzip2Stream.read checkedBzlib ⟨some [5, 6], .ok⟩ (2 ^ 32 + 1)).1
        (2 ^ 32 + 1)
        (Bzip2Stream.read checkedBzlib ⟨some [5, 6], .ok⟩ (2 ^ 32 + 1)).2.bad
        (Bzip2Stream.read checkedBzlib ⟨some [5, 6], .ok⟩
          (2 ^ 32 + 1)).2.status_.isStreamEnd := by
  have hopened : GzipStream.Opened
      (fun file bytes past => file = (⟨bytes, past, true⟩ : GzFile)) false
      ⟨some ⟨[5, 6], false, true⟩, .ok⟩ [5, 6] := ⟨_, rfl, rfl⟩
  have hhealthy : Bzip2Stream.Healthy (fun file bytes => file = bytes)
      ⟨some [5, 6], .ok⟩ [5, 6] := ⟨⟨_, rfl, rfl⟩, Or.inl rfl⟩
  refine ⟨?_, ?_, ?_, ?_⟩
  · exact (hopened.read_refused (listZlib_contract true) (by decide)).1
  · exact (hopened.read (listZlib_contract true) (by decide)).1
  · exact hhealthy.opened.read_mod checkedBzlib_contract.toLengthContract
      (by decide)
  · rw [bzip2Stream_faithfulRead_iff checkedBzlib_contract hhealthy (by decide)]
    decide

end ParseBgp.Io
