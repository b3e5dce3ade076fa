import ParseBgp.Io.GzipStream

/-!
# `Bzip2Stream`

A stream over libbz2.  `read` records a short read as `BZ_STREAM_END`, which is
4, and `eof` looks for zlib's `Z_STREAM_END`, which is 1; so the stream never
signals its end.  libbz2 is not part of the repository; its functions are the
parameter `Bzlib`.
-/

namespace ParseBgp.Io

/-- `Bzip2Stream::Status::Value`; `unlisted` is a value that is none of the
enumerators, from a cast. -/
inductive Bzip2Status where
  | ok
  | runOk
  | flushOk
  | finishOk
  | streamEnd
  | sequenceError
  | paramError
  | memError
  | dataError
  | dataErrorMagic
  | ioError
  | unexpectedEof
  | outbuffFull
  | configError
  | unlisted (code : ℤ)
  deriving DecidableEq, Repr

namespace Bzip2Status

/-- `Status::Value(code)` -/
def ofCode (code : ℤ) : Bzip2Status :=
  if code = 0 then ok
  else if code = 1 then runOk
  else if code = 2 then flushOk
  else if code = 3 then finishOk
  else if code = 4 then streamEnd
  else if code = -1 then sequenceError
  else if code = -2 then paramError
  else if code = -3 then memError
  else if code = -4 then dataError
  else if code = -5 then dataErrorMagic
  else if code = -6 then ioError
  else if code = -7 then unexpectedEof
  else if code = -8 then outbuffFull
  else if code = -9 then configError
  else unlisted code

/-- The conversion of an enumerator to `int`. -/
def code : Bzip2Status → ℤ
  | ok => 0
  | runOk => 1
  | flushOk => 2
  | finishOk => 3
  | streamEnd => 4
  | sequenceError => -1
  | paramError => -2
  | memError => -3
  | dataError => -4
  | dataErrorMagic => -5
  | ioError => -6
  | unexpectedEof => -7
  | outbuffFull => -8
  | configError => -9
  | unlisted code => code

def isOk (status : Bzip2Status) : Bool := status = ok

def isStreamEnd (status : Bzip2Status) : Bool := status = streamEnd

end Bzip2Status

/-- `BZ_OK` -/
def bzOk : ℤ := 0

/-- `BZ_STREAM_END` -/
def bzStreamEnd : ℤ := 4

/-- `BZ_MEM_ERROR` -/
def bzMemError : ℤ := -3

/-- The conversion of a `size_t` to `int`. -/
def toInt (value : ℕ) : ℤ := Int.bmod value (2 ^ 32)

/-- The functions of libbz2 that `Bzip2Stream` calls on a `BZFILE*`, which is
`none` when it is null.  `bzread` returns its result and the bytes it wrote. -/
structure Bzlib (File : Type) where
  bzread : Option File → ℤ → ℤ × List UInt8 × Option File
  bzerror : Option File → ℤ

structure Bzip2Stream (File : Type) where
  cptr : Option File
  status_ : Bzip2Status

namespace Bzip2Stream

variable {File : Type}

/-- The constructor; `opened` is what `BZ2_bzopen` returned. -/
def create (opened : Option File) : Bzip2Stream File where
  cptr := opened
  status_ := .ofCode (if opened.isSome then bzOk else bzMemError)

/-- `read`: the bytes it put into the buffer, as many as it returns. -/
def read (bzlib : Bzlib File) (stream : Bzip2Stream File) (length : ℕ) :
    List UInt8 × Bzip2Stream File :=
  let result := bzlib.bzread stream.cptr (toInt length)
  if 0 ≤ result.1 then
    (result.2.1.take result.1.toNat,
      { cptr := result.2.2
        status_ :=
          if result.1.toNat < length then .ofCode bzStreamEnd
          else stream.status_ })
  else
    ([], { cptr := result.2.2, status_ := .ofCode (bzlib.bzerror result.2.2) })

/-- `status_ == Z_STREAM_END`, a comparison of two `int` values. -/
def eof (stream : Bzip2Stream File) : Bool :=
  stream.status_.code = zStreamEnd

def bad (stream : Bzip2Stream File) : Bool :=
  !stream.status_.isOk && !stream.status_.isStreamEnd

def good (stream : Bzip2Stream File) : Bool :=
  !stream.bad && !stream.eof

def status (stream : Bzip2Stream File) : Bzip2Status := stream.status_

end Bzip2Stream

/-- `Bzip2Stream` as a stream of the reader. -/
def bzip2Stream {File : Type} (bzlib : Bzlib File) :
    ByteStream (Bzip2Stream File) Bzip2Status where
  read := Bzip2Stream.read bzlib
  good := Bzip2Stream.good
  eof := Bzip2Stream.eof
  bad := Bzip2Stream.bad
  status := Bzip2Stream.status

/-- `Left file bytes` says that the open file still hands out `bytes`. -/
structure Bzlib.Contract {File : Type} (bzlib : Bzlib File)
    (Left : File → List UInt8 → Prop) : Prop where
  bzread : ∀ {file : File} {bytes : List UInt8} {count : ℕ}, Left file bytes →
    0 < count → count ≤ intMax →
      ∃ after, bzlib.bzread (some file) count =
          (((bytes.take count).length : ℤ), bytes.take count, some after) ∧
        Left after (bytes.drop count)

/-! ## The end of a `Bzip2Stream` -/

variable {File : Type} {bzlib : Bzlib File}
variable {Left : File → List UInt8 → Prop}

theorem toInt_of_le_intMax {count : ℕ} (hcount : count ≤ intMax) :
    toInt count = count := by
  unfold intMax at hcount
  apply Int.bmod_eq_of_le
  · omega
  · omega

/-- An opened stream. -/
def Bzip2Stream.Opened (Left : File → List UInt8 → Prop)
    (stream : Bzip2Stream File) (bytes : List UInt8) : Prop :=
  ∃ file, stream.cptr = some file ∧ Left file bytes

/-- A read hands out the next bytes and changes the status only if it comes up
short. -/
theorem Bzip2Stream.Opened.read (hbzlib : bzlib.Contract Left)
    {stream : Bzip2Stream File} {bytes : List UInt8} {count : ℕ}
    (hopened : Bzip2Stream.Opened Left stream bytes) (hpos : 0 < count)
    (hcount : count ≤ intMax) :
    (stream.read bzlib count).1 = bytes.take count ∧
      Bzip2Stream.Opened Left (stream.read bzlib count).2
        (bytes.drop count) ∧
      (stream.read bzlib count).2.status_ =
        if bytes.length < count then .streamEnd else stream.status_ := by
  obtain ⟨file, hfile, hleft⟩ := hopened
  obtain ⟨after, hread, hafter⟩ := hbzlib.bzread hleft hpos hcount
  have hshort : (bytes.take count).length < count ↔ bytes.length < count := by
    rw [List.length_take]
    omega
  simp only [Bzip2Stream.read, hfile, toInt_of_le_intMax hcount, hread,
    Int.natCast_nonneg, if_true, Int.toNat_natCast, List.take_length, hshort]
  exact ⟨trivial, ⟨after, rfl, hafter⟩, rfl⟩

theorem bzip2Stream_takesNext (hbzlib : bzlib.Contract Left) :
    (bzip2Stream bzlib).TakesNext (fun count => 0 < count ∧ count ≤ intMax)
      (Bzip2Stream.Opened Left) where
  read := by
    intro stream bytes count hcount hopened
    obtain ⟨hread, hafter, -⟩ := hopened.read hbzlib hcount.1 hcount.2
    exact ⟨hread, hafter⟩

/-- The status after a sequence of reads. -/
theorem Bzip2Stream.Opened.readMany (hbzlib : bzlib.Contract Left)
    {stream : Bzip2Stream File} {bytes : List UInt8} {counts : List ℕ}
    (hopened : Bzip2Stream.Opened Left stream bytes)
    (hcounts : ∀ count ∈ counts, 0 < count ∧ count ≤ intMax) :
    ((bzip2Stream bzlib).readMany counts stream).2.status_ =
      if bytes.length < counts.sum then .streamEnd else stream.status_ := by
  induction counts generalizing stream bytes with
  | nil => simp [ByteStream.readMany]
  | cons count rest ih =>
      rw [List.forall_mem_cons] at hcounts
      obtain ⟨-, hafter, hstatus⟩ :=
        hopened.read hbzlib hcounts.1.1 hcounts.1.2
      have hlast := ih hafter hcounts.2
      rw [ByteStream.readMany]
      refine hlast.trans ?_
      change (if _ then _ else (stream.read bzlib count).2.status_) = _
      rw [hstatus, List.length_drop, List.sum_cons]
      split_ifs <;> first | rfl | omega

/-- With either status that a read leaves, `eof` does not hold. -/
theorem Bzip2Stream.eof_of_status {stream : Bzip2Stream File}
    (hstatus : stream.status_ = .ok ∨ stream.status_ = .streamEnd) :
    stream.eof = false := by
  rcases hstatus with hstatus | hstatus <;>
    simp [Bzip2Stream.eof, hstatus, Bzip2Status.code, zStreamEnd]

theorem Bzip2Stream.create_status (file : File) :
    (Bzip2Stream.create (some file)).status_ = .ok := rfl

theorem bzip2Stream_onlyGood {stream : Bzip2Stream File}
    (hstatus : stream.status_ = .ok) :
    (bzip2Stream bzlib).OnlyGood stream := by
  have heof := Bzip2Stream.eof_of_status (Or.inl hstatus)
  have hbad : stream.bad = false := by
    simp [Bzip2Stream.bad, hstatus, Bzip2Status.isOk]
  exact ⟨by simp [bzip2Stream, Bzip2Stream.good, hbad, heof], heof, hbad⟩

/-- A `Bzip2Stream` signals its end over a sequence of reads exactly when none
of them reaches past it. -/
theorem bzip2Stream_signalsEnd_iff (hbzlib : bzlib.Contract Left)
    {file : File} {content : List UInt8} (hleft : Left file content)
    (counts : List ℕ)
    (hcounts : ∀ count ∈ counts, 0 < count ∧ count ≤ intMax) :
    (bzip2Stream bzlib).SignalsEnd (Bzip2Stream.create (some file)) content
        counts ↔
      counts.sum ≤ content.length := by
  have htakes := bzip2Stream_takesNext hbzlib
  have hopened : Bzip2Stream.Opened Left (Bzip2Stream.create (some file))
      content := ⟨file, rfl, hleft⟩
  constructor
  · intro hsignals
    by_contra hpast
    have hshort : content.length < counts.sum := not_le.mp hpast
    obtain ⟨before, count, rfl⟩ : ∃ before count,
        counts = before ++ [count] := by
      rcases List.eq_nil_or_concat counts with hnil | ⟨before, count, hsnoc⟩
      · rw [hnil] at hshort
        simp at hshort
      · exact ⟨before, count, by rwa [List.concat_eq_append] at hsnoc⟩
    have hstatus := hopened.readMany hbzlib hcounts
    rw [if_pos hshort] at hstatus
    have heof := (hsignals.ended before count [] rfl
      ((htakes.cameUpShort_iff hcounts hopened).mpr hshort)).eof
    have hnever := Bzip2Stream.eof_of_status (Or.inr hstatus)
    exact absurd (heof.symm.trans hnever) (by simp)
  · intro hwithin
    have hparts : ∀ before count rest, before ++ count :: rest = counts →
        (∀ earlier ∈ before ++ [count], 0 < earlier ∧ earlier ≤ intMax) ∧
          ¬ content.length < (before ++ [count]).sum := by
      rintro before count rest rfl
      rw [List.append_cons] at hcounts hwithin
      constructor
      · intro earlier hearlier
        exact hcounts earlier (List.mem_append_left _ hearlier)
      · rw [List.sum_append] at hwithin
        omega
    apply htakes.signalsEnd hcounts hopened
    · intro before count rest hsplit hshort
      obtain ⟨hallowed, hnot⟩ := hparts before count rest hsplit
      exact absurd ((htakes.cameUpShort_iff hallowed hopened).mp hshort) hnot
    · intro before count rest hsplit _
      obtain ⟨hallowed, hnot⟩ := hparts before count rest hsplit
      have hstatus := hopened.readMany hbzlib hallowed
      rw [if_neg hnot] at hstatus
      exact bzip2Stream_onlyGood (hstatus.trans (Bzip2Stream.create_status file))

/-- libbz2 on files that are already in memory. -/
def listBzlib : Bzlib (List UInt8) where
  bzread file count :=
    match file with
    | none => (-1, [], none)
    | some bytes =>
        (((bytes.take count.toNat).length : ℤ), bytes.take count.toNat,
          some (bytes.drop count.toNat))
  bzerror _ := bzOk

theorem listBzlib_contract :
    listBzlib.Contract fun file bytes => file = bytes where
  bzread := by
    rintro _ bytes count rfl - -
    exact ⟨_, rfl, rfl⟩

/-- Two reads that together ask for exactly the content. -/
theorem bzip2Stream_signalsEnd_iff_exact :
    (bzip2Stream listBzlib).SignalsEnd (Bzip2Stream.create (some [5, 6, 7]))
      [5, 6, 7] [2, 1] :=
  (bzip2Stream_signalsEnd_iff listBzlib_contract rfl [2, 1]
    (by decide)).mpr (by decide)

/-- A read of two bytes from a file of one comes up short, and the stream still
claims to be good. -/
theorem not_bzip2Stream_signalsEnd :
    (bzip2Stream listBzlib).OnlyGood
      ((bzip2Stream listBzlib).readMany [2]
        (Bzip2Stream.create (some [5]))).2 ∧
    ¬ (bzip2Stream listBzlib).SignalsEnd (Bzip2Stream.create (some [5]))
      [5] [2] := by
  refine ⟨⟨rfl, rfl, rfl⟩, ?_⟩
  intro hsignals
  have hshort : (bzip2Stream listBzlib).CameUpShort [2]
      (Bzip2Stream.create (some [5])) := ⟨(2, [5]), by decide, by decide⟩
  exact absurd (hsignals.ended [] 2 [] rfl hshort).eof (by decide)

end ParseBgp.Io
