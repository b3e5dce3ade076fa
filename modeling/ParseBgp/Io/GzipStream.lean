import ParseBgp.Io.ReadSequence

/-!
# `GzipStream`

A stream over zlib's `gzFile`.  zlib is not part of the repository; its
functions are the parameter `Zlib`, and `Zlib.Contract` states what its manual
says about reading a file, complete or truncated.
-/

namespace ParseBgp.Io

open Loop

/-- `GzipStream::Status::Value`; `unlisted` is a value that is none of the
enumerators, from a cast. -/
inductive GzipStatus where
  | ok
  | streamEnd
  | needDict
  | errno
  | streamError
  | dataError
  | memError
  | bufError
  | versionError
  | unlisted (code : ℤ)
  deriving DecidableEq, Repr

namespace GzipStatus

/-- `Status::Value(code)` -/
def ofCode (code : ℤ) : GzipStatus :=
  if code = 0 then ok
  else if code = 1 then streamEnd
  else if code = 2 then needDict
  else if code = -1 then errno
  else if code = -2 then streamError
  else if code = -3 then dataError
  else if code = -4 then memError
  else if code = -5 then bufError
  else if code = -6 then versionError
  else unlisted code

def isOk (status : GzipStatus) : Bool := status = ok

end GzipStatus

/-- `Z_OK` -/
def zOk : ℤ := 0

/-- `Z_STREAM_END` -/
def zStreamEnd : ℤ := 1

/-- `Z_MEM_ERROR` -/
def zMemError : ℤ := -4

/-- `Z_BUF_ERROR` -/
def zBufError : ℤ := -5

/-- `INT_MAX` -/
def intMax : ℕ := 2 ^ 31 - 1

/-- The functions of zlib that `GzipStream` calls on a `gzFile`, which is
`none` when it is null.  `gzread` returns its result and the bytes it wrote. -/
structure Zlib (File : Type) where
  gzbuffer : File → ℕ → ℤ × File
  gzread : Option File → ℕ → ℤ × List UInt8 × Option File
  gzeof : Option File → Bool
  gzcloseR : File → ℤ

structure GzipStream (File : Type) where
  cptr : Option File
  status_ : GzipStatus

namespace GzipStream

variable {File : Type}

/-- The constructor; `opened` is what `gzopen` returned. -/
def create (zlib : Zlib File) (opened : Option File)
    (internalBufSize : ℕ) : GzipStream File :=
  match opened with
  | none =>
      { cptr := none
        status_ := .ofCode zMemError }
  | some file =>
      -- `gzbuffer` takes an `unsigned`
      let result := zlib.gzbuffer file (internalBufSize % 2 ^ 32)
      { cptr := some result.2
        status_ := .ofCode result.1 }

/-- The destructor. -/
def destroy (zlib : Zlib File) (stream : GzipStream File) :
    Outcome Fault Unit :=
  match stream.cptr with
  | none => .ok ()
  | some file => if zlib.gzcloseR file = zOk then .ok () else .fault .gzclose

/-- `read`: the bytes it put into the buffer, as many as it returns. -/
def read (zlib : Zlib File) (stream : GzipStream File) (length : ℕ) :
    List UInt8 × GzipStream File :=
  -- `gzread` takes an `unsigned`
  let result := zlib.gzread stream.cptr (length % 2 ^ 32)
  if 0 ≤ result.1 then
    (result.2.1.take result.1.toNat, { stream with cptr := result.2.2 })
  else ([], { cptr := result.2.2, status_ := .ofCode result.1 })

def eof (zlib : Zlib File) (stream : GzipStream File) : Bool :=
  zlib.gzeof stream.cptr

def bad (stream : GzipStream File) : Bool := !stream.status_.isOk

def good (zlib : Zlib File) (stream : GzipStream File) : Bool :=
  !stream.bad && !stream.eof zlib

def status (stream : GzipStream File) : GzipStatus := stream.status_

end GzipStream

/-- `GzipStream` as a stream of the reader. -/
def gzipStream {File : Type} (zlib : Zlib File) :
    ByteStream (GzipStream File) GzipStatus where
  read := GzipStream.read zlib
  good := GzipStream.good zlib
  eof := GzipStream.eof zlib
  bad := GzipStream.bad
  status := GzipStream.status

/-! ## What zlib documents -/

/-- `Left file bytes past` says that the open file still hands out `bytes`, and
that a read has come up short before if `past` holds.  Counts above `INT_MAX`
are refused with -1.  That a file is truncated is reported by `gzclose_r`
only. -/
structure Zlib.Contract {File : Type} (zlib : Zlib File) (complete : Bool)
    (Left : File → List UInt8 → Bool → Prop) : Prop where
  gzread : ∀ {file : File} {bytes : List UInt8} {past : Bool} {count : ℕ},
    Left file bytes past → count ≤ intMax →
      ∃ after, zlib.gzread (some file) count =
          (((bytes.take count).length : ℤ), bytes.take count, some after) ∧
        Left after (bytes.drop count)
          (past || decide (bytes.length < count))
  refused : ∀ {file : File} {bytes : List UInt8} {past : Bool} {count : ℕ},
    Left file bytes past → intMax < count →
      ∃ after, zlib.gzread (some file) count = (-1, [], some after) ∧
        zlib.gzeof (some after) = past ∧
        (complete = true → zlib.gzcloseR after = zOk)
  gzeof : ∀ {file : File} {bytes : List UInt8} {past : Bool},
    Left file bytes past → zlib.gzeof (some file) = past
  closes : ∀ {file : File} {bytes : List UInt8} {past : Bool},
    Left file bytes past → complete = true → zlib.gzcloseR file = zOk
  truncated : ∀ {file : File} {bytes : List UInt8},
    Left file bytes true → complete = false →
      zlib.gzcloseR file = zBufError

variable {File : Type} {zlib : Zlib File} {complete : Bool}
variable {Left : File → List UInt8 → Bool → Prop}

/-- An opened stream that has not failed. -/
def GzipStream.Opened (Left : File → List UInt8 → Bool → Prop)
    (past : Bool) (stream : GzipStream File) (bytes : List UInt8) : Prop :=
  ∃ file, stream = ⟨some file, .ok⟩ ∧ Left file bytes past

namespace GzipStream

/-- A read of a count that `gzread` accepts. -/
theorem Opened.read (hzlib : zlib.Contract complete Left) {past : Bool}
    {stream : GzipStream File} {bytes : List UInt8} {length : ℕ}
    (hopened : Opened Left past stream bytes)
    (hlength : length % 2 ^ 32 ≤ intMax) :
    (stream.read zlib length).1 = bytes.take (length % 2 ^ 32) ∧
      Opened Left (past || decide (bytes.length < length % 2 ^ 32))
        (stream.read zlib length).2 (bytes.drop (length % 2 ^ 32)) := by
  obtain ⟨file, rfl, hleft⟩ := hopened
  obtain ⟨after, hread, hafter⟩ := hzlib.gzread hleft hlength
  have hresult : GzipStream.read zlib ⟨some file, .ok⟩ length =
      (bytes.take (length % 2 ^ 32), ⟨some after, .ok⟩) := by
    simp only [GzipStream.read, hread, Int.natCast_nonneg, if_true,
      Int.toNat_natCast, List.take_length]
  rw [hresult]
  exact ⟨rfl, after, rfl, hafter⟩

theorem Opened.eof (hzlib : zlib.Contract complete Left) {past : Bool}
    {stream : GzipStream File} {bytes : List UInt8}
    (hopened : Opened Left past stream bytes) :
    stream.eof zlib = past := by
  obtain ⟨file, rfl, hleft⟩ := hopened
  exact hzlib.gzeof hleft

theorem Opened.bad {past : Bool} {stream : GzipStream File}
    {bytes : List UInt8} (hopened : Opened Left past stream bytes) :
    stream.bad = false := by
  obtain ⟨file, rfl, -⟩ := hopened
  rfl

theorem Opened.good (hzlib : zlib.Contract complete Left) {past : Bool}
    {stream : GzipStream File} {bytes : List UInt8}
    (hopened : Opened Left past stream bytes) :
    stream.good zlib = !past := by
  simp [GzipStream.good, hopened.eof hzlib, hopened.bad]

end GzipStream

/-! ## The end of a `GzipStream` -/

theorem mod_of_le_intMax {count : ℕ} (hcount : count ≤ intMax) :
    count % 2 ^ 32 = count := by
  apply Nat.mod_eq_of_lt
  calc
    count ≤ intMax := hcount
    _ < 2 ^ 32 := by decide

/-- Counts up to `INT_MAX` reach `gzread` unchanged. -/
theorem GzipStream.Opened.read_of_le (hzlib : zlib.Contract complete Left)
    {past : Bool} {stream : GzipStream File} {bytes : List UInt8} {count : ℕ}
    (hopened : GzipStream.Opened Left past stream bytes)
    (hcount : count ≤ intMax) :
    (stream.read zlib count).1 = bytes.take count ∧
      GzipStream.Opened Left (past || decide (bytes.length < count))
        (stream.read zlib count).2 (bytes.drop count) := by
  have hlength : count % 2 ^ 32 ≤ intMax := by
    rwa [mod_of_le_intMax hcount]
  have hread := hopened.read hzlib hlength
  rwa [mod_of_le_intMax hcount] at hread

theorem gzipStream_takesNext (hzlib : zlib.Contract complete Left) :
    (gzipStream zlib).TakesNext (fun count => count ≤ intMax)
      fun stream bytes => ∃ past,
        GzipStream.Opened Left past stream bytes where
  read := by
    rintro stream bytes count hcount ⟨past, hopened⟩
    obtain ⟨hread, hafter⟩ := hopened.read_of_le hzlib hcount
    exact ⟨hread, _, hafter⟩

/-- The stream is past its end as soon as the counts add up to more than the
content. -/
theorem GzipStream.Opened.readMany (hzlib : zlib.Contract complete Left)
    {past : Bool} {stream : GzipStream File} {bytes : List UInt8}
    {counts : List ℕ} (hopened : GzipStream.Opened Left past stream bytes)
    (hcounts : ∀ count ∈ counts, count ≤ intMax) :
    GzipStream.Opened Left (past || decide (bytes.length < counts.sum))
      ((gzipStream zlib).readMany counts stream).2
      (bytes.drop counts.sum) := by
  induction counts generalizing past stream bytes with
  | nil => simpa [ByteStream.readMany] using hopened
  | cons count rest ih =>
      rw [List.forall_mem_cons] at hcounts
      have hlast := ih (hopened.read_of_le hzlib hcounts.1).2 hcounts.2
      have hpast : (past || decide (bytes.length < count) ||
          decide ((bytes.drop count).length < rest.sum)) =
            (past || decide (bytes.length < (count :: rest).sum)) := by
        rw [Bool.or_assoc, ← Bool.decide_or]
        congr 2
        rw [List.length_drop, List.sum_cons, eq_iff_iff]
        omega
      rw [hpast, List.drop_drop] at hlast
      exact hlast

/-- Over any sequence of reads of at most `INT_MAX` bytes an opened
`GzipStream` signals its end. -/
theorem gzipStream_signalsEnd (hzlib : zlib.Contract complete Left)
    {stream : GzipStream File} {content : List UInt8}
    (hopened : GzipStream.Opened Left false stream content)
    {counts : List ℕ} (hcounts : ∀ count ∈ counts, count ≤ intMax) :
    (gzipStream zlib).SignalsEnd stream content counts := by
  have htakes := gzipStream_takesNext hzlib
  have hleft : ∃ past, GzipStream.Opened Left past stream content :=
    ⟨false, hopened⟩
  have hparts : ∀ before count rest, before ++ count :: rest = counts →
      ∀ earlier ∈ before ++ [count], earlier ≤ intMax := by
    rintro before count rest rfl earlier hearlier
    apply hcounts
    rw [List.append_cons]
    exact List.mem_append_left _ hearlier
  apply htakes.signalsEnd hcounts hleft
  · intro before count rest hsplit hshort
    have hallowed := hparts before count rest hsplit
    have hlast := hopened.readMany hzlib hallowed
    rw [htakes.cameUpShort_iff hallowed hleft] at hshort
    simp only [Bool.false_or, hshort, decide_true] at hlast
    exact ⟨hlast.good hzlib, hlast.eof hzlib, hlast.bad⟩
  · intro before count rest hsplit hshort
    have hallowed := hparts before count rest hsplit
    have hlast := hopened.readMany hzlib hallowed
    rw [htakes.cameUpShort_iff hallowed hleft] at hshort
    simp only [Bool.false_or, hshort, decide_false] at hlast
    exact ⟨hlast.good hzlib, hlast.eof hzlib, hlast.bad⟩

end ParseBgp.Io
