import ParseBgp.Io.ReaderSteps

/-!
# Sequences of reads

How a stream behaves over any number of reads: which bytes the reads hand out,
when one of them first comes up short, and what the stream must then signal for
`fill_buffer` to notice its end.
-/

namespace ParseBgp.Io.ByteStream

open Reader

variable {σ ς : Type}

/-- Reads of the given counts, one after the other. -/
def readMany (stream : ByteStream σ ς) : List ℕ → σ → List (List UInt8) × σ
  | [], state => ([], state)
  | count :: rest, state =>
      let first := stream.read state count
      let more := stream.readMany rest first.2
      (first.1 :: more.1, more.2)

/-- Some read returned fewer bytes than it was asked for. -/
def CameUpShort (stream : ByteStream σ ς) (counts : List ℕ) (state : σ) :
    Prop :=
  ∃ result ∈ counts.zip (stream.readMany counts state).1,
    result.2.length < result.1

/-- Only `good()` holds. -/
structure OnlyGood (stream : ByteStream σ ς) (state : σ) : Prop where
  good : stream.good state = true
  eof : stream.eof state = false
  bad : stream.bad state = false

/-- Only `eof()` holds. -/
structure OnlyEof (stream : ByteStream σ ς) (state : σ) : Prop where
  good : stream.good state = false
  eof : stream.eof state = true
  bad : stream.bad state = false

/-- The promise of a stream over `content` for a sequence of reads: they hand
out the content in order, after each of them exactly one of the predicates
holds, which is `eof()` if a read has come up short and `good()` otherwise, and
`fill_buffer` sees the end of the stream in the first read that does. -/
structure SignalsEnd (stream : ByteStream σ ς) (state : σ)
    (content : List UInt8) (counts : List ℕ) : Prop where
  contiguous : (stream.readMany counts state).1.flatten <+: content
  ended : ∀ before count rest, before ++ count :: rest = counts →
    stream.CameUpShort (before ++ [count]) state →
      stream.OnlyEof (stream.readMany (before ++ [count]) state).2
  open_ : ∀ before count rest, before ++ count :: rest = counts →
    ¬ stream.CameUpShort (before ++ [count]) state →
      stream.OnlyGood (stream.readMany (before ++ [count]) state).2
  filled : ∀ before count rest, before ++ count :: rest = counts →
    ¬ stream.CameUpShort before state →
      ∀ (Opts Content : Type) (env : ReaderEnv σ ς Opts Content)
        (reader : Reader σ ς Opts Content), env.stream = stream →
          reader.stream = (stream.readMany before state).2 →
            reader.buffer.Valid → reader.buffer.availableWrite = count →
              reader.status.isOk = true →
                ∃ after, fillBuffer env reader = .ok after ∧
                  (after.status.isStreamFinished = true ↔
                    stream.CameUpShort (before ++ [count]) state)

/-- Reads of the allowed counts hand out the next bytes, as many as there
are. -/
structure TakesNext (stream : ByteStream σ ς) (allowed : ℕ → Prop)
    (Left : σ → List UInt8 → Prop) : Prop where
  read : ∀ {state : σ} {bytes : List UInt8} {count : ℕ}, allowed count →
    Left state bytes →
      (stream.read state count).1 = bytes.take count ∧
        Left (stream.read state count).2 (bytes.drop count)

variable {stream : ByteStream σ ς} {state : σ}

theorem readMany_append (before rest : List ℕ) :
    stream.readMany (before ++ rest) state =
      ((stream.readMany before state).1 ++
          (stream.readMany rest (stream.readMany before state).2).1,
        (stream.readMany rest (stream.readMany before state).2).2) := by
  induction before generalizing state with
  | nil => rfl
  | cons count before ih => simp only [List.cons_append, readMany, ih]

theorem readMany_snoc (before : List ℕ) (count : ℕ) :
    (stream.readMany (before ++ [count]) state).2 =
      (stream.read (stream.readMany before state).2 count).2 := by
  rw [readMany_append]
  rfl

theorem cameUpShort_cons {count : ℕ} {rest : List ℕ} :
    stream.CameUpShort (count :: rest) state ↔
      (stream.read state count).1.length < count ∨
        stream.CameUpShort rest (stream.read state count).2 := by
  simp only [CameUpShort, readMany, List.zip_cons_cons, List.mem_cons,
    exists_eq_or_imp]

section TakesNext

variable {allowed : ℕ → Prop} {Left : σ → List UInt8 → Prop}
variable (htakes : stream.TakesNext allowed Left)
include htakes

theorem TakesNext.readMany {counts : List ℕ} {bytes : List UInt8}
    (hcounts : ∀ count ∈ counts, allowed count) (hleft : Left state bytes) :
    (stream.readMany counts state).1.flatten = bytes.take counts.sum ∧
      Left (stream.readMany counts state).2 (bytes.drop counts.sum) := by
  induction counts generalizing state bytes with
  | nil => exact ⟨rfl, hleft⟩
  | cons count rest ih =>
      rw [List.forall_mem_cons] at hcounts
      obtain ⟨hread, hnext⟩ := htakes.read hcounts.1 hleft
      obtain ⟨hflat, hlast⟩ := ih hcounts.2 hnext
      rw [List.drop_drop] at hlast
      refine ⟨?_, hlast⟩
      calc
        (stream.readMany (count :: rest) state).1.flatten =
            bytes.take count ++ (bytes.drop count).take rest.sum := by
          rw [ByteStream.readMany, List.flatten_cons, hread, hflat]
        _ = bytes.take (count :: rest).sum := by
          rw [List.sum_cons, List.take_add]

/-- A read comes up short exactly when the counts add up to more than is
left. -/
theorem TakesNext.cameUpShort_iff {counts : List ℕ} {bytes : List UInt8}
    (hcounts : ∀ count ∈ counts, allowed count) (hleft : Left state bytes) :
    stream.CameUpShort counts state ↔ bytes.length < counts.sum := by
  induction counts generalizing state bytes with
  | nil => simp [CameUpShort]
  | cons count rest ih =>
      rw [List.forall_mem_cons] at hcounts
      obtain ⟨hread, hnext⟩ := htakes.read hcounts.1 hleft
      rw [cameUpShort_cons, hread, ih hcounts.2 hnext, List.length_take,
        List.length_drop, List.sum_cons]
      omega

/-- A stream that signals the right predicate after every sequence of reads
keeps the whole promise. -/
theorem TakesNext.signalsEnd {counts : List ℕ} {bytes : List UInt8}
    (hcounts : ∀ count ∈ counts, allowed count) (hleft : Left state bytes)
    (hended : ∀ before count rest, before ++ count :: rest = counts →
      stream.CameUpShort (before ++ [count]) state →
        stream.OnlyEof (stream.readMany (before ++ [count]) state).2)
    (hopen : ∀ before count rest, before ++ count :: rest = counts →
      ¬ stream.CameUpShort (before ++ [count]) state →
        stream.OnlyGood (stream.readMany (before ++ [count]) state).2) :
    stream.SignalsEnd state bytes counts where
  contiguous := by
    rw [(htakes.readMany hcounts hleft).1]
    exact List.take_prefix _ _
  ended := hended
  open_ := hopen
  filled := by
    rintro before count rest hsplit - Opts Content env reader rfl hstream
      hvalid hcount hok
    have hallowed : ∀ earlier ∈ before, allowed earlier := by
      intro earlier hearlier
      exact hcounts earlier (by simp [← hsplit, hearlier])
    have hread := (htakes.read (hcounts count (by simp [← hsplit]))
      (htakes.readMany hallowed hleft).2).1
    have hlength : (refill env reader).length ≤
        reader.buffer.availableWrite := by
      rw [refill, hcount, hstream, hread]
      exact List.length_take_le _ _
    have hafter : refilled env reader =
        (env.stream.readMany (before ++ [count]) state).2 := by
      rw [readMany_snoc, refilled, hcount, hstream]
    by_cases hshort : env.stream.CameUpShort (before ++ [count]) state
    · have hsigns := hended before count rest hsplit hshort
      rw [← hafter] at hsigns
      obtain ⟨buffer, hfill, -⟩ :=
        fillBuffer_of_eof hvalid hok hlength hsigns.good hsigns.eof
      exact ⟨_, hfill, by simp [hshort, ReaderStatus.isStreamFinished,
        ReaderStatus.ofValue]⟩
    · have hsigns := hopen before count rest hsplit hshort
      rw [← hafter] at hsigns
      obtain ⟨buffer, hfill, -⟩ :=
        fillBuffer_of_good hvalid hok hlength hsigns.good
      exact ⟨_, hfill, by
        simp [hshort, ReaderStatus.isStreamFinished_of_isOk hok]⟩

end TakesNext

end ParseBgp.Io.ByteStream
