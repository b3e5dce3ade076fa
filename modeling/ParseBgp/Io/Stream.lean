import Mathlib.Tactic

/-!
# Byte streams

`Reader` is a template over its stream.  It uses `read`, `good`, `eof`, `bad`
and `status`, so a stream is modelled by these five functions on a state.  The
contracts below say how the streams that a reader can be given behave.
-/

namespace ParseBgp.Io

/-- `read` returns the bytes it put at the start of the buffer it was given
and the stream afterwards. -/
structure ByteStream (σ ς : Type) where
  read : σ → ℕ → List UInt8 × σ
  good : σ → Bool
  eof : σ → Bool
  bad : σ → Bool
  status : σ → ς

namespace ByteStream

variable {σ ς : Type}

/-- `Left state bytes` says that the stream is healthy, has not signalled its
end and will still hand out `bytes`.  Every read hands out exactly what it is
asked for, and the end is signalled by the first read that comes up short. -/
structure ExactReads (stream : ByteStream σ ς) (Left : σ → List UInt8 → Prop) :
    Prop where
  full : ∀ {state : σ} {bytes : List UInt8} {count : ℕ}, Left state bytes →
    count ≤ bytes.length →
      (stream.read state count).1 = bytes.take count ∧
        stream.good (stream.read state count).2 = true ∧
        Left (stream.read state count).2 (bytes.drop count)
  short : ∀ {state : σ} {bytes : List UInt8} {count : ℕ}, Left state bytes →
    bytes.length < count →
      (stream.read state count).1 = bytes ∧
        stream.good (stream.read state count).2 = false ∧
        stream.eof (stream.read state count).2 = true

/-- An error-free stream that may also hand out fewer bytes than it is asked
for, but at least one before its end. -/
structure ChunkedReads (stream : ByteStream σ ς)
    (Left : σ → List UInt8 → Prop) : Prop where
  read : ∀ {state : σ} {bytes : List UInt8} (count : ℕ), Left state bytes →
    ∃ rest, bytes = (stream.read state count).1 ++ rest ∧
      (stream.read state count).1.length ≤ count ∧
      ((stream.good (stream.read state count).2 = true ∧
          Left (stream.read state count).2 rest ∧
          (0 < count → (stream.read state count).1 ≠ [])) ∨
        (stream.good (stream.read state count).2 = false ∧
          stream.eof (stream.read state count).2 = true ∧ rest = []))

/-- A stream that puts at most the bytes it is asked for into the buffer,
whatever else it does. -/
structure BoundedReads (stream : ByteStream σ ς) : Prop where
  length_le : ∀ (state : σ) (count : ℕ),
    (stream.read state count).1.length ≤ count

/-- A stream that does not fail before its end, whatever it hands out. -/
structure ErrorFree (stream : ByteStream σ ς) (Healthy : σ → Prop) :
    Prop where
  read : ∀ {state : σ} (count : ℕ), Healthy state →
    (stream.good (stream.read state count).2 = true ∧
        Healthy (stream.read state count).2) ∨
      (stream.good (stream.read state count).2 = false ∧
        stream.eof (stream.read state count).2 = true)

/-- The read of `count` bytes in `state` hands out some of the `bytes` left, or
all of them and signals the end. -/
def Delivers (stream : ByteStream σ ς) (Left : σ → List UInt8 → Prop)
    (state : σ) (bytes : List UInt8) (count : ℕ) : Prop :=
  ∃ rest, bytes = (stream.read state count).1 ++ rest ∧
    (stream.read state count).1.length ≤ count ∧
    ((stream.good (stream.read state count).2 = true ∧
        Left (stream.read state count).2 rest) ∨
      (stream.good (stream.read state count).2 = false ∧
        stream.eof (stream.read state count).2 = true ∧ rest = []))

/-- The read of `count` bytes in `state` fails. -/
structure FailsAt (stream : ByteStream σ ς) (state : σ) (count : ℕ) :
    Prop where
  nothing : (stream.read state count).1 = []
  not_good : stream.good (stream.read state count).2 = false
  not_eof : stream.eof (stream.read state count).2 = false
  bad : stream.bad (stream.read state count).2 = true

/-- A stream that does not skip bytes or make them up, whether or not it
fails. -/
structure SoundReads (stream : ByteStream σ ς)
    (Left : σ → List UInt8 → Prop) : Prop where
  read : ∀ {state : σ} {bytes : List UInt8} (count : ℕ), Left state bytes →
    stream.Delivers Left state bytes count ∨ stream.FailsAt state count

/-- A stream that hands out `bytes`, at least one of them at a time, and then
fails: every later read hands out nothing and is bad. -/
structure FailingReads (stream : ByteStream σ ς)
    (Left : σ → List UInt8 → Prop) : Prop where
  not_bad : ∀ {state : σ} {bytes : List UInt8}, Left state bytes →
    stream.bad state = false
  read : ∀ {state : σ} {bytes : List UInt8} (count : ℕ), Left state bytes →
    (∃ rest, bytes = (stream.read state count).1 ++ rest ∧
        (stream.read state count).1.length ≤ count ∧
        stream.good (stream.read state count).2 = true ∧
        Left (stream.read state count).2 rest ∧
        (0 < count → (stream.read state count).1 ≠ [])) ∨
      (bytes = [] ∧ stream.FailsAt state count)
  failed : ∀ {state : σ} (count : ℕ), stream.bad state = true →
    stream.FailsAt state count

theorem ChunkedReads.delivers {stream : ByteStream σ ς}
    {Left : σ → List UInt8 → Prop} (hchunked : stream.ChunkedReads Left)
    {state : σ} {bytes : List UInt8} (hleft : Left state bytes) (count : ℕ) :
    stream.Delivers Left state bytes count := by
  obtain ⟨rest, hsplit, hlength, hcases⟩ := hchunked.read count hleft
  refine ⟨rest, hsplit, hlength, hcases.imp_left ?_⟩
  exact fun hgood => ⟨hgood.1, hgood.2.1⟩

theorem ChunkedReads.soundReads {stream : ByteStream σ ς}
    {Left : σ → List UInt8 → Prop} (hchunked : stream.ChunkedReads Left) :
    stream.SoundReads Left where
  read := fun count hleft => Or.inl (hchunked.delivers hleft count)

theorem ChunkedReads.errorFree {stream : ByteStream σ ς}
    {Left : σ → List UInt8 → Prop} (hchunked : stream.ChunkedReads Left) :
    stream.ErrorFree fun state => ∃ bytes, Left state bytes where
  read := by
    rintro state count ⟨bytes, hleft⟩
    obtain ⟨rest, -, -, hcases⟩ := hchunked.read count hleft
    rcases hcases with ⟨hgood, hrest, -⟩ | ⟨hgood, heof, -⟩
    · exact Or.inl ⟨hgood, rest, hrest⟩
    · exact Or.inr ⟨hgood, heof⟩

theorem ExactReads.chunked {stream : ByteStream σ ς}
    {Left : σ → List UInt8 → Prop} (hexact : stream.ExactReads Left) :
    stream.ChunkedReads Left where
  read := by
    intro state bytes count hleft
    by_cases hcount : count ≤ bytes.length
    · obtain ⟨hread, hgood, hrest⟩ := hexact.full hleft hcount
      refine ⟨bytes.drop count, ?_, ?_, Or.inl ⟨hgood, hrest, ?_⟩⟩
      · rw [hread, List.take_append_drop]
      · rw [hread]
        exact List.length_take_le _ _
      · intro hpos hnil
        rw [hread] at hnil
        have hlength := congrArg List.length hnil
        rw [List.length_take, List.length_nil] at hlength
        omega
    · obtain ⟨hread, hgood, heof⟩ := hexact.short hleft (not_le.mp hcount)
      refine ⟨[], ?_, ?_, Or.inr ⟨hgood, heof, rfl⟩⟩
      · rw [hread, List.append_nil]
      · rw [hread]
        omega

end ByteStream

end ParseBgp.Io
