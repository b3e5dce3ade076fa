import ParseBgp.Io.Instances
import ParseBgp.Io.Streaming

/-!
# The reader against the reference run

The client loop on a fresh reader yields the reference run over the content of
its stream as long as every message fits the buffer.  A message that needs a
second refill makes `decode_one` grow the buffer, and the bytes read so far are
lost.
-/

namespace ParseBgp.Io.Reader

open Loop WholeInput

variable {σ ς Opts Content : Type}
variable {env : ReaderEnv σ ς Opts Content} {opts : Opts}
variable {Left : σ → List UInt8 → Prop}

/-- With exact reads, a boundary whose first `capacity` bytes decide does not
need a second refill: the refill stops short at the end of the stream or shows
those bytes to the decoder. -/
theorem Synced.oneRefillSuffices (hexact : env.stream.ExactReads Left)
    {bytes : List UInt8} {reader : Reader σ ς Opts Content}
    (hsynced : Synced Left opts bytes reader)
    (hfits : reader.buffer.capacity ≤ bytes.length →
      env.answer opts (bytes.take reader.buffer.capacity) ≠
        .error .partialMsg) :
    OneRefillSuffices env opts reader := by
  rcases hsynced.source with ⟨-, left, hleft, hbytes⟩ | ⟨hfinished, -⟩
  · have hwrite := hsynced.live.valid.availableWrite_eq
    have hunread := hsynced.live.valid.length_unread_le
    by_cases hcount : reader.buffer.availableWrite ≤ left.length
    · have hread : refill env reader =
          left.take reader.buffer.availableWrite :=
        (hexact.full hleft hcount).1
      have hwindow : reader.buffer.unread ++ refill env reader =
          bytes.take reader.buffer.capacity := by
        rw [hread, hbytes, List.take_append, List.take_of_length_le hunread,
          hwrite]
      have hlong : reader.buffer.capacity ≤ bytes.length := by
        rw [hbytes, List.length_append]
        omega
      refine Or.inr (Or.inr (Or.inr ?_))
      rw [hwindow]
      exact hfits hlong
    · exact Or.inr (Or.inr (Or.inl (hexact.short hleft (not_le.mp hcount)).2.1))
  · exact Or.inl hfinished

/-- Over a stream with exact reads, a run whose messages all fit the buffer
never needs a second refill. -/
theorem DecodePoint.oneRefillSuffices
    (hlawful : Lawful (env.answer opts) .partialMsg)
    (hexact : env.stream.ExactReads Left) {stream : σ} {content : Content}
    {bufferSize : ℕ} {block : MirroredMemory.Block UInt8}
    (hcreate : env.mirrors.create 0 bufferSize = some block)
    {input : List UInt8} (hleft : Left stream input)
    (hfits : ∀ bytes, Boundary (env.answer opts) input bytes →
      block.capacity ≤ bytes.length →
        env.answer opts (bytes.take block.capacity) ≠ .error .partialMsg)
    {fuel : ℕ} (hfuel : 2 ≤ fuel) {reader : Reader σ ς Opts Content}
    (hpoint : DecodePoint env fuel
      (create env stream (some opts) (some content) bufferSize) reader) :
    OneRefillSuffices env opts reader := by
  have hrefill : ∀ bytes reader, Boundary (env.answer opts) input bytes →
      Synced Left opts bytes reader →
        reader.buffer.capacity = block.capacity →
          OneRefillSuffices env opts reader := by
    intro bytes reader hboundary hsynced hcapacity
    apply hsynced.oneRefillSuffices hexact
    rw [hcapacity]
    exact hfits bytes hboundary
  obtain ⟨bytes, hboundary, hsynced, hcapacity⟩ :=
    hpoint.synced hlawful hexact.chunked hcreate hleft hfuel hrefill
  exact hrefill bytes reader hboundary hsynced hcapacity

/-- Streaming refines whole-input decoding: over a stream that hands out
`input` exactly, with a buffer in which the decoder can decide at every message
boundary, the client loop on a fresh reader yields the messages of the
reference run over `input` and ends with its status. -/
theorem readAll_refines_reference
    (hlawful : Lawful (env.answer opts) .partialMsg)
    (hexact : env.stream.ExactReads Left) (stream : σ) (content : Content)
    (bufferSize : ℕ) (block : MirroredMemory.Block UInt8)
    (hcreate : env.mirrors.create 0 bufferSize = some block)
    (input : List UInt8) (hleft : Left stream input)
    (hfits : ∀ bytes, Boundary (env.answer opts) input bytes →
      block.capacity ≤ bytes.length →
        env.answer opts (bytes.take block.capacity) ≠ .error .partialMsg)
    (fuel calls : ℕ) (hfuel : 2 ≤ fuel) (hcalls : input.length < calls) :
    ∃ final, readAll env fuel calls
        (create env stream (some opts) (some content) bufferSize) =
      .ok ((reference (env.answer opts) input).1.map some,
        statusOf (reference (env.answer opts) input).2, final) := by
  apply readAll_create hlawful hexact.chunked hcreate hleft hfuel ?_ hcalls
  intro reader hpoint
  exact hpoint.oneRefillSuffices hlawful hexact hcreate hleft hfits hfuel

private theorem two_boundary {bytes : List UInt8}
    (hboundary : Boundary (prefixedEnv.answer ()) [2, 7, 3, 8, 9] bytes) :
    bytes = [2, 7, 3, 8, 9] ∨ bytes = [3, 8, 9] ∨ bytes = [] := by
  induction hboundary with
  | start => exact Or.inl rfl
  | @next _ len message _ hanswer ih =>
      rcases ih with rfl | rfl | rfl
      · have hfirst : (.ok (2, [2, 7]) : Except Error (ℕ × List UInt8)) =
            .ok (len, message) := hanswer
        obtain ⟨rfl, -⟩ := Prod.mk.inj (Except.ok.inj hfirst)
        exact Or.inr (Or.inl rfl)
      · have hsecond : (.ok (3, [3, 8, 9]) : Except Error (ℕ × List UInt8)) =
            .ok (len, message) := hanswer
        obtain ⟨rfl, -⟩ := Prod.mk.inj (Except.ok.inj hsecond)
        exact Or.inr (Or.inr rfl)
      · exact absurd rfl (prefixedEnv_lawful.ne_nil_of_ok hanswer)

private theorem two_create : prefixedEnv.mirrors.create 0 3 =
    some ⟨3, fun _ => 0, by decide⟩ := rfl

private theorem two_fits {bytes : List UInt8}
    (hboundary : Boundary (prefixedEnv.answer ()) [2, 7, 3, 8, 9] bytes)
    (hlength : 3 ≤ bytes.length) :
    prefixedEnv.answer () (bytes.take 3) ≠ .error .partialMsg := by
  rcases two_boundary hboundary with rfl | rfl | rfl
  · decide
  · decide
  · simp at hlength

/-- Two messages through a buffer that holds only the longer one. -/
theorem readAll_refines_reference_two :
    ∃ final, readAll prefixedEnv 2 6
        (create prefixedEnv ⟨[2, 7, 3, 8, 9], false⟩ (some ()) (some []) 3) =
      .ok ([some [2, 7], some [3, 8, 9]], .ofValue .finished, final) :=
  readAll_refines_reference prefixedEnv_lawful listStream_exactReads _ [] 3
    _ two_create [2, 7, 3, 8, 9] rfl
    (fun _ hboundary hlength => two_fits hboundary hlength)
    2 6 le_rfl (by decide)

/-! ## Messages that need a second refill -/

/-- In a run in which no `decode_one` asks for a second refill before the end
of the stream, the client loop yields the reference run over the content, for
every capacity and however the stream cuts it into reads. -/
theorem readAll_eq_reference_of_oneRefill
    (hlawful : Lawful (env.answer opts) .partialMsg)
    (hchunked : env.stream.ChunkedReads Left) (stream : σ) (content : Content)
    (bufferSize : ℕ) (block : MirroredMemory.Block UInt8)
    (hcreate : env.mirrors.create 0 bufferSize = some block)
    (input : List UInt8) (hleft : Left stream input) (fuel calls : ℕ)
    (hfuel : 2 ≤ fuel) (hcalls : input.length < calls)
    (hrefill : ∀ reader, DecodePoint env fuel
        (create env stream (some opts) (some content) bufferSize) reader →
      OneRefillSuffices env opts reader) :
    ∃ final, readAll env fuel calls
        (create env stream (some opts) (some content) bufferSize) =
      .ok ((reference (env.answer opts) input).1.map some,
        statusOf (reference (env.answer opts) input).2, final) :=
  readAll_create hlawful hchunked hcreate hleft hfuel hrefill hcalls

theorem readAll_eq_reference_of_oneRefill_two :
    ∃ final, readAll prefixedEnv 2 6
        (create prefixedEnv ⟨[2, 7, 3, 8, 9], false⟩ (some ()) (some []) 3) =
      .ok ([some [2, 7], some [3, 8, 9]], .ofValue .finished, final) :=
  readAll_eq_reference_of_oneRefill prefixedEnv_lawful
    listStream_exactReads.chunked _ [] 3 _ two_create [2, 7, 3, 8, 9] rfl
    2 6 le_rfl (by decide)
    fun _ hpoint => hpoint.oneRefillSuffices prefixedEnv_lawful
      listStream_exactReads two_create rfl
      (fun _ hboundary hlength => two_fits hboundary hlength) le_rfl

/-- A one-byte buffer loses a two-byte message that a two-byte buffer
delivers. -/
theorem readAll_growth_loses_message :
    (∃ final, readAll prefixedEnv 4 3
        (create prefixedEnv ⟨[2, 7], false⟩ (some ()) (some []) 1) =
      .ok ([], .ofDecoder .partialMsg, final)) ∧
    (∃ final, readAll prefixedEnv 4 3
        (create prefixedEnv ⟨[2, 7], false⟩ (some ()) (some []) 2) =
      .ok ([some [2, 7]], .ofValue .finished, final)) ∧
    reference (prefixedEnv.answer ()) [2, 7] = ([[2, 7]], .finished) :=
  ⟨⟨_, rfl⟩, ⟨_, rfl⟩, rfl⟩

end ParseBgp.Io.Reader
