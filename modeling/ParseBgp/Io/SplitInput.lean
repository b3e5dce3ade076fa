import ParseBgp.Io.ReadCounts

/-!
# Reading concatenated and truncated files

Two dumps that are concatenated read like the one and then the other.  A dump
that is cut off reads up to the last whole message before the cut, and its
status shows whether the cut can have lost anything.
-/

namespace ParseBgp.Io.Reader

open Loop WholeInput

variable {σ ς Opts Content : Type}
variable {env : ReaderEnv σ ς Opts Content} {opts : Opts}
variable {Left : σ → List UInt8 → Prop}

theorem statusOf_eq_finished_iff {ending : End Error} :
    (statusOf ending : ReaderStatus ς) = .ofValue .finished ↔
      ending = .finished := by
  cases ending <;> simp [statusOf, ReaderStatus.ofValue, ReaderStatus.ofDecoder]

/-- A file that reads to its clean end, with another one behind it, reads like
the two files one after the other: the messages of both, and the status of the
second. -/
theorem readAll_append (hlawful : Lawful (env.answer opts) .partialMsg)
    {bound : ℕ}
    (hexact : env.stream.ExactUpTo bound Left) {first second both : σ}
    (content : Content) {bufferSize : ℕ}
    {block : MirroredMemory.Block UInt8}
    (hcreate : env.mirrors.create 0 bufferSize = some block)
    (hbound : block.capacity ≤ bound)
    (head tail : List UInt8) (hfirst : Left first head)
    (hsecond : Left second tail) (hboth : Left both (head ++ tail))
    (hfits : Fits (env.answer opts) .partialMsg block.capacity (head ++ tail))
    {fuel calls : ℕ} (hfuel : 2 ≤ fuel)
    (hcalls : (head ++ tail).length < calls)
    {messages : List (Message Content)} {final : Reader σ ς Opts Content}
    (hread : readAll env fuel calls
        (create env first (some opts) (some content) bufferSize) =
      .ok (messages, .ofValue .finished, final)) :
    ∃ more status last lastBoth,
      readAll env fuel calls
          (create env second (some opts) (some content) bufferSize) =
        .ok (more, status, last) ∧
      readAll env fuel calls
          (create env both (some opts) (some content) bufferSize) =
        .ok (messages ++ more, status, lastBoth) := by
  have hlength : head.length < calls ∧ tail.length < calls := by
    rw [List.length_append] at hcalls
    omega
  obtain ⟨_, hhead⟩ := readAll_of_fits hlawful hexact hcreate hbound hfirst
    (hlawful.fits_left hfits) hfuel hlength.1
  rw [hread] at hhead
  obtain ⟨hmessages, hstatus, -⟩ := by
    simpa only [Outcome.ok.injEq, Prod.mk.injEq] using hhead
  have hend : (reference (env.answer opts) head).2 = .finished :=
    statusOf_eq_finished_iff.mp hstatus.symm
  obtain ⟨last, htail⟩ := readAll_of_fits hlawful hexact hcreate hbound
    hsecond (hlawful.fits_right hend hfits) hfuel hlength.2
  obtain ⟨lastBoth, hwhole⟩ := readAll_of_fits hlawful hexact hcreate
    hbound hboth hfits hfuel hcalls
  refine ⟨_, _, last, lastBoth, htail, ?_⟩
  rw [hwhole, hlawful.reference_append_of_finished hend, List.map_append,
    hmessages]

/-- A file of one message before a file of another. -/
theorem readAll_append_pair :
    ∃ more status last lastBoth,
      readAll prefixedEnv 2 6
          (create prefixedEnv ⟨[3, 8, 9], false⟩ (some ()) (some []) 255) =
        .ok (more, status, last) ∧
      readAll prefixedEnv 2 6
          (create prefixedEnv ⟨[2, 7, 3, 8, 9], false⟩ (some ()) (some []) 255) =
        .ok ([some [2, 7]] ++ more, status, lastBoth) := by
  obtain ⟨final, hread⟩ : ∃ final, readAll prefixedEnv 2 6
      (create prefixedEnv ⟨[2, 7], false⟩ (some ()) (some []) 255) =
        .ok ([some [2, 7]], .ofValue .finished, final) := ⟨_, rfl⟩
  have hcreate : prefixedEnv.mirrors.create 0 255 =
      some ⟨255, fun _ => 0, by decide⟩ := rfl
  exact readAll_append prefixedEnv_lawful
    (listStream_exactReads.upTo 255) [] hcreate le_rfl [2, 7] [3, 8, 9]
    rfl rfl rfl (prefixedEnv_fits _) le_rfl (by decide) hread

/-- A file that is cut off shows a prefix of its messages.  It ends cleanly, with
an incomplete message, or, if the whole file fails before the cut, as the whole
file does. -/
theorem readAll_cut (hlawful : Lawful (env.answer opts) .partialMsg)
    {bound : ℕ}
    (hexact : env.stream.ExactUpTo bound Left) {short whole : σ}
    (content : Content) {bufferSize : ℕ}
    {block : MirroredMemory.Block UInt8}
    (hcreate : env.mirrors.create 0 bufferSize = some block)
    (hbound : block.capacity ≤ bound)
    (kept lost : List UInt8) (hshort : Left short kept)
    (hwhole : Left whole (kept ++ lost))
    (hfits : Fits (env.answer opts) .partialMsg block.capacity (kept ++ lost))
    {fuel calls : ℕ} (hfuel : 2 ≤ fuel)
    (hcalls : (kept ++ lost).length < calls) :
    ∃ messages status final allMessages allStatus allFinal,
      readAll env fuel calls
          (create env short (some opts) (some content) bufferSize) =
        .ok (messages, status, final) ∧
      readAll env fuel calls
          (create env whole (some opts) (some content) bufferSize) =
        .ok (allMessages, allStatus, allFinal) ∧
      messages <+: allMessages ∧
      (status = .ofValue .finished ∨ status = .ofDecoder .partialMsg ∨
        (messages = allMessages ∧ status = allStatus)) := by
  have hlength : kept.length < calls := by
    rw [List.length_append] at hcalls
    omega
  obtain ⟨final, hread⟩ := readAll_of_fits hlawful hexact hcreate hbound
    hshort (hlawful.fits_left hfits) hfuel hlength
  obtain ⟨allFinal, hall⟩ := readAll_of_fits hlawful hexact hcreate hbound
    hwhole hfits hfuel hcalls
  refine ⟨_, _, final, _, _, allFinal, hread, hall,
    (hlawful.messages_prefix kept lost).map some, ?_⟩
  cases hend : (reference (env.answer opts) kept).2 with
  | finished => exact Or.inl rfl
  | failed error =>
      by_cases hcut : error = .partialMsg
      · rw [hcut]
        exact Or.inr (Or.inl rfl)
      · have hsame := hlawful.reference_append_of_failed hend hcut lost
        rw [hsame, hend]
        exact Or.inr (Or.inr ⟨rfl, rfl⟩)

/-- Two messages, cut in the middle of the second. -/
theorem readAll_cut_pair :
    ∃ messages status final allMessages allStatus allFinal,
      readAll prefixedEnv 2 6
          (create prefixedEnv ⟨[2, 7, 3], false⟩ (some ()) (some []) 255) =
        .ok (messages, status, final) ∧
      readAll prefixedEnv 2 6
          (create prefixedEnv ⟨[2, 7, 3, 8, 9], false⟩ (some ()) (some []) 255) =
        .ok (allMessages, allStatus, allFinal) ∧
      messages <+: allMessages ∧
      (status = .ofValue .finished ∨ status = .ofDecoder .partialMsg ∨
        (messages = allMessages ∧ status = allStatus)) := by
  have hcreate : prefixedEnv.mirrors.create 0 255 =
      some ⟨255, fun _ => 0, by decide⟩ := rfl
  exact readAll_cut prefixedEnv_lawful
    (listStream_exactReads.upTo 255) [] hcreate le_rfl [2, 7, 3] [8, 9] rfl rfl
    (prefixedEnv_fits _) le_rfl (by decide)

end ParseBgp.Io.Reader
