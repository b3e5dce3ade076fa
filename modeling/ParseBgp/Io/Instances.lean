import ParseBgp.Core.WholeInput
import ParseBgp.Io.Reader

/-!
# A stream and a decoder that meet the contracts

The contracts of `ByteStream` and of the C decoder are satisfied by a stream
over a list of bytes and by messages that start with their own length.  The
concrete runs next to the general theorems use these.
-/

namespace ParseBgp.Io

open WholeInput

/-- A file that is already in memory. -/
structure ListStream where
  rest : List UInt8
  ended : Bool
  deriving DecidableEq, Repr

def listStream : ByteStream ListStream Unit where
  read state count :=
    (state.rest.take count,
      { rest := state.rest.drop count
        ended := state.rest.length < count })
  good state := !state.ended
  eof state := state.ended
  bad _ := false
  status _ := ()

theorem listStream_exactReads :
    listStream.ExactReads fun state bytes => state = ⟨bytes, false⟩ where
  full := by
    rintro _ bytes count rfl hcount
    simp [listStream, hcount]
  short := by
    rintro _ bytes count rfl hcount
    simp [listStream, hcount, List.take_of_length_le hcount.le]

/-- Messages whose first byte is their length. -/
def prefixedDecode (bytes : List UInt8) : Error × ℕ × List UInt8 :=
  match bytes with
  | [] => (.partialMsg, 0, [])
  | len :: _ =>
      if len = 0 then (.invalidMsg, 0, [])
      else if bytes.length < len.toNat then (.partialMsg, 0, [])
      else (.ok, len.toNat, bytes.take len.toNat)

def prefixedLibrary : Library Unit (List UInt8) where
  blank := []
  clear _ := []
  clear_eq _ := rfl
  decode _ _ _ bytes := prefixedDecode bytes

def prefixedEnv : ReaderEnv ListStream Unit Unit (List UInt8) where
  stream := listStream
  library := prefixedLibrary
  mirrors := exactMirrors
  messageType := .mrt

theorem prefixed_answer_nil (type : MessageType) :
    prefixedLibrary.answer () type [] = .error .partialMsg := rfl

theorem prefixed_answer_cons (type : MessageType) (len : UInt8)
    (rest : List UInt8) :
    prefixedLibrary.answer () type (len :: rest) =
      if len = 0 then .error .invalidMsg
      else if (len :: rest).length < len.toNat then .error .partialMsg
      else .ok (len.toNat, (len :: rest).take len.toNat) := by
  simp only [Library.answer, prefixedLibrary, prefixedDecode]
  by_cases hzero : len = 0
  · simp only [if_pos hzero]
    rfl
  by_cases hshort : (len :: rest).length < len.toNat
  · simp only [if_neg hzero, if_pos hshort]
    rfl
  · simp only [if_neg hzero, if_neg hshort]
    rfl

theorem prefixed_lawful (type : MessageType) :
    Lawful (prefixedLibrary.answer () type) .partialMsg where
  consumes := by
    intro bytes consumed message hanswer
    cases bytes with
    | nil =>
        rw [prefixed_answer_nil] at hanswer
        exact absurd hanswer (by simp)
    | cons len rest =>
        rw [prefixed_answer_cons] at hanswer
        split_ifs at hanswer with hzero hshort
        obtain ⟨rfl, -⟩ := Prod.mk.inj (Except.ok.inj hanswer)
        have hne : len.toNat ≠ 0 := by
          intro hnat
          exact hzero (UInt8.toNat_inj.mp hnat)
        omega
  stable := by
    intro bytes hanswer more
    cases bytes with
    | nil => exact absurd (prefixed_answer_nil type) hanswer
    | cons len rest =>
        rw [List.cons_append]
        rw [prefixed_answer_cons] at hanswer ⊢
        rw [prefixed_answer_cons]
        by_cases hzero : len = 0
        · rw [if_pos hzero, if_pos hzero]
        by_cases hshort : (len :: rest).length < len.toNat
        · rw [if_neg hzero, if_pos hshort] at hanswer
          exact absurd rfl hanswer
        have hlong : ¬ (len :: (rest ++ more)).length < len.toNat := by
          simp only [List.length_cons, List.length_append] at hshort ⊢
          omega
        rw [if_neg hzero, if_neg hlong, if_neg hzero, if_neg hshort,
          ← List.cons_append, List.take_append_of_le_length (not_lt.mp hshort)]
  empty := prefixed_answer_nil type

theorem prefixedEnv_lawful : Lawful (prefixedEnv.answer ()) .partialMsg :=
  prefixed_lawful .mrt

end ParseBgp.Io
