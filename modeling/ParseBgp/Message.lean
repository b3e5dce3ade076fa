import ParseBgp.Core.Loop
import ParseBgp.Fault

/-!
# Messages and the C decoder

`Message` owns a `parsebgp_msg*` and decodes into it with `parsebgp_decode` of
libparsebgp, which is not part of the repository and enters as the parameter
`Library`.
-/

namespace ParseBgp

open Loop

/-- `parsebgp::Error` -/
inductive Error where
  | ok
  | partialMsg
  | invalidMsg
  | notImplemented
  | memoryFailure
  | truncatedMsg
  deriving DecidableEq, Repr

namespace Error

def isOk (error : Error) : Bool := error = ok

def isPartialMsg (error : Error) : Bool := error = partialMsg

end Error

/-- `Message::Type` -/
inductive MessageType where
  | invalid
  | bgp
  | bmp
  | mrt
  deriving DecidableEq, Repr

/-- The functions of libparsebgp that the reader calls.  `decode` returns the
error code, the final value of `*len` and the contents left in the message. -/
structure Library (Opts Content : Type) where
  blank : Content
  clear : Content → Content
  clear_eq : ∀ content, clear content = blank
  decode : Opts → MessageType → Content → List UInt8 → Error × ℕ × Content

variable {Opts Content : Type}

/-- A `CPtrView` handle on a message: null, or the contents it points to. -/
abbrev Message (Content : Type) := Option Content

namespace Message

/-- `Message::clear` -/
def clear (library : Library Opts Content) (message : Message Content) :
    Message Content :=
  message.map library.clear

/-- `Message::decode`: the returned value and the message afterwards. -/
def decode (library : Library Opts Content) (opts : Option Opts)
    (type : MessageType) (message : Message Content) (bytes : List UInt8) :
    Outcome Fault (Except Error ℕ × Message Content) :=
  match opts, message with
  | none, _ => .fault .nullOptions
  | some _, none => .fault .nullMessage
  | some opts, some content =>
      let result := library.decode opts type content bytes
      if result.1.isOk then .ok (.ok result.2.1, some result.2.2)
      else .ok (.error result.1, some result.2.2)

end Message

/-- What the C decoder answers on `bytes` when it starts from a cleared
message: the consumed length with the decoded contents, or an error. -/
def Library.answer (library : Library Opts Content) (opts : Opts)
    (type : MessageType) (bytes : List UInt8) : Except Error (ℕ × Content) :=
  let result := library.decode opts type library.blank bytes
  if result.1.isOk then .ok result.2 else .error result.1

/-- Decoding into a cleared message gives the answer of the library. -/
theorem Message.decode_clear (library : Library Opts Content) (opts : Opts)
    (type : MessageType) (content : Content) (bytes : List UInt8) :
    ∃ after, Message.decode library (some opts) type
        (Message.clear library (some content)) bytes =
          .ok ((library.answer opts type bytes).map Prod.fst, some after) ∧
      ∀ len result, library.answer opts type bytes = .ok (len, result) →
        after = result := by
  refine ⟨(library.decode opts type library.blank bytes).2.2, ?_, ?_⟩
  · simp only [clear, decode, Option.map_some, library.clear_eq,
      Library.answer]
    split <;> rfl
  · intro len result hanswer
    simp only [Library.answer] at hanswer
    split at hanswer
    · rw [Except.ok.inj hanswer]
    · simp at hanswer

theorem Message.decode_fault {library : Library Opts Content}
    {opts : Option Opts} {type : MessageType} {message : Message Content}
    {bytes : List UInt8} {fault : Fault}
    (hdecode : Message.decode library opts type message bytes =
      .fault fault) :
    fault = .nullOptions ∨ fault = .nullMessage := by
  cases opts with
  | none => exact Or.inl (Outcome.fault.inj hdecode).symm
  | some opts =>
      cases message with
      | none => exact Or.inr (Outcome.fault.inj hdecode).symm
      | some content =>
          simp only [decode] at hdecode
          split at hdecode <;> simp at hdecode

end ParseBgp
