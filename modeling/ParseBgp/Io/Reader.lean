import ParseBgp.Io.MirroredRingBuffer
import ParseBgp.Io.Stream
import ParseBgp.Message

/-!
# The reader

`Reader` decodes the messages of a stream one by one through a mirrored ring
buffer.  This module embeds its members and member functions, the status class
and the iterator of its range interface.
-/

namespace ParseBgp.Io

open Loop

/-- `ReaderStatus::Value` -/
inductive StatusValue where
  | ok
  | streamFinished
  | finished
  | streamError
  | decoderError
  | memoryFailure
  deriving DecidableEq, Repr

/-- The union `inner_error_`; `empty` is its value after `inner_error_ = {}`. -/
inductive InnerError (ς : Type) where
  | empty
  | stream (status : ς)
  | decoder (error : Error)
  deriving DecidableEq, Repr

structure ReaderStatus (ς : Type) where
  value : StatusValue
  innerError : InnerError ς
  deriving DecidableEq, Repr

namespace ReaderStatus

variable {ς : Type}

/-- Construction and assignment from a `Value`. -/
def ofValue (value : StatusValue) : ReaderStatus ς where
  value := value
  innerError := .empty

/-- Assignment from a stream status. -/
def ofStream (status : ς) : ReaderStatus ς where
  value := .streamError
  innerError := .stream status

/-- Assignment from a decoder error. -/
def ofDecoder (error : Error) : ReaderStatus ς where
  value := .decoderError
  innerError := .decoder error

def isOk (status : ReaderStatus ς) : Bool := status.value = .ok

def isStreamFinished (status : ReaderStatus ς) : Bool :=
  status.value = .streamFinished

def isFinished (status : ReaderStatus ς) : Bool := status.value = .finished

def isStreamError (status : ReaderStatus ς) : Bool :=
  status.value = .streamError

def isDecoderError (status : ReaderStatus ς) : Bool :=
  status.value = .decoderError

def isMemoryFailure (status : ReaderStatus ς) : Bool :=
  status.value = .memoryFailure

def notFinished (status : ReaderStatus ς) : Bool :=
  status.isOk || status.isStreamFinished

theorem value_of_isOk {status : ReaderStatus ς} (hok : status.isOk = true) :
    status.value = .ok := by
  simpa [isOk] using hok

theorem value_of_isStreamFinished {status : ReaderStatus ς}
    (hfinished : status.isStreamFinished = true) :
    status.value = .streamFinished := by
  simpa [isStreamFinished] using hfinished

theorem isOk_eq_false_of_isStreamFinished {status : ReaderStatus ς}
    (hfinished : status.isStreamFinished = true) : status.isOk = false := by
  simp only [isStreamFinished, decide_eq_true_eq] at hfinished
  simp [isOk, hfinished]

theorem isStreamFinished_of_isOk {status : ReaderStatus ς}
    (hok : status.isOk = true) : status.isStreamFinished = false := by
  simp only [isOk, decide_eq_true_eq] at hok
  simp [isStreamFinished, hok]

theorem notFinished_of_isOk {status : ReaderStatus ς}
    (hok : status.isOk = true) : status.notFinished = true := by
  simp [notFinished, hok]

theorem isOk_of_notFinished {status : ReaderStatus ς}
    (hnot : status.notFinished = true)
    (hfinished : status.isStreamFinished = false) : status.isOk = true := by
  simpa [notFinished, hfinished] using hnot

@[simp]
theorem notFinished_ofStream (inner : ς) :
    (ofStream inner).notFinished = false := rfl

@[simp]
theorem notFinished_ofDecoder (error : Error) :
    (ofDecoder error : ReaderStatus ς).notFinished = false := rfl

theorem notFinished_of_final {status : ReaderStatus ς}
    (hfinal : (status.isFinished || status.isDecoderError) = true) :
    status.notFinished = false := by
  rw [Bool.or_eq_true] at hfinal
  rcases hfinal with hfinal | hfinal
  · simp only [isFinished, decide_eq_true_eq] at hfinal
    simp [notFinished, isOk, isStreamFinished, hfinal]
  · simp only [isDecoderError, decide_eq_true_eq] at hfinal
    simp [notFinished, isOk, isStreamFinished, hfinal]

end ReaderStatus

/-- What a `Reader` is instantiated with and calls: its stream class, the C
library, the creation of mappings, and its template argument
`message_type`. -/
structure ReaderEnv (σ ς Opts Content : Type) where
  stream : ByteStream σ ς
  library : Library Opts Content
  mirrors : MirrorSource
  messageType : MessageType

/-- The members of `Reader`.  `mirrored` and `reads` count the mappings asked for
and the calls of `stream_.read` so far.  Null C pointers are `none`. -/
structure Reader (σ ς Opts Content : Type) where
  started : Bool
  stream : σ
  buffer : MirroredRingBuffer
  options : Option Opts
  message_ : Message Content
  status : ReaderStatus ς
  mirrored : ℕ
  reads : ℕ

variable {σ ς Opts Content τ : Type}

/-- The decoder's answer on `bytes` in a given instantiation of the reader. -/
def ReaderEnv.answer (env : ReaderEnv σ ς Opts Content) (opts : Opts)
    (bytes : List UInt8) : Except Error (ℕ × Content) :=
  env.library.answer opts env.messageType bytes

/-- `ReaderTransformInput`: the current message, or the status as an error. -/
abbrev TransformInput (ς Content : Type) :=
  Except (ReaderStatus ς) (Message Content)

namespace Reader

/-- The constructor.  `options` and `message` are what the constructors of
`Options` and `Message` got from their allocations. -/
def create (env : ReaderEnv σ ς Opts Content) (stream : σ)
    (options : Option Opts) (message : Message Content) (bufferSize : ℕ) :
    Reader σ ς Opts Content :=
  let buffer := MirroredRingBuffer.create env.mirrors 0 bufferSize
  { started := false
    stream := stream
    buffer := buffer
    options := options
    message_ := message
    status := if buffer.isNull then .ofValue .memoryFailure else .ofValue .ok
    mirrored := 1
    reads := 0 }

/-- `fill_buffer` -/
def fillBuffer (env : ReaderEnv σ ς Opts Content)
    (reader : Reader σ ς Opts Content) :
    Outcome Fault (Reader σ ς Opts Content) :=
  if reader.status.isOk then
    let input := reader.buffer.prepareWrite
    let (bytes, stream) := env.stream.read reader.stream input.size
    let reader := { reader with stream := stream, reads := reader.reads + 1 }
    (reader.buffer.fill input 0 bytes).bind fun filled =>
      if env.stream.good stream then
        (filled.commitWrite bytes.length).bind fun buffer =>
          .ok { reader with buffer := buffer }
      else if env.stream.eof stream then
        (filled.commitWrite bytes.length).bind fun buffer =>
          .ok { reader with
            buffer := buffer
            status := .ofValue .streamFinished }
      else if env.stream.bad stream then
        .ok { reader with
          buffer := filled
          status := .ofStream (env.stream.status stream) }
      else .fault .fillBufferBad
  else .fault .fillBufferStatus

/-- The local variables of `decode_one` at the head of its loop. -/
structure DecodeState (σ ς Opts Content : Type) where
  reader : Reader σ ς Opts Content
  out : Span
  alreadyGotPartial : Bool

/-- The loop head with `out` freshly taken from `prepare_read`. -/
def DecodeState.enter (reader : Reader σ ς Opts Content)
    (alreadyGotPartial : Bool) : DecodeState σ ς Opts Content where
  reader := reader
  out := reader.buffer.prepareRead
  alreadyGotPartial := alreadyGotPartial

/-- `buffer_.reserve(buffer_.capacity() * growth_factor)`; the loop ignores the
result. -/
def grow (env : ReaderEnv σ ς Opts Content)
    (reader : Reader σ ς Opts Content) :
    Outcome Fault (Reader σ ς Opts Content) :=
  (reader.buffer.reserve env.mirrors reader.mirrored
      (reader.buffer.capacity * 2)).bind fun result =>
    .ok { reader with buffer := result.2, mirrored := reader.mirrored + 1 }

/-- The body of the `while (true)` of `decode_one`. -/
def decodeIteration (env : ReaderEnv σ ς Opts Content)
    (state : DecodeState σ ς Opts Content) :
    Outcome Fault
      (Step (DecodeState σ ς Opts Content) (Reader σ ς Opts Content)) :=
  let cleared := state.reader.message_.clear env.library
  (state.reader.buffer.view state.out).bind fun bytes =>
    (Message.decode env.library state.reader.options env.messageType cleared
        bytes).bind fun (ret, message) =>
      let reader := { state.reader with message_ := message }
      match ret with
      | .ok len =>
          (reader.buffer.commitRead len).bind fun buffer =>
            .ok (.done { reader with buffer := buffer })
      | .error error =>
          if error.isPartialMsg && !reader.status.isStreamFinished then
            (if state.alreadyGotPartial then grow env reader
              else .ok reader).bind fun reader =>
              (fillBuffer env reader).bind fun reader =>
                .ok (.again (.enter reader true))
          else if error.isPartialMsg && state.out.size = 0 then
            .ok (.done { reader with status := .ofValue .finished })
          else .ok (.done { reader with status := .ofDecoder error })

/-- `decode_one`, stopped after `fuel` iterations of its loop. -/
def decodeOne (env : ReaderEnv σ ς Opts Content) (fuel : ℕ)
    (reader : Reader σ ς Opts Content) :
    Outcome Fault (Reader σ ς Opts Content) :=
  if reader.status.notFinished then
    run (decodeIteration env) fuel (.enter reader false)
  else .ok reader

/-- The initial fill and decode at the head of `message`. -/
def start (env : ReaderEnv σ ς Opts Content) (fuel : ℕ)
    (reader : Reader σ ς Opts Content) :
    Outcome Fault (Reader σ ς Opts Content) :=
  if reader.started then .ok reader
  else
    (fillBuffer env { reader with started := true }).bind fun reader =>
      if reader.status.notFinished then decodeOne env fuel reader
      else .ok reader

/-- What `message` hands to the transformer. -/
def current (reader : Reader σ ς Opts Content) : TransformInput ς Content :=
  if reader.status.notFinished then .ok reader.message_
  else .error reader.status

/-- `message`: the reader afterwards and the transformed result. -/
def message (env : ReaderEnv σ ς Opts Content)
    (transformer : TransformInput ς Content → τ) (fuel : ℕ)
    (reader : Reader σ ς Opts Content) :
    Outcome Fault (Reader σ ς Opts Content × τ) :=
  (start env fuel reader).bind fun reader =>
    .ok (reader, transformer reader.current)

/-! ## The range interface -/

/-- `Iterator::operator++` -/
def increment (env : ReaderEnv σ ς Opts Content) (fuel : ℕ)
    (reader : Reader σ ς Opts Content) :
    Outcome Fault (Reader σ ς Opts Content) :=
  decodeOne env fuel reader

/-- `Iterator::operator*` -/
def dereference (env : ReaderEnv σ ς Opts Content)
    (transformer : TransformInput ς Content → τ) (fuel : ℕ)
    (reader : Reader σ ς Opts Content) :
    Outcome Fault (Reader σ ς Opts Content × τ) :=
  message env transformer fuel reader

/-- `Iterator::operator!=` against the sentinel. -/
def notAtEnd (reader : Reader σ ς Opts Content) : Bool :=
  reader.status.notFinished

end Reader

/-- `identity_transform` -/
def identityTransform (msg : TransformInput ς Content) :
    TransformInput ς Content :=
  msg

end ParseBgp.Io
