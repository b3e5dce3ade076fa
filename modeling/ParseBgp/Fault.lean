import Mathlib.Tactic

/-!
# Faults

The code checks its own assumptions with `assert`, reads memory through spans
and dereferences pointers it got from C libraries.  `Fault` lists the ways in
which a run can leave the defined behaviour; the model stops there, as a build
with assertions does.
-/

namespace ParseBgp

inductive Fault where
  /-- `assert(left_ + bytes <= right_)` -/
  | commitRead
  /-- `assert(right_ + bytes < buf_.data() + 2 * capacity())` -/
  | commitWrite
  /-- `assert(in.size() <= out.size())` -/
  | reserve
  /-- `assert(status_.is_ok())` in `fill_buffer` -/
  | fillBufferStatus
  /-- `assert(stream_.bad())` in `fill_buffer` -/
  | fillBufferBad
  /-- `assert(ret == Z_OK)` in `~GzipStream` -/
  | gzclose
  /-- `assert(ret == 0)` after `close(fd)` in `mirror_create` -/
  | mirrorClose
  /-- an access through a span that does not lie in the current mapping -/
  | invalidSpan
  /-- `*opts.cptr()` on null options -/
  | nullOptions
  /-- a null `parsebgp_msg*` passed to `parsebgp_decode` -/
  | nullMessage
  deriving DecidableEq, Repr

end ParseBgp
