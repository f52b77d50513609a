/-!
# Polled byte streams

`AsyncWrite` and `AsyncRead` are Tokio's traits as state passing: a poll takes
the transport and returns the outcome with the transport after it. A transport
is any type with these operations, so a theorem about every instance covers
every pattern of partial writes, `Pending`, `Ok(0)` and errors: the pattern is
part of the transport's state.

`Tap` wraps a transport and records the bytes it takes and the bytes it hands
out. It changes no outcome; it only lets a theorem speak about what crossed.
-/

namespace Eggchaos.Lib

inductive Poll (α : Type) where
  | ready (a : α)
  | pending
deriving DecidableEq, Repr

/-- `io::ErrorKind`: the kinds this code makes, and any other by a code. -/
inductive ErrorKind where
  | writeZero
  | invalidData
  | invalidInput
  | connectionAborted
  | connectionReset
  | other (code : Nat)
deriving DecidableEq, Repr

structure IoError where
  kind : ErrorKind
  message : String
deriving DecidableEq, Repr

abbrev IoResult (α : Type) := Except IoError α

abbrev Byte := UInt8

namespace Poll

def isPending {α : Type} : Poll α → Bool
  | .ready _ => false
  | .pending => true

@[simp] theorem isPending_ready {α : Type} (a : α) : (Poll.ready a).isPending = false := rfl
@[simp] theorem isPending_pending {α : Type} : (Poll.pending : Poll α).isPending = true := rfl

/-- Whether an I/O poll has failed. -/
def isError {α : Type} : Poll (IoResult α) → Bool
  | .ready (.error _) => true
  | _ => false

@[simp] theorem isError_error {α : Type} (e : IoError) : (Poll.ready (.error e) : Poll (IoResult α)).isError = true := rfl
@[simp] theorem isError_ok {α : Type} (a : α) : (Poll.ready (.ok a) : Poll (IoResult α)).isError = false := rfl
@[simp] theorem isError_pending {α : Type} : (Poll.pending : Poll (IoResult α)).isError = false := rfl

/-- Whether an I/O poll has failed with `ConnectionAborted`. -/
def isAbort {α : Type} : Poll (IoResult α) → Bool
  | .ready (.error e) => e.kind == .connectionAborted
  | _ => false

@[simp] theorem isAbort_error {α : Type} (e : IoError) :
    (Poll.ready (.error e) : Poll (IoResult α)).isAbort = (e.kind == .connectionAborted) := rfl
@[simp] theorem isAbort_ok {α : Type} (a : α) : (Poll.ready (.ok a) : Poll (IoResult α)).isAbort = false := rfl
@[simp] theorem isAbort_pending {α : Type} : (Poll.pending : Poll (IoResult α)).isAbort = false := rfl

end Poll

class AsyncWrite (τ : Type) where
  pollWrite : τ → List Byte → Poll (IoResult Nat) × τ
  pollWriteVectored : τ → List (List Byte) → Poll (IoResult Nat) × τ
  pollFlush : τ → Poll (IoResult Unit) × τ
  pollShutdown : τ → Poll (IoResult Unit) × τ

/-- `pollRead t cap` reads into a buffer with `cap` bytes of room; an empty
result with room left is the end of the stream. A `ReadBuf` takes no more bytes
than it has room for. -/
class AsyncRead (τ : Type) where
  pollRead : τ → Nat → Poll (IoResult (List Byte)) × τ
  pollRead_length_le : ∀ t cap bytes t', pollRead t cap = (.ready (.ok bytes), t') → bytes.length ≤ cap

/-! ## What crossed a transport -/

/-- The bytes a write took: a count beyond the slice is a broken answer, of
which nothing is known to have been taken. -/
def taken (bytes : List Byte) : Poll (IoResult Nat) → List Byte
  | .ready (.ok n) => if n ≤ bytes.length then bytes.take n else []
  | _ => []

/-- The bytes a read handed out. -/
def handedOut : Poll (IoResult (List Byte)) → List Byte
  | .ready (.ok bytes) => bytes
  | _ => []

/-- A writer whose state tells which bytes it has taken so far. -/
class RecordsWrites (τ : Type) [AsyncWrite τ] where
  log : τ → List Byte
  log_pollWrite : ∀ t bytes, log (AsyncWrite.pollWrite t bytes).2 = log t ++ taken bytes (AsyncWrite.pollWrite t bytes).1
  log_pollFlush : ∀ t, log (AsyncWrite.pollFlush t).2 = log t
  log_pollShutdown : ∀ t, log (AsyncWrite.pollShutdown t).2 = log t

structure Tap (τ : Type) where
  io : τ
  written : List Byte := []
  read : List Byte := []

namespace Tap
variable {τ : Type}

instance [AsyncWrite τ] : AsyncWrite (Tap τ) where
  pollWrite t bytes :=
    let (o, io) := AsyncWrite.pollWrite t.io bytes
    (o, { t with io, written := t.written ++ taken bytes o })
  pollWriteVectored t bufs :=
    let (o, io) := AsyncWrite.pollWriteVectored t.io bufs
    (o, { t with io, written := t.written ++ taken bufs.flatten o })
  pollFlush t :=
    let (o, io) := AsyncWrite.pollFlush t.io
    (o, { t with io })
  pollShutdown t :=
    let (o, io) := AsyncWrite.pollShutdown t.io
    (o, { t with io })

instance [AsyncRead τ] : AsyncRead (Tap τ) where
  pollRead t cap :=
    let (o, io) := AsyncRead.pollRead t.io cap
    (o, { t with io, read := t.read ++ handedOut o })
  pollRead_length_le t cap bytes t' h := by
    rcases ho : AsyncRead.pollRead t.io cap with ⟨o, io⟩
    simp only [ho, Prod.mk.injEq] at h
    exact AsyncRead.pollRead_length_le t.io cap bytes io (by rw [ho, h.1])

instance [AsyncWrite τ] : RecordsWrites (Tap τ) where
  log := written
  log_pollWrite _ _ := rfl
  log_pollFlush _ := rfl
  log_pollShutdown _ := rfl

end Tap

/-- A writer that counts the shutdowns it is asked for. -/
structure Closes (τ : Type) where
  io : τ
  shutdowns : Nat := 0

instance Closes.asyncWrite {τ : Type} [AsyncWrite τ] : AsyncWrite (Closes τ) where
  pollWrite t bytes :=
    let (o, io) := AsyncWrite.pollWrite t.io bytes
    (o, { t with io })
  pollWriteVectored t bufs :=
    let (o, io) := AsyncWrite.pollWriteVectored t.io bufs
    (o, { t with io })
  pollFlush t :=
    let (o, io) := AsyncWrite.pollFlush t.io
    (o, { t with io })
  pollShutdown t :=
    let (o, io) := AsyncWrite.pollShutdown t.io
    (o, { io, shutdowns := t.shutdowns + 1 })

/-! ## What writing leaves alone -/

/-- `t'` is reached from `t` by writes, flushes and shutdowns. -/
inductive Wrote {τ : Type} [AsyncWrite τ] (t : τ) : τ → Prop where
  | refl : Wrote t t
  | write {t' : τ} (bytes : List Byte) (h : Wrote t t') : Wrote t (AsyncWrite.pollWrite t' bytes).2
  | flush {t' : τ} (h : Wrote t t') : Wrote t (AsyncWrite.pollFlush t').2
  | shutdown {t' : τ} (h : Wrote t t') : Wrote t (AsyncWrite.pollShutdown t').2

theorem Wrote.read {τ : Type} [AsyncWrite τ] {t t' : Tap τ} (h : Wrote t t') : t'.read = t.read := by
  induction h with
  | refl => rfl
  | write bytes _ ih => exact ih
  | flush _ ih => exact ih
  | shutdown _ ih => exact ih

/-! ## A scripted transport -/

/-- A transport that answers from a script. Once a list is over, writes take all
they are given, flushes succeed and reads find the end of the stream. -/
structure Script where
  writes : List (Poll (IoResult Nat)) := []
  flushes : List (Poll (IoResult Unit)) := []
  reads : List (Poll (IoResult (List Byte))) := []

namespace Script

def pollWrite (t : Script) (bytes : List Byte) : Poll (IoResult Nat) × Script :=
  match t.writes with
  | [] => (.ready (.ok bytes.length), t)
  | answer :: writes => (answer, { t with writes })

/-- The next flush or shutdown. -/
def pollFlush (t : Script) : Poll (IoResult Unit) × Script :=
  match t.flushes with
  | [] => (.ready (.ok ()), t)
  | answer :: flushes => (answer, { t with flushes })

/-- The next read; what does not fit the buffer comes with the read after. -/
def pollRead (t : Script) (cap : Nat) : Poll (IoResult (List Byte)) × Script :=
  match t.reads with
  | [] => (.ready (.ok []), t)
  | .ready (.ok bytes) :: reads =>
    (.ready (.ok (bytes.take cap)),
      { t with reads := if bytes.length ≤ cap then reads else .ready (.ok (bytes.drop cap)) :: reads })
  | answer :: reads => (answer, { t with reads })

instance : AsyncWrite Script where
  pollWrite := pollWrite
  pollWriteVectored t bufs := t.pollWrite bufs.flatten
  pollFlush := pollFlush
  pollShutdown := pollFlush

instance : AsyncRead Script where
  pollRead := pollRead
  pollRead_length_le t cap bytes t' h := by
    unfold pollRead at h
    split at h
    · simp only [Prod.mk.injEq, Poll.ready.injEq, Except.ok.injEq] at h
      simp [← h.1]
    · simp only [Prod.mk.injEq, Poll.ready.injEq, Except.ok.injEq] at h
      simp only [← h.1, List.length_take]
      omega
    · next hno _ =>
      simp only [Prod.mk.injEq] at h
      exact absurd h.1 (hno bytes)

end Script

end Eggchaos.Lib
