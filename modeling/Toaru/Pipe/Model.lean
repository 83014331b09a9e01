import Mathlib.Data.List.Infix
import Mathlib.Logic.Relation

/-!
# The Unix pipe: one reader, one writer

A pipe of `make_unix_pipe` (`unixpipe.c`) is a ring buffer and two flags, `read_closed`
and `write_closed`. The system modelled here is that pipe with one writer process, which
calls `write_unixpipe` on a list of byte strings and then `close_write_pipe`, and one
reader process, which calls `read_unixpipe` with a list of sizes and then
`close_read_pipe`. Each process is a program counter over the atomic steps of those
functions (`WPc`, `RPc`), and a step of the system is a step of either one
(`readerStep`, `writerStep`, `Step`); every interleaving is a path of `Step`.

The ring buffer's code (`ringbuffer.c`) is not among the sources. Its one-byte
`ring_buffer_read` and `ring_buffer_write` are modelled as atomic steps on a FIFO of at
most `cap` bytes that block on an empty (full) buffer until data (space) arrives or the
other end's close interrupts the wait, which then returns 0; `ring_buffer_interrupt` wakes
the process blocked on the buffer, if there is one.

Two ghost logs record what each finished call returned (`returned`, `wlog`); the bytes the
writer has put into the buffer, the first `written` bytes of each of its calls, are
`sentBytes`. The invariant of §3 (`Inv`): the bytes the reader's calls returned, then the
bytes its current call has gathered, then the buffer, are exactly `sentBytes`
(`inv_reach`). From it, `pipe_stream_exact`: what the reads return is always a prefix of
what was written, and a read returns nothing only once the write end is closed and the
buffer empty, when the two are equal. A second invariant bounds what the reader's call has
gathered by its size (`RPc.Bounded`), so no read returns more than it was asked for
(`read_returns_at_most_size`). Both invariants are proved one step at a time from what a step
can do (`ReaderMove`, `WriterMove`).
-/

set_option autoImplicit false

namespace Toaru
namespace Pipe

/-! ## 1. State -/

/-- `UNIX_PIPE_BUFFER`. -/
def unixPipeBuffer : Nat := 512

/-- `'\n'`. -/
def newline : UInt8 := 10

/-- Where the reader is: between calls, at the head of the loop of `read_unixpipe` having
gathered `got`, about to call `ring_buffer_read`, blocked in it on an empty buffer, or
after `close_read_pipe`. -/
inductive RPc
  | idle
  | test (size : Nat) (got : List UInt8)
  | read (size : Nat) (got : List UInt8)
  | wait (size : Nat) (got : List UInt8)
  | closed
  deriving DecidableEq, Repr

/-- Where the writer is: between calls, at the head of the loop of `write_unixpipe` with
`written` bytes of `data` written, about to call `ring_buffer_write`, blocked in it on a
full buffer, or after `close_write_pipe`. -/
inductive WPc
  | idle
  | test (data : List UInt8) (written : Nat)
  | write (data : List UInt8) (written : Nat)
  | wait (data : List UInt8) (written : Nat)
  | closed
  deriving DecidableEq, Repr

/-- The pipe, the two processes, and the ghost logs of what each finished call
returned. -/
structure Sys where
  fifo : List UInt8
  readClosed : Bool
  writeClosed : Bool
  rpc : RPc
  rcalls : List Nat
  wpc : WPc
  wcalls : List (List UInt8)
  returned : List (List UInt8)
  wlog : List (List UInt8 × Nat)
  deriving DecidableEq, Repr

/-- `make_unix_pipe`, with the two processes about to make their calls. -/
def init (sizes : List Nat) (datas : List (List UInt8)) : Sys :=
  ⟨[], false, false, .idle, sizes, .idle, datas, [], []⟩

/-! ## 2. Steps -/

namespace Sys

/-- `read_unixpipe` returns the bytes `got`. -/
def finishRead (s : Sys) (got : List UInt8) : Sys :=
  { s with rpc := .idle, returned := s.returned ++ [got] }

/-- `write_unixpipe` returns `written`. -/
def finishWrite (s : Sys) (data : List UInt8) (written : Nat) : Sys :=
  { s with wpc := .idle, wlog := s.wlog ++ [(data, written)] }

/-- `ring_buffer_read(buffer, 1, …)` when the buffer holds a byte: the byte is taken, and
`read_unixpipe` returns at once if it is a newline. -/
def takeByte (s : Sys) (size : Nat) (got : List UInt8) (ifEmpty : Option Sys) : Option Sys :=
  match s.fifo with
  | b :: rest =>
    if b = newline then some ({ s with fifo := rest }.finishRead (got ++ [b]))
    else some { s with fifo := rest, rpc := .test size (got ++ [b]) }
  | [] => ifEmpty

/-- `ring_buffer_write(buffer, 1, …)` when the buffer has room. -/
def putByte (cap : Nat) (s : Sys) (data : List UInt8) (written : Nat) (ifFull : Option Sys) :
    Option Sys :=
  if s.fifo.length < cap then
    some { s with fifo := s.fifo ++ [data.getD written 0], wpc := .test data (written + 1) }
  else ifFull

/-- `ring_buffer_interrupt` as the reader sees it: a blocked `ring_buffer_read` returns 0. -/
def interruptReader : RPc → RPc
  | .wait size got => .test size got
  | pc => pc

/-- `ring_buffer_interrupt` as the writer sees it. -/
def interruptWriter : WPc → WPc
  | .wait data written => .test data written
  | pc => pc

/-- `close_read_pipe`. -/
def closeReadPipe (s : Sys) : Sys :=
  { s with
    readClosed := true
    rpc := .closed
    wpc := if s.writeClosed then s.wpc else interruptWriter s.wpc }

/-- `close_write_pipe`. -/
def closeWritePipe (s : Sys) : Sys :=
  { s with
    writeClosed := true
    wpc := .closed
    rpc := if s.readClosed then s.rpc else interruptReader s.rpc }

end Sys

open Sys

/-- One atomic step of the reader; `none` when it is blocked or has closed its end. -/
def readerStep (s : Sys) : Option Sys :=
  match s.rpc with
  | .idle =>
    match s.rcalls with
    | size :: rest => some { s with rcalls := rest, rpc := .test size [] }
    | [] => some s.closeReadPipe
  | .test size got =>
    if size ≤ got.length then some (s.finishRead got)
    else if s.writeClosed = true ∧ s.fifo = [] then some (s.finishRead got)
    else some { s with rpc := .read size got }
  | .read size got => s.takeByte size got (some { s with rpc := .wait size got })
  | .wait size got => s.takeByte size got none
  | .closed => none

/-- One atomic step of the writer on a buffer of `cap` bytes; `none` when it is blocked or
has closed its end. The `SIGPIPE` it sends itself on a closed read end is not modelled. -/
def writerStep (cap : Nat) (s : Sys) : Option Sys :=
  match s.wpc with
  | .idle =>
    match s.wcalls with
    | data :: rest => some { s with wcalls := rest, wpc := .test data 0 }
    | [] => some s.closeWritePipe
  | .test data written =>
    if data.length ≤ written then some (s.finishWrite data written)
    else if s.readClosed = true then some (s.finishWrite data written)
    else some { s with wpc := .write data written }
  | .write data written => s.putByte cap data written (some { s with wpc := .wait data written })
  | .wait data written => s.putByte cap data written none
  | .closed => none

/-- A step of the system: a step of the reader or of the writer. -/
def Step (cap : Nat) (s s' : Sys) : Prop := readerStep s = some s' ∨ writerStep cap s = some s'

/-- The states some interleaving reaches from `s₀`. -/
def Reach (cap : Nat) (s₀ : Sys) : Sys → Prop := Relation.ReflTransGen (Step cap) s₀

/-- `check_pipe` (the read end's `selectcheck`): 0, ready, when the buffer holds a byte or
the write end is closed. -/
def checkPipe (s : Sys) : Nat :=
  if s.fifo.length > 0 then 0 else if s.writeClosed = true then 0 else 1

/-- What one reader step can do, each move with the guard under which `readerStep` takes it. -/
inductive ReaderMove : Sys → Sys → Prop
  | start {s : Sys} {size : Nat} {rest : List Nat} : s.rpc = .idle → s.rcalls = size :: rest →
      ReaderMove s { s with rcalls := rest, rpc := .test size [] }
  | close {s : Sys} : s.rpc = .idle → s.rcalls = [] → ReaderMove s s.closeReadPipe
  | finish {s : Sys} {size : Nat} {got : List UInt8} : s.rpc = .test size got →
      (size ≤ got.length ∨ s.writeClosed = true ∧ s.fifo = []) → ReaderMove s (s.finishRead got)
  | read {s : Sys} {size : Nat} {got : List UInt8} : s.rpc = .test size got →
      ¬ size ≤ got.length → ¬ (s.writeClosed = true ∧ s.fifo = []) →
      ReaderMove s { s with rpc := .read size got }
  | block {s : Sys} {size : Nat} {got : List UInt8} : s.rpc = .read size got → s.fifo = [] →
      ReaderMove s { s with rpc := .wait size got }
  | newline {s : Sys} {size : Nat} {got : List UInt8} {rest : List UInt8} :
      (s.rpc = .read size got ∨ s.rpc = .wait size got) → s.fifo = newline :: rest →
      ReaderMove s ({ s with fifo := rest }.finishRead (got ++ [newline]))
  | byte {s : Sys} {size : Nat} {got : List UInt8} {b : UInt8} {rest : List UInt8} :
      (s.rpc = .read size got ∨ s.rpc = .wait size got) → s.fifo = b :: rest → b ≠ newline →
      ReaderMove s { s with fifo := rest, rpc := .test size (got ++ [b]) }

/-- What one writer step can do. -/
inductive WriterMove (cap : Nat) : Sys → Sys → Prop
  | start {s : Sys} {data : List UInt8} {rest : List (List UInt8)} : s.wpc = .idle →
      s.wcalls = data :: rest → WriterMove cap s { s with wcalls := rest, wpc := .test data 0 }
  | close {s : Sys} : s.wpc = .idle → s.wcalls = [] → WriterMove cap s s.closeWritePipe
  | finish {s : Sys} {data : List UInt8} {written : Nat} : s.wpc = .test data written →
      (data.length ≤ written ∨ s.readClosed = true) → WriterMove cap s (s.finishWrite data written)
  | write {s : Sys} {data : List UInt8} {written : Nat} : s.wpc = .test data written →
      ¬ data.length ≤ written → ¬ s.readClosed = true →
      WriterMove cap s { s with wpc := .write data written }
  | block {s : Sys} {data : List UInt8} {written : Nat} : s.wpc = .write data written →
      ¬ s.fifo.length < cap → WriterMove cap s { s with wpc := .wait data written }
  | put {s : Sys} {data : List UInt8} {written : Nat} :
      (s.wpc = .write data written ∨ s.wpc = .wait data written) → s.fifo.length < cap →
      WriterMove cap s { s with fifo := s.fifo ++ [data.getD written 0], wpc := .test data (written + 1) }

theorem takeByte_move {s s' : Sys} {size : Nat} {got : List UInt8} {e : Option Sys}
    (hpc : s.rpc = .read size got ∨ s.rpc = .wait size got) (hs : s.takeByte size got e = some s') :
    (s.fifo = [] ∧ e = some s') ∨ ReaderMove s s' := by
  unfold takeByte at hs
  split at hs
  · rename_i b rest hf
    split_ifs at hs with hb <;> cases hs
    · subst hb; exact .inr (.newline hpc hf)
    · exact .inr (.byte hpc hf hb)
  · exact .inl ⟨‹_›, hs⟩

theorem readerStep_move {s s' : Sys} (hs : readerStep s = some s') : ReaderMove s s' := by
  rcases s with ⟨fifo, rc, wc, rpc, rcalls, wpc, wcalls, returned, wlog⟩
  cases rpc with
  | idle =>
    cases rcalls <;> cases hs
    · exact .close rfl rfl
    · exact .start rfl rfl
  | test size got =>
    simp only [readerStep] at hs
    split_ifs at hs with h₁ h₂ <;> cases hs
    · exact .finish rfl (.inl h₁)
    · exact .finish rfl (.inr h₂)
    · exact .read rfl h₁ h₂
  | read size got =>
    rcases takeByte_move (.inl rfl) hs with ⟨hf, he⟩ | h
    · cases he; exact .block rfl hf
    · exact h
  | wait size got =>
    rcases takeByte_move (.inr rfl) hs with ⟨-, he⟩ | h
    · cases he
    · exact h
  | closed => cases hs

theorem writerStep_move {cap : Nat} {s s' : Sys} (hs : writerStep cap s = some s') :
    WriterMove cap s s' := by
  rcases s with ⟨fifo, rc, wc, rpc, rcalls, wpc, wcalls, returned, wlog⟩
  cases wpc with
  | idle =>
    cases wcalls <;> cases hs
    · exact .close rfl rfl
    · exact .start rfl rfl
  | test data written =>
    simp only [writerStep] at hs
    split_ifs at hs with h₁ h₂ <;> cases hs
    · exact .finish rfl (.inl h₁)
    · exact .finish rfl (.inr h₂)
    · exact .write rfl h₁ h₂
  | write data written =>
    simp only [writerStep, putByte] at hs
    split_ifs at hs with h₁ <;> cases hs
    · exact .put (.inl rfl) h₁
    · exact .block rfl h₁
  | wait data written =>
    simp only [writerStep, putByte] at hs
    split_ifs at hs with h₁
    cases hs
    exact .put (.inr rfl) h₁
  | closed => cases hs

/-! ## 3. The stream invariant -/

/-- The bytes the reader's current call has gathered. -/
def RPc.got : RPc → List UInt8
  | .test _ got | .read _ got | .wait _ got => got
  | _ => []

/-- The bytes the writer's current call has put into the buffer. -/
def WPc.sent : WPc → List UInt8
  | .test data written | .write data written | .wait data written => data.take written
  | _ => []

/-- The first `written` bytes of each `write_unixpipe` call so far, in order. -/
def sentBytes (s : Sys) : List UInt8 :=
  (s.wlog.map fun p => p.1.take p.2).flatten ++ s.wpc.sent

/-- The sizes the reader uses are positive. -/
def RPc.SizeOk : RPc → Prop
  | .test size _ | .read size _ | .wait size _ => 1 ≤ size
  | _ => True

/-- A byte the writer is about to write exists. -/
def WPc.InData : WPc → Prop
  | .write data written | .wait data written => written < data.length
  | _ => True

/-- **The invariant.** Returned bytes, then gathered bytes, then the buffer, are the bytes
written; and the counters stay in range. -/
structure Inv (cap : Nat) (s : Sys) : Prop where
  stream : s.returned.flatten ++ s.rpc.got ++ s.fifo = sentBytes s
  fifo_le : s.fifo.length ≤ cap
  sizes : ∀ n ∈ s.rcalls, 1 ≤ n
  size_ok : s.rpc.SizeOk
  in_data : s.wpc.InData

theorem inv_init (cap : Nat) (sizes : List Nat) (datas : List (List UInt8))
    (h : ∀ n ∈ sizes, 1 ≤ n) : Inv cap (init sizes datas) :=
  ⟨rfl, Nat.zero_le _, h, trivial, trivial⟩

@[simp] theorem got_interruptReader (pc : RPc) : (interruptReader pc).got = pc.got := by
  cases pc <;> rfl

@[simp] theorem sent_interruptWriter (pc : WPc) : (interruptWriter pc).sent = pc.sent := by
  cases pc <;> rfl

/-- The close of one end leaves what the other end's process holds as it was. -/
@[simp] theorem got_wake (c : Prop) [Decidable c] (pc : RPc) :
    (if c then pc else interruptReader pc).got = pc.got := by
  split_ifs <;> simp

@[simp] theorem sent_wake (c : Prop) [Decidable c] (pc : WPc) :
    (if c then pc else interruptWriter pc).sent = pc.sent := by
  split_ifs <;> simp

theorem sizeOk_wake (c : Prop) [Decidable c] {pc : RPc} (h : pc.SizeOk) :
    (if c then pc else interruptReader pc).SizeOk := by
  split_ifs
  · exact h
  · cases pc <;> exact h

theorem inData_wake (c : Prop) [Decidable c] {pc : WPc} (h : pc.InData) :
    (if c then pc else interruptWriter pc).InData := by
  split_ifs
  · exact h
  · cases pc <;> first | exact h | trivial

theorem take_succ_getD {data : List UInt8} {w : Nat} (h : w < data.length) :
    data.take (w + 1) = data.take w ++ [data.getD w 0] := by
  rw [List.take_succ, List.getElem?_eq_getElem h, List.getD_eq_getElem?_getD,
    List.getElem?_eq_getElem h]
  rfl

/-- The reader's call in `ring_buffer_read` holds what it has gathered, and a positive size. -/
theorem got_of_taking {pc : RPc} {size : Nat} {got : List UInt8}
    (hpc : pc = .read size got ∨ pc = .wait size got) (hok : pc.SizeOk) :
    pc.got = got ∧ 1 ≤ size := by
  rcases hpc with rfl | rfl <;> exact ⟨rfl, hok⟩

/-- A step of the reader keeps the invariant. -/
theorem Inv.reader {cap : Nat} {s s' : Sys} (h : Inv cap s) (hs : readerStep s = some s') :
    Inv cap s' := by
  obtain ⟨hst, hle, hsz, hok, hin⟩ := h
  cases readerStep_move hs with
  | start hpc hc =>
    exact ⟨by simpa [RPc.got, hpc] using hst, hle, fun n hn => hsz n (hc ▸ List.mem_cons_of_mem _ hn),
      hsz _ (hc ▸ List.mem_cons_self _ _), hin⟩
  | close hpc _ =>
    exact ⟨by simpa [closeReadPipe, sentBytes, RPc.got, hpc] using hst, hle, hsz, trivial,
      inData_wake _ hin⟩
  | finish hpc _ =>
    exact ⟨by simpa [finishRead, RPc.got, hpc] using hst, hle, hsz, trivial, hin⟩
  | read hpc _ _ =>
    rw [hpc] at hst hok
    exact ⟨hst, hle, hsz, hok, hin⟩
  | block hpc _ =>
    rw [hpc] at hst hok
    exact ⟨hst, hle, hsz, hok, hin⟩
  | newline hpc hf =>
    rw [(got_of_taking hpc hok).1, hf] at hst
    exact ⟨by simpa [finishRead, RPc.got] using hst, by simp [finishRead, hf] at hle ⊢; omega, hsz,
      trivial, hin⟩
  | byte hpc hf _ =>
    obtain ⟨hg, hsize⟩ := got_of_taking hpc hok
    rw [hg, hf] at hst
    exact ⟨by simpa [RPc.got] using hst, by simp [hf] at hle ⊢; omega, hsz, hsize, hin⟩

/-- The writer's call in `ring_buffer_write` has sent the bytes before `written`, and has a
byte left to send. -/
theorem sent_of_putting {pc : WPc} {data : List UInt8} {written : Nat}
    (hpc : pc = .write data written ∨ pc = .wait data written) (hin : pc.InData) :
    pc.sent = data.take written ∧ written < data.length := by
  rcases hpc with rfl | rfl <;> exact ⟨rfl, hin⟩

/-- A step of the writer keeps the invariant. -/
theorem Inv.writer {cap : Nat} {s s' : Sys} (h : Inv cap s) (hs : writerStep cap s = some s') :
    Inv cap s' := by
  obtain ⟨hst, hle, hsz, hok, hin⟩ := h
  cases writerStep_move hs with
  | start hpc _ =>
    exact ⟨by simpa [sentBytes, WPc.sent, hpc] using hst, hle, hsz, hok, trivial⟩
  | close hpc _ =>
    exact ⟨by simpa [closeWritePipe, sentBytes, WPc.sent, hpc] using hst, hle, hsz,
      sizeOk_wake _ hok, trivial⟩
  | finish hpc _ =>
    exact ⟨by simpa [finishWrite, sentBytes, WPc.sent, hpc] using hst, hle, hsz, hok, trivial⟩
  | write hpc h₁ _ =>
    exact ⟨by simpa [sentBytes, WPc.sent, hpc] using hst, hle, hsz, hok, by
      simp only [WPc.InData]; omega⟩
  | block hpc _ =>
    rw [hpc] at hin
    exact ⟨by simpa [sentBytes, WPc.sent, hpc] using hst, hle, hsz, hok, hin⟩
  | put hpc h₁ =>
    obtain ⟨hs', hlt⟩ := sent_of_putting hpc hin
    rw [sentBytes, hs'] at hst
    refine ⟨?_, by simp; omega, hsz, hok, trivial⟩
    simp only [sentBytes, WPc.sent, take_succ_getD hlt]
    rw [← List.append_assoc, hst, List.append_assoc]

/-- **Run lemma.** Every state an interleaving reaches from a start with positive read
sizes satisfies the invariant. -/
theorem inv_reach (cap : Nat) {sizes : List Nat} {datas : List (List UInt8)}
    (hsizes : ∀ n ∈ sizes, 1 ≤ n) {s : Sys} (hs : Reach cap (init sizes datas) s) : Inv cap s := by
  induction hs with
  | refl => exact inv_init cap sizes datas hsizes
  | tail _ hst ih => exact hst.elim ih.reader ih.writer

/-! ## 4. The byte stream -/

/-- The writer's steps leave the reader's log alone. -/
theorem writerStep_returned {cap : Nat} {s s' : Sys} (hs : writerStep cap s = some s') :
    s'.returned = s.returned := by
  cases writerStep_move hs <;> rfl

/-- A reader step whose call returns no byte starts from a closed write end and an empty
buffer, and leaves the reader between calls. -/
theorem readerStep_returns_nothing {s s' : Sys} (hok : s.rpc.SizeOk) (hs : readerStep s = some s')
    (hr : s'.returned = s.returned ++ [[]]) :
    s.writeClosed = true ∧ s.fifo = [] ∧ s'.rpc = .idle ∧ s'.fifo = [] := by
  cases readerStep_move hs with
  | finish hpc hg =>
    simp only [finishRead, List.append_cancel_left_eq, List.cons.injEq, and_true] at hr
    subst hr
    rcases hg with hg | hg
    · rw [hpc] at hok; simp only [RPc.SizeOk, List.length_nil] at hok hg; omega
    · exact ⟨hg.1, hg.2, rfl, hg.2⟩
  | newline => simp [finishRead] at hr
  | _ => simp [closeReadPipe] at hr

/-- **The pipe delivers the byte stream exactly.** In every state an interleaving reaches,
the bytes the reader's calls returned are a prefix of the bytes the writer's calls wrote;
and a read that returns no byte does so on a closed write end and an empty buffer, when
the two are equal. -/
theorem pipe_stream_exact (cap : Nat) {sizes : List Nat} {datas : List (List UInt8)}
    (hsizes : ∀ n ∈ sizes, 1 ≤ n) {s : Sys} (hs : Reach cap (init sizes datas) s) :
    s.returned.flatten <+: sentBytes s ∧
      ∀ s', Step cap s s' → s'.returned = s.returned ++ [[]] →
        s.writeClosed = true ∧ s.fifo = [] ∧ s'.returned.flatten = sentBytes s' := by
  have h := inv_reach cap hsizes hs
  refine ⟨⟨s.rpc.got ++ s.fifo, by rw [← List.append_assoc]; exact h.stream⟩, fun s' hst hr => ?_⟩
  rcases hst with hst | hst
  · obtain ⟨hw, hf, hpc, hf'⟩ := readerStep_returns_nothing h.size_ok hst hr
    have h' := (h.reader hst).stream
    rw [hpc, hf'] at h'
    exact ⟨hw, hf, by simpa [RPc.got] using h'⟩
  · rw [writerStep_returned hst] at hr
    exact absurd (congrArg List.length hr) (by simp)

theorem pipe_stream_exact_one_byte :
    (∀ n ∈ [1], 1 ≤ n) ∧
      Reach unixPipeBuffer (init [1] [[97]]) ⟨[97], false, false, .idle, [1], .test [97] 1, [], [], []⟩ ∧
      ([] : List (List UInt8)).flatten <+: sentBytes ⟨[97], false, false, .idle, [1], .test [97] 1, [], [], []⟩ ∧
      ∀ s', Step unixPipeBuffer ⟨[97], false, false, .idle, [1], .test [97] 1, [], [], []⟩ s' →
        s'.returned = [] ++ [[]] →
        false = true ∧ [(97 : UInt8)] = [] ∧ s'.returned.flatten = sentBytes s' :=
  have hr : Reach unixPipeBuffer (init [1] [[97]]) ⟨[97], false, false, .idle, [1], .test [97] 1, [], [], []⟩ :=
    .tail (.tail (.tail .refl (.inr rfl)) (.inr rfl)) (.inr rfl)
  ⟨by decide, hr, pipe_stream_exact unixPipeBuffer (by decide) hr⟩

/-! ## 5. A read never returns more than it was asked for -/

/-- The reader's call has gathered at most `size` bytes, and fewer when it is about to take
one more. -/
def RPc.Bounded : RPc → Prop
  | .test size got => got.length ≤ size
  | .read size got | .wait size got => got.length < size
  | _ => True

theorem bounded_reader {s s' : Sys} (h : s.rpc.Bounded) (hs : readerStep s = some s') :
    s'.rpc.Bounded := by
  cases readerStep_move hs with
  | start => exact Nat.zero_le _
  | read _ h₁ _ => exact Nat.lt_of_not_le h₁
  | block hpc _ => rw [hpc] at h; exact h
  | byte hpc _ _ =>
    show (_ ++ [_]).length ≤ _
    rcases hpc with hpc | hpc <;> rw [hpc] at h <;> simpa using h
  | _ => trivial

theorem bounded_interruptReader {pc : RPc} (h : pc.Bounded) : (interruptReader pc).Bounded := by
  cases pc with
  | wait => exact Nat.le_of_lt h
  | _ => exact h

theorem bounded_writer {cap : Nat} {s s' : Sys} (h : s.rpc.Bounded)
    (hs : writerStep cap s = some s') : s'.rpc.Bounded := by
  cases writerStep_move hs with
  | close =>
    simp only [closeWritePipe]
    split_ifs
    · exact h
    · exact bounded_interruptReader h
  | _ => exact h

theorem bounded_reach (cap : Nat) {sizes : List Nat} {datas : List (List UInt8)} {s : Sys}
    (hs : Reach cap (init sizes datas) s) : s.rpc.Bounded := by
  induction hs with
  | refl => trivial
  | tail _ hst ih => exact hst.elim (bounded_reader ih) (bounded_writer ih)

/-- **`read_unixpipe` never returns more than `size` bytes.** In every interleaving, a step
that ends a read call ends the reader's current call, made with some `size`, and the bytes
it returns are at most `size`: the call never writes past the caller's buffer. -/
theorem read_returns_at_most_size (cap : Nat) {sizes : List Nat} {datas : List (List UInt8)}
    {s s' : Sys} (hs : Reach cap (init sizes datas) s) (hst : Step cap s s') {c : List UInt8}
    (hr : s'.returned = s.returned ++ [c]) :
    ∃ size got, (s.rpc = .test size got ∨ s.rpc = .read size got ∨ s.rpc = .wait size got) ∧
      c.length ≤ size := by
  have hb := bounded_reach cap hs
  rcases hst with hst | hst
  · cases readerStep_move hst with
    | finish hpc _ =>
      simp only [finishRead, List.append_cancel_left_eq, List.cons.injEq, and_true] at hr
      subst hr
      rw [hpc] at hb
      exact ⟨_, _, .inl hpc, hb⟩
    | newline hpc _ =>
      simp only [finishRead, List.append_cancel_left_eq, List.cons.injEq, and_true] at hr
      subst hr
      rcases hpc with hpc | hpc <;> rw [hpc] at hb
      · exact ⟨_, _, .inr (.inl hpc), by simpa using hb⟩
      · exact ⟨_, _, .inr (.inr hpc), by simpa using hb⟩
    | _ => simp [closeReadPipe] at hr
  · rw [writerStep_returned hst] at hr
    simp at hr

theorem read_returns_at_most_size_one_byte :
    let s : Sys := ⟨[], false, false, .test 1 [97], [], .test [97] 1, [], [], []⟩
    let s' : Sys := ⟨[], false, false, .idle, [], .test [97] 1, [], [[97]], []⟩
    (Reach unixPipeBuffer (init [1] [[97]]) s ∧ Step unixPipeBuffer s s' ∧
      s'.returned = s.returned ++ [[97]]) ∧
      ∃ size got, (s.rpc = .test size got ∨ s.rpc = .read size got ∨ s.rpc = .wait size got) ∧
        [(97 : UInt8)].length ≤ size :=
  have hr : Reach unixPipeBuffer (init [1] [[97]])
      ⟨[], false, false, .test 1 [97], [], .test [97] 1, [], [], []⟩ :=
    .tail (.tail (.tail (.tail (.tail (.tail .refl (.inr rfl)) (.inr rfl)) (.inr rfl)) (.inl rfl))
      (.inl rfl)) (.inl rfl)
  have hst : Step unixPipeBuffer ⟨[], false, false, .test 1 [97], [], .test [97] 1, [], [], []⟩
      ⟨[], false, false, .idle, [], .test [97] 1, [], [[97]], []⟩ := .inl rfl
  ⟨⟨hr, hst, rfl⟩, read_returns_at_most_size unixPipeBuffer hr hst rfl⟩

end Pipe
end Toaru
