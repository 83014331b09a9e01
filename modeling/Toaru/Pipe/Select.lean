import Toaru.Pipe.Model

/-!
# `select` on the read end, and what a ready read end promises

`check_pipe`, the read end's `selectcheck`, reports the pipe ready when the buffer holds a
byte or the write end is closed. `read_unixpipe`, though, does not return with what is
there: it loops, one `ring_buffer_read` at a time, until it has `size` bytes, has read a
newline, or finds the write end closed and the buffer empty. So a ready pipe does not mean
a read that returns without the writer: a read of more bytes than are buffered, none of
them a newline, on an open write end, takes every buffered byte and then blocks
(`read_blocks_after_buffer`, and on a reachable state `select_ready_read_blocks`).

What readiness does not give, the buffer's content does: the reader's own steps take the
call to its return, every `ring_buffer_read` on the way finding a byte, exactly when the
write end is closed, or `size` bytes are buffered, or a newline is among the first `size`
of them (`read_completes_without_waiting`). Otherwise the reader stays in a starved state
(`Starved`) at every step that does not block, so it never returns by itself.
-/

set_option autoImplicit false

namespace Toaru
namespace Pipe

open Sys

/-- The reader is blocked in `ring_buffer_read`. -/
def RPc.Waiting : RPc → Prop
  | .wait _ _ => True
  | _ => False

/-- The reader alone steps from `s` to `s'`, and after no step is it blocked in
`ring_buffer_read`: every byte it asks for is in the buffer. -/
inductive ReadsThrough : Sys → Sys → Prop
  | refl (s : Sys) : ReadsThrough s s
  | step {s s' s'' : Sys} : readerStep s = some s' → ¬ s'.rpc.Waiting → ReadsThrough s' s'' →
      ReadsThrough s s''

/-- The reader alone steps from `s` to `s'`. -/
def ReaderRun : Sys → Sys → Prop := Relation.ReflTransGen fun s s' => readerStep s = some s'

theorem ReaderRun.single {s s' : Sys} (h : readerStep s = some s') : ReaderRun s s' :=
  Relation.ReflTransGen.single h

theorem ReaderRun.head {s s' s'' : Sys} (h : readerStep s = some s') (hr : ReaderRun s' s'') :
    ReaderRun s s'' :=
  Relation.ReflTransGen.head h hr

/-! ## 1. The read loop on a buffer it does not have to wait for -/

/-- A newline among the first `m` bytes after a byte that is not one is among the first
`m - 1` of the rest. -/
theorem mem_take_of_ne {b : UInt8} {rest : List UInt8} {m : Nat} (hb : b ≠ newline)
    (h : newline ∈ (b :: rest).take m) : newline ∈ rest.take (m - 1) := by
  cases m with
  | zero => simp at h
  | succ m =>
    rw [List.take_succ_cons, List.mem_cons] at h
    exact h.resolve_left (Ne.symm hb)

/-- From the head of the loop, with the write end closed, or enough bytes buffered, or a
newline among those the call still wants, the reader returns without blocking. -/
theorem readsThrough_test :
    ∀ (q : List UInt8) (s : Sys) (size : Nat) (got : List UInt8), s.fifo = q →
      s.rpc = .test size got →
      (s.writeClosed = true ∨ size ≤ got.length + q.length ∨ newline ∈ q.take (size - got.length)) →
      ∃ s' got', ReadsThrough s s' ∧ s'.rpc = .idle ∧ s'.returned = s.returned ++ [got']
  | q, s, size, got, hq, hpc, hcond => by
    by_cases h₁ : size ≤ got.length
    · exact ⟨s.finishRead got, got, .step (by simp only [readerStep, hpc, if_pos h₁]) (by exact id)
        (.refl _), rfl, rfl⟩
    by_cases h₂ : s.writeClosed = true ∧ s.fifo = []
    · exact ⟨s.finishRead got, got, .step (by simp only [readerStep, hpc, if_neg h₁, if_pos h₂])
        (by exact id) (.refl _), rfl, rfl⟩
    have hread : readerStep s = some { s with rpc := .read size got } := by
      simp only [readerStep, hpc, if_neg h₁, if_neg h₂]
    rcases q with _ | ⟨b, rest⟩
    · exfalso
      rcases hcond with hc | hc | hc
      · exact h₂ ⟨hc, hq⟩
      · simp only [List.length_nil, Nat.add_zero] at hc; exact h₁ hc
      · simp at hc
    by_cases hb : b = newline
    · refine ⟨{ s with fifo := rest }.finishRead (got ++ [b]), got ++ [b],
        .step hread (by exact id) (.step ?_ (by exact id) (.refl _)), rfl, rfl⟩
      simp only [readerStep, takeByte, hq, if_pos hb, finishRead]
    · have hnext : readerStep { s with rpc := .read size got } =
          some { s with fifo := rest, rpc := .test size (got ++ [b]) } := by
        simp only [readerStep, takeByte, hq, if_neg hb]
      obtain ⟨s', got', hrun, hidle, hret⟩ := readsThrough_test rest
        { s with fifo := rest, rpc := .test size (got ++ [b]) } size (got ++ [b]) rfl rfl (by
          rcases hcond with hc | hc | hc
          · exact .inl hc
          · simp only [List.length_cons, List.length_append, List.length_singleton] at hc ⊢
            exact .inr (.inl (by omega))
          · refine .inr (.inr ?_)
            rw [List.length_append, List.length_singleton, ← Nat.sub_sub]
            exact mem_take_of_ne hb hc)
      exact ⟨s', got', .step hread (by exact id) (.step hnext (by exact id) hrun), hidle, hret⟩

/-! ## 2. The read loop on a buffer it has to wait for -/

/-- From the head of the loop on an open write end, with fewer bytes buffered than the
call still wants and no newline among them, the reader takes them all and blocks. -/
theorem readerRun_blocks :
    ∀ (q : List UInt8) (s : Sys) (size : Nat) (got : List UInt8), s.fifo = q →
      s.rpc = .test size got → s.writeClosed = false → got.length + q.length < size →
      newline ∉ q →
      ∃ s', ReaderRun s s' ∧ s'.rpc = .wait size (got ++ q) ∧ readerStep s' = none
  | q, s, size, got, hq, hpc, hopen, hshort, hnl => by
    have h₁ : ¬ size ≤ got.length := by omega
    have hread : readerStep s = some { s with rpc := .read size got } := by
      simp only [readerStep, hpc, if_neg h₁, hopen, Bool.false_eq_true, false_and, if_false]
    rcases q with _ | ⟨b, rest⟩
    · refine ⟨{ s with rpc := .wait size got }, .head hread (.single ?_), by rw [List.append_nil], ?_⟩
      · simp only [readerStep, takeByte, hq]
      · simp only [readerStep, takeByte, hq]
    · have hb : b ≠ newline := fun h => hnl (h ▸ List.mem_cons_self _ _)
      have hnext : readerStep { s with rpc := .read size got } =
          some { s with fifo := rest, rpc := .test size (got ++ [b]) } := by
        simp only [readerStep, takeByte, hq, if_neg hb]
      obtain ⟨s', hrun, hw, hn⟩ := readerRun_blocks rest
        { s with fifo := rest, rpc := .test size (got ++ [b]) } size (got ++ [b])
        rfl rfl hopen (by
          simp only [List.length_cons, List.length_append, List.length_nil] at hshort ⊢; omega)
        (fun h => hnl (List.mem_cons_of_mem _ h))
      refine ⟨s', .head hread (.head hnext hrun), ?_, hn⟩
      rw [hw, List.append_assoc, List.singleton_append]

/-- Mid-call on an open write end, at the head of the loop or about to call
`ring_buffer_read`, with fewer bytes buffered than the call still wants and no newline
among them. -/
def Starved (s : Sys) : Prop :=
  s.writeClosed = false ∧ newline ∉ s.fifo ∧
    ∃ size got, (s.rpc = .test size got ∨ s.rpc = .read size got) ∧ got.length + s.fifo.length < size

/-- A reader step from a starved state that does not block leaves it starved. -/
theorem Starved.step {s s' : Sys} (h : Starved s) (hs : readerStep s = some s')
    (hw : ¬ s'.rpc.Waiting) : Starved s' := by
  obtain ⟨hopen, hnl, size, got, hpc | hpc, hlt⟩ := h
  · have h₁ : ¬ size ≤ got.length := by omega
    simp only [readerStep, hpc, if_neg h₁, hopen, Bool.false_eq_true, false_and, if_false,
      Option.some_inj] at hs
    exact hs ▸ ⟨rfl, hnl, size, got, .inr rfl, hlt⟩
  · rcases hq : s.fifo with _ | ⟨b, rest⟩
    · simp only [readerStep, hpc, takeByte, hq, Option.some_inj] at hs
      exact absurd (hs ▸ trivial) hw
    · have hb : b ≠ newline := fun e => hnl (hq ▸ e ▸ List.mem_cons_self _ _)
      simp only [readerStep, hpc, takeByte, hq, if_neg hb, Option.some_inj] at hs
      rw [hq] at hnl hlt
      refine hs ▸ ⟨hopen, fun e => hnl (List.mem_cons_of_mem _ e), size, got ++ [b], .inl rfl, ?_⟩
      simp only [List.length_append, List.length_singleton, List.length_cons, List.length_nil] at hlt ⊢
      omega

theorem Starved.readsThrough {s s' : Sys} (hr : ReadsThrough s s') (h : Starved s) : Starved s' := by
  induction hr with
  | refl => exact h
  | step hs hw _ ih => exact ih (h.step hs hw)

theorem Starved.not_idle {s : Sys} (h : Starved s) : s.rpc ≠ .idle := by
  obtain ⟨-, -, size, got, hpc | hpc, -⟩ := h <;> rw [hpc] <;> nofun

/-- **A read completes without waiting exactly when the buffer's content serves it.** A
reader about to call `read_unixpipe` returns by its own steps, every `ring_buffer_read` it
makes finding a byte, exactly when the write end is closed, or `size` bytes are buffered,
or a newline is among the first `size` buffered bytes; otherwise it takes every buffered
byte and then blocks in `ring_buffer_read`. -/
theorem read_completes_without_waiting {s : Sys} {size : Nat} {rest : List Nat}
    (hidle : s.rpc = .idle) (hcall : s.rcalls = size :: rest) :
    ((∃ s' got, ReadsThrough s s' ∧ s'.rpc = .idle ∧ s'.returned = s.returned ++ [got]) ↔
        (s.writeClosed = true ∨ size ≤ s.fifo.length ∨ newline ∈ s.fifo.take size)) ∧
      (s.writeClosed = false → s.fifo.length < size → newline ∉ s.fifo →
        ∃ s', ReaderRun s s' ∧ s'.rpc = .wait size s.fifo ∧ readerStep s' = none) := by
  have hstart : readerStep s = some { s with rcalls := rest, rpc := .test size [] } := by
    simp only [readerStep, hidle, hcall]
  refine ⟨⟨fun ⟨s', got, hrun, hidle', hret⟩ => ?_, fun hcond => ?_⟩, fun hopen hshort hnl => ?_⟩
  · by_contra hc
    simp only [not_or, Bool.not_eq_true, not_le] at hc
    obtain ⟨hopen, hshort, hnl⟩ := hc
    rw [List.take_of_length_le hshort.le] at hnl
    cases hrun with
    | refl => simp at hret
    | step h₁ hw hrun' =>
      rw [hstart, Option.some_inj] at h₁
      subst h₁
      exact (Starved.readsThrough hrun' ⟨hopen, hnl, size, [], .inl rfl, by simpa using hshort⟩).not_idle hidle'
  · obtain ⟨s', got, hrun, h⟩ := readsThrough_test s.fifo { s with rcalls := rest, rpc := .test size [] }
      size [] rfl rfl (by simpa using hcond)
    exact ⟨s', got, .step hstart (by exact id) hrun, h⟩
  · obtain ⟨s', hrun, hw, hn⟩ := readerRun_blocks s.fifo { s with rcalls := rest, rpc := .test size [] }
      size [] rfl rfl hopen (by simpa using hshort) hnl
    exact ⟨s', .head hstart hrun, by rw [hw, List.nil_append], hn⟩

theorem read_completes_without_waiting_newline :
    let s : Sys := ⟨[97, 10], false, false, .idle, [5], .idle, [], [], []⟩
    (s.rpc = .idle ∧ s.rcalls = 5 :: []) ∧
      ((∃ s' got, ReadsThrough s s' ∧ s'.rpc = .idle ∧ s'.returned = s.returned ++ [got]) ↔
          (s.writeClosed = true ∨ 5 ≤ s.fifo.length ∨ newline ∈ s.fifo.take 5)) ∧
        (s.writeClosed = false → s.fifo.length < 5 → newline ∉ s.fifo →
          ∃ s', ReaderRun s s' ∧ s'.rpc = .wait 5 s.fifo ∧ readerStep s' = none) :=
  ⟨⟨rfl, rfl⟩, read_completes_without_waiting rfl rfl⟩

/-- **A ready pipe does not make a read return.** A reader about to call `read_unixpipe`
on an open write end, with fewer bytes buffered than it asks for and no newline among
them, takes them all and then blocks in `ring_buffer_read`, whatever `check_pipe`
reported. -/
theorem read_blocks_after_buffer {s : Sys} {size : Nat} {rest : List Nat}
    (hidle : s.rpc = .idle) (hcall : s.rcalls = size :: rest) (hopen : s.writeClosed = false)
    (hshort : s.fifo.length < size) (hnl : newline ∉ s.fifo) :
    ∃ s', ReaderRun s s' ∧ s'.rpc = .wait size s.fifo ∧ readerStep s' = none := by
  obtain ⟨s', hrun, hw, hn⟩ := readerRun_blocks s.fifo { s with rcalls := rest, rpc := .test size [] }
    size [] rfl rfl hopen (by simpa using hshort) hnl
  exact ⟨s', .head (by simp only [readerStep, hidle, hcall]) hrun, by rw [hw, List.nil_append], hn⟩

theorem read_blocks_after_buffer_one_byte :
    let s : Sys := ⟨[97], false, false, .idle, [2], .idle, [], [], []⟩
    (s.rpc = .idle ∧ s.rcalls = 2 :: [] ∧ s.writeClosed = false ∧ s.fifo.length < 2 ∧
      newline ∉ s.fifo) ∧
      ∃ s', ReaderRun s s' ∧ s'.rpc = .wait 2 s.fifo ∧ readerStep s' = none :=
  ⟨⟨rfl, rfl, rfl, by decide, by decide⟩, read_blocks_after_buffer rfl rfl rfl (by decide) (by decide)⟩

/-- **Ready is not enough.** A reachable state in which `check_pipe` reports the read end
ready, and yet the reader's call `read_unixpipe(…, 2, …)` waits for the writer: the writer
has written the one byte `a` and returned, the reader takes the `a`, and then blocks in
`ring_buffer_read` on the empty buffer. -/
theorem select_ready_read_blocks :
    ∃ s, Reach unixPipeBuffer (init [2] [[97]]) s ∧ checkPipe s = 0 ∧ s.rpc = .idle ∧
      s.rcalls = [2] ∧ ∃ s', ReaderRun s s' ∧ s'.rpc.Waiting ∧ readerStep s' = none := by
  refine ⟨⟨[97], false, false, .idle, [2], .idle, [], [], [([97], 1)]⟩,
    .tail (.tail (.tail (.tail .refl (.inr rfl)) (.inr rfl)) (.inr rfl)) (.inr rfl), rfl, rfl, rfl, ?_⟩
  obtain ⟨s', hrun, hw, hn⟩ := readerRun_blocks [97]
    ⟨[97], false, false, .test 2 [], [], .idle, [], [], [([97], 1)]⟩ 2 [] rfl rfl rfl (by decide)
    (by decide)
  exact ⟨s', .head rfl hrun, by rw [hw]; trivial, hn⟩

end Pipe
end Toaru
