import Toaru.Ata.Registers

/-!
# Status polling, and the legacy driver's sector calls around it

Between its register writes a sector call waits on the drive: `ata_status_wait` reads
`io_base + ATA_REG_STATUS` until `BSY` clears, at most `timeout + 1` times when
`timeout > 0` and with no bound otherwise, and `ata_wait(dev, 1)` reads it once more and
reports an error if `ERR` or `DF` is set or `DRQ` is clear. The drive's side is a
`StatusStream`: what each read of the status register returns, in order.

The legacy `ata_device_read_sector` (`part_001`) retries its command while
`ata_wait(dev, 1)` reports an error and gives up at the fifth error, returning without a
word to its caller and with `buf` as it was. The port-write model of `Registers.lean` takes
the number of errors the drive reports as a parameter; here the number comes from the
status stream. Whenever `BSY` clears again and again, the polled read returns, its port
writes are the port-write model's for some number of errors, and `buf` holds the sector
exactly when fewer than five attempts failed (`legacy_read_sector_polled`); the polled
write returns with the port-write model's writes. A drive that stays busy hangs the read
in its first `ata_wait` (`legacy_read_sector_busy_hangs`), since `ata_wait` passes no
timeout.

Left out: the reads of `ATA_REG_ALTSTATUS` by `ata_io_wait`, which return the status
without changing the drive's state, so the stream does not count them; the spinlock; the
`debug_print` calls.
-/

set_option autoImplicit false

namespace Toaru
namespace Ata

/-! ## 1. The status register -/

/-- `ATA_SR_BSY`, `ATA_SR_DF`, `ATA_SR_DRQ`, `ATA_SR_ERR`: the standard status bits
(`kernel/ata.h`, not among the sources). -/
def ataSrBsy : UInt8 := 0x80
def ataSrDf : UInt8 := 0x20
def ataSrDrq : UInt8 := 0x08
def ataSrErr : UInt8 := 0x01

/-- What the drive answers to the reads of its status register: `st n` is the value of the
`n`-th read. -/
abbrev StatusStream := Nat → UInt8

/-- The loop of `ata_status_wait(dev, timeout)` for `timeout > 0`, from read `pos` with
`left = timeout - i`: a read, and another while it has `BSY` set and `i < timeout`. The
position after the last read, and what it returned. -/
def statusWaitBounded (st : StatusStream) : Nat → Nat → Nat × UInt8
  | 0, pos => (pos + 1, st pos)
  | left + 1, pos => if st pos &&& ataSrBsy ≠ 0 then statusWaitBounded st left (pos + 1) else (pos + 1, st pos)

/-- The loop of `ata_status_wait(dev, timeout)` for `timeout ≤ 0`: reads while `BSY` is
set, `none` if `fuel` reads do not end it. -/
def statusWaitForever (st : StatusStream) : Nat → Nat → Option (Nat × UInt8)
  | 0, _ => none
  | fuel + 1, pos => if st pos &&& ataSrBsy ≠ 0 then statusWaitForever st fuel (pos + 1) else some (pos + 1, st pos)

/-- `ata_status_wait(dev, timeout)`. -/
def ataStatusWait (st : StatusStream) (timeout : Int) (fuel pos : Nat) : Option (Nat × UInt8) :=
  if timeout > 0 then some (statusWaitBounded st timeout.toNat pos) else statusWaitForever st fuel pos

/-- The test of `ata_wait(dev, 1)` on the status it reads after the wait. -/
def advancedError (status : UInt8) : Nat :=
  if status &&& ataSrErr ≠ 0 then 1 else if status &&& ataSrDf ≠ 0 then 1 else if status &&& ataSrDrq = 0 then 1 else 0

/-- `ata_wait(dev, advanced)`: `ata_status_wait(dev, -1)`, then with `advanced` one more
read and its test. The position after, and the result. -/
def ataWait (st : StatusStream) (advanced : Bool) (fuel pos : Nat) : Option (Nat × Nat) :=
  (ataStatusWait st (-1) fuel pos).map fun r => if advanced then (r.1 + 1, advancedError (st r.1)) else (r.1, 0)

/-- `n` calls of `ata_wait(dev, 0)` in a row. -/
def ataWaits (st : StatusStream) (fuel : Nat) : Nat → Nat → Option Nat
  | 0, pos => some pos
  | n + 1, pos => (ataWait st false fuel pos).bind fun r => ataWaits st fuel n r.1

/-! ## 2. The polls end -/

/-- More fuel does not change a wait that ended. -/
theorem statusWaitForever_mono (st : StatusStream) {r : Nat × UInt8} :
    ∀ {fuel fuel' : Nat} {pos : Nat}, statusWaitForever st fuel pos = some r → fuel ≤ fuel' →
      statusWaitForever st fuel' pos = some r
  | 0, _, _, h, _ => absurd h nofun
  | fuel + 1, fuel' + 1, pos, h, hle => by
    rw [statusWaitForever] at h ⊢
    split_ifs at h ⊢
    · exact statusWaitForever_mono st h (by omega)
    · exact h
  | _ + 1, 0, _, _, hle => absurd hle (by omega)

/-- Without a timeout, the wait ends by the first read from `pos + k` on with `BSY` clear. -/
theorem statusWaitForever_of_clear (st : StatusStream) :
    ∀ k pos, st (pos + k) &&& ataSrBsy = 0 → ∃ r, statusWaitForever st (k + 1) pos = some r
  | 0, pos, hc => ⟨_, by rw [statusWaitForever, if_neg (not_not.2 (Nat.add_zero pos ▸ hc))]⟩
  | k + 1, pos, hc => by
    rw [statusWaitForever]
    split_ifs
    · exact statusWaitForever_of_clear st k (pos + 1) (by rwa [Nat.add_right_comm])
    · exact ⟨_, rfl⟩

/-- A drive whose status has `BSY` set at every read from `pos` on keeps the wait going. -/
theorem statusWaitForever_of_busy (st : StatusStream) :
    ∀ fuel pos, (∀ n, pos ≤ n → st n &&& ataSrBsy ≠ 0) → statusWaitForever st fuel pos = none
  | 0, _, _ => rfl
  | fuel + 1, pos, h => by
    rw [statusWaitForever, if_pos (h pos le_rfl)]
    exact statusWaitForever_of_busy st fuel (pos + 1) fun n hn => h n (by omega)

/-- A run that ends with `a` at every fuel from some bound on. -/
def Settles {α : Type} (run : Nat → Option α) (a : α) : Prop := ∃ F, ∀ fuel, F ≤ fuel → run fuel = some a

/-! ## 3. A drive that clears `BSY` again and again

After every read of the status register, a later one has `BSY` clear. -/

section Clears

variable {st : StatusStream} (hclear : ∀ n, ∃ m, n ≤ m ∧ st m &&& ataSrBsy = 0)
include hclear

/-- Each `ata_wait` ends. -/
theorem ataWait_settles (advanced : Bool) (pos : Nat) : ∃ r, Settles (fun fuel => ataWait st advanced fuel pos) r := by
  obtain ⟨m, hm, hc⟩ := hclear pos
  obtain ⟨r, hr⟩ := statusWaitForever_of_clear st (m - pos) pos (by rwa [Nat.add_sub_cancel' hm])
  exact ⟨_, _, fun fuel hf => by
    dsimp only
    rw [ataWait, ataStatusWait, if_neg (by decide), statusWaitForever_mono st hr hf, Option.map_some']⟩

theorem ataWaits_settles : ∀ (n pos : Nat), ∃ p, Settles (fun fuel => ataWaits st fuel n pos) p
  | 0, pos => ⟨pos, 0, fun _ _ => rfl⟩
  | n + 1, pos => by
    obtain ⟨r, F₁, h₁⟩ := ataWait_settles hclear false pos
    obtain ⟨p, F₂, h₂⟩ := ataWaits_settles n r.1
    exact ⟨p, max F₁ F₂, fun fuel hf => by
      simp only [ataWaits, h₁ fuel (le_of_max_le_left hf), Option.some_bind, h₂ fuel (le_of_max_le_right hf)]⟩

end Clears

end Ata

/-! ## 4. The legacy driver's sector calls -/

namespace Legacy

open Ata

section Polled

variable (regs : RegMap) (dev : AtaDevice) (lba : Nat) (st : StatusStream) (sector buf : Mem) (fuel : Nat)

/-- The attempts of the legacy `ata_device_read_sector` with its polls, from read `pos` of
the status register, `left = 4 - errors` being the errors it still tolerates. An attempt
writes the control, select and address registers and `READ PIO` (`readAttempt`) around an
`ata_wait(dev, 0)`, then calls `ata_wait(dev, 1)`. On an error with none left to tolerate
it returns with `buf` as it was, on another error it goes again, and on success it reads
the sector's 256 words into `buf` (`inportsm`) and calls `ata_wait(dev, 0)` once more. The
port writes, the buffer and the position in the status stream. -/
def readSectorLoop : Nat → Nat → Option (List PortWrite × Mem × Nat)
  | left, pos =>
    match ataWait st false fuel pos with
    | none => none
    | some (pos, _) =>
      match ataWait st true fuel pos with
      | none => none
      | some (pos, r) =>
        if r ≠ 0 then
          match left with
          | 0 => some (readAttempt regs dev lba, buf, pos)
          | left + 1 => (readSectorLoop left pos).map fun w => (readAttempt regs dev lba ++ w.1, w.2)
        else (ataWait st false fuel pos).map fun p => (readAttempt regs dev lba, memcpy buf 0 sector 0 512, p.1)

/-- The legacy `ata_device_read_sector(dev, lba, buf)` with its polls: `errors = 0`. -/
def ataDeviceReadSectorPolled (pos : Nat) : Option (List PortWrite × Mem × Nat) :=
  readSectorLoop regs dev lba st sector buf fuel 4 pos

/-- The legacy `ata_device_write_sector(dev, lba, buf)` with its polls: an `ata_wait(dev, 0)`
after the control write, after the select, after `WRITE PIO` and after `CACHE FLUSH`. What
it writes does not depend on what the drive answers. -/
def ataDeviceWriteSectorPolled (pos : Nat) : Option (List PortWrite × Nat) :=
  (ataWaits st fuel 4 pos).map fun p => (ataDeviceWriteSector regs dev lba buf, p)

end Polled

/-! ## 5. The polled calls refine the port-write model -/

section Refines

variable {regs : RegMap} {dev : AtaDevice} {lba : Nat} {st : StatusStream} {sector buf : Mem}

/-- The loop from `left` ends at `k` errors: the first `min (k + 1) (left + 1)` attempts'
writes, and the sector in `buf` when an attempt succeeded. -/
def LoopEnds (regs : RegMap) (dev : AtaDevice) (lba : Nat) (st : StatusStream) (sector buf : Mem)
    (left pos : Nat) : Prop :=
  ∃ k ≤ left + 1, ∃ p, Settles (fun fuel => readSectorLoop regs dev lba st sector buf fuel left pos)
    ((List.replicate (min (k + 1) (left + 1)) (readAttempt regs dev lba)).flatten,
      if k ≤ left then memcpy buf 0 sector 0 512 else buf, p)

variable (hclear : ∀ n, ∃ m, n ≤ m ∧ st m &&& ataSrBsy = 0)
include hclear

/-- One attempt: its two waits end, and it succeeds, gives up, or hands over to the loop
from `left - 1`. -/
theorem LoopEnds.step (left pos : Nat)
    (hnext : ∀ left', left = left' + 1 → ∀ pos, LoopEnds regs dev lba st sector buf left' pos) :
    LoopEnds regs dev lba st sector buf left pos := by
  obtain ⟨⟨p₁, e₁⟩, F₁, h₁⟩ := ataWait_settles hclear false pos
  obtain ⟨⟨p₂, r⟩, F₂, h₂⟩ := ataWait_settles hclear true p₁
  dsimp only at h₁ h₂
  have hpolls : ∀ fuel, max F₁ F₂ ≤ fuel → readSectorLoop regs dev lba st sector buf fuel left pos =
      if r ≠ 0 then
        match left with
        | 0 => some (readAttempt regs dev lba, buf, p₂)
        | left + 1 => (readSectorLoop regs dev lba st sector buf fuel left p₂).map
            fun w => (readAttempt regs dev lba ++ w.1, w.2)
      else (ataWait st false fuel p₂).map fun p => (readAttempt regs dev lba, memcpy buf 0 sector 0 512, p.1) :=
    fun fuel hf => by
      rw [readSectorLoop, h₁ fuel (le_of_max_le_left hf)]
      dsimp only
      rw [h₂ fuel (le_of_max_le_right hf)]
  by_cases hr : r = 0
  · obtain ⟨⟨p₃, e₃⟩, F₃, h₃⟩ := ataWait_settles hclear false p₂
    refine ⟨0, by omega, p₃, max (max F₁ F₂) F₃, fun fuel hf => ?_⟩
    dsimp only at h₃ ⊢
    rw [hpolls fuel (le_of_max_le_left hf), if_neg (not_not.2 hr), h₃ fuel (le_of_max_le_right hf)]
    simp
  · cases left with
    | zero =>
      refine ⟨1, le_rfl, p₂, max F₁ F₂, fun fuel hf => ?_⟩
      dsimp only
      rw [hpolls fuel hf, if_pos hr]
      simp
    | succ left =>
      obtain ⟨k, hk, p, F₃, h₃⟩ := hnext left rfl p₂
      refine ⟨k + 1, by omega, p, max (max F₁ F₂) F₃, fun fuel hf => ?_⟩
      dsimp only at h₃ ⊢
      rw [hpolls fuel (le_of_max_le_left hf), if_pos hr]
      simp only [h₃ fuel (le_of_max_le_right hf), Option.map_some', Nat.add_le_add_iff_right]
      rw [show min (k + 1 + 1) (left + 1 + 1) = min (k + 1) (left + 1) + 1 by omega, List.replicate_succ,
        List.flatten_cons]

theorem loopEnds (left pos : Nat) : LoopEnds regs dev lba st sector buf left pos := by
  induction left generalizing pos with
  | zero => exact LoopEnds.step hclear 0 pos fun _ h => absurd h (by omega)
  | succ left ih => exact LoopEnds.step hclear (left + 1) pos fun _ h => (Nat.succ_injective h) ▸ ih

end Refines

/-- For every drive that clears `BSY` again and again, the legacy `ata_device_read_sector`
returns, with the port writes of the port-write model for some number of errors, and with
the sector in `buf` exactly when fewer than five attempts failed; the legacy
`ata_device_write_sector` returns with the port-write model's writes. -/
theorem legacy_read_sector_polled (regs : RegMap) (dev : AtaDevice) (lba : Nat) (st : StatusStream)
    (sector buf : Mem) (pos : Nat) (hclear : ∀ n, ∃ m, n ≤ m ∧ st m &&& ataSrBsy = 0) :
    (∃ failures p, Settles (fun fuel => ataDeviceReadSectorPolled regs dev lba st sector buf fuel pos)
        (ataDeviceReadSector regs dev lba failures, if failures < 5 then memcpy buf 0 sector 0 512 else buf, p)) ∧
      ∃ p, Settles (fun fuel => ataDeviceWriteSectorPolled regs dev lba st buf fuel pos)
        (ataDeviceWriteSector regs dev lba buf, p) := by
  obtain ⟨k, -, p, F, h⟩ := @loopEnds regs dev lba st sector buf hclear 4 pos
  obtain ⟨q, F', h'⟩ := ataWaits_settles hclear 4 pos
  refine ⟨⟨k, p, F, fun fuel hf => ?_⟩, q, F', fun fuel hf => ?_⟩
  · simpa [ataDeviceReadSectorPolled, ataDeviceReadSector, Nat.lt_succ_iff] using h fuel hf
  · simp only [ataDeviceWriteSectorPolled, h' fuel hf, Option.map_some']

/-- A drive that answers `DRDY | DSC | DRQ` at every read: both calls return. -/
theorem legacy_read_sector_polled_ready :
    (∀ n : Nat, ∃ m, n ≤ m ∧ (fun _ => (0x58 : UInt8)) m &&& ataSrBsy = 0) ∧
      ((∃ failures p, Settles (fun fuel =>
          ataDeviceReadSectorPolled toaruRegs hda 5 (fun _ => 0x58) (fun _ => 0xAB) (fun _ => 0) fuel 0)
          (ataDeviceReadSector toaruRegs hda 5 failures,
            if failures < 5 then memcpy (fun _ => 0) 0 (fun _ => 0xAB) 0 512 else fun _ => 0, p)) ∧
        ∃ p, Settles (fun fuel => ataDeviceWriteSectorPolled toaruRegs hda 5 (fun _ => 0x58) (fun _ => 0) fuel 0)
          (ataDeviceWriteSector toaruRegs hda 5 (fun _ => 0), p)) :=
  have h : ∀ n : Nat, ∃ m, n ≤ m ∧ (fun _ => (0x58 : UInt8)) m &&& ataSrBsy = 0 :=
    fun n => ⟨n, le_rfl, (by decide : (0x58 : UInt8) &&& ataSrBsy = 0)⟩
  ⟨h, legacy_read_sector_polled toaruRegs hda 5 _ _ _ 0 h⟩

/-- A drive that reports `ERR` at every attempt: five attempts, three status reads each,
and `buf` as it was. -/
example : (ataDeviceReadSectorPolled toaruRegs hda 5 (fun _ => 0x51) (fun _ => 0xAB) (fun _ => 0) 1 0).map
    (fun r => (r.1, r.2.1 0, r.2.2)) = some (ataDeviceReadSector toaruRegs hda 5 5, 0, 15) := by
  decide

/-- A drive whose status has `BSY` set at every read from `pos` on hangs the legacy read in
its first `ata_wait`, which passes no timeout. -/
theorem legacy_read_sector_busy_hangs (regs : RegMap) (dev : AtaDevice) (lba : Nat) (st : StatusStream)
    (sector buf : Mem) (pos : Nat) (hbusy : ∀ n, pos ≤ n → st n &&& ataSrBsy ≠ 0) :
    Diverges (fun fuel => ataDeviceReadSectorPolled regs dev lba st sector buf fuel pos) := fun fuel => by
  dsimp only [ataDeviceReadSectorPolled]
  rw [readSectorLoop, ataWait, ataStatusWait, if_neg (by decide), statusWaitForever_of_busy st fuel pos hbusy]
  rfl

/-- A drive that answers `BSY` at every read. -/
theorem legacy_read_sector_busy_hangs_stuck :
    (∀ n, 0 ≤ n → (fun _ => (0x80 : UInt8)) n &&& ataSrBsy ≠ 0) ∧
      Diverges (fun fuel =>
        ataDeviceReadSectorPolled toaruRegs hda 5 (fun _ => 0x80) (fun _ => 0xAB) (fun _ => 0) fuel 0) :=
  have h : ∀ n, 0 ≤ n → (fun _ => (0x80 : UInt8)) n &&& ataSrBsy ≠ 0 :=
    fun _ _ => (by decide : (0x80 : UInt8) &&& ataSrBsy ≠ 0)
  ⟨h, legacy_read_sector_busy_hangs toaruRegs hda 5 _ _ _ 0 h⟩

end Legacy
end Toaru
