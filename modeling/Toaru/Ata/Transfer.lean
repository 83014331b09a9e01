import Toaru.Ata.Adapter
import Mathlib.Algebra.BigOperators.Group.List

/-!
# What the sector calls do to the bytes, and what a request promises

A sector call moves bytes between the caller's buffer and one sector of the medium; the
adapter is correct exactly when its calls, together, move bytes `[offset, offset + n)` of
the medium and nothing else. This file says both halves of that sentence.

The bottom half is the effect of one call (`Xfer.read`, `Xfer.write`) as the C code
performs it: the sector is read whole (`ata_device_read_sector` into `tmp`, or straight
into the buffer), and for a partial sector a `memcpy` moves the requested part; a write of
a partial sector merges the caller's bytes into the scratch sector and writes the whole
sector back (`ata_device_write_sector_retry`). Sector calls are modelled as whole-sector
copies; the register traffic behind them is `Toaru/Ata/Registers.lean`. Two things the
drive does are part of the call and not of the adapter. The commands carry only the low
bits of the index, so the drivers' calls act on `Xfer.designate W` of the adapter's calls
(`lba mod 2^W`). And `ata_device_read_sector_atapi` stores as many bytes as the drive
reports, not the block size it programmed: `Xfer.readShort` is the call for a drive that
delivers `n` bytes, and it is `Xfer.read` when `n` is the block size (`readShort_self`).

The top half is the specification of a request: the contracts `ReadContract` and
`WriteContract`, and `PlanSpec`, the contract of a plan of calls for a byte range. The
bridge is one observation (`Xfer.read_apply`, `Xfer.write_apply`): a call whose sector
bytes line up with its buffer bytes (`lba * S + secOff = offset + bufOff`) acts on the
buffer as "copy byte `offset + i` of the medium to byte `i`" on the indices it covers, no
matter how the call is shaped. So a plan meeting `PlanSpec` meets the contracts
(`PlanSpec.readContract`, `PlanSpec.writeContract`), with no reasoning about the order of
its calls; and a plan for a request that ends below sector `2^W` is executed as it is
(`PlanSpec.map_designate`).
-/

set_option autoImplicit false

namespace Toaru
namespace Ata

/-- Sector `lba` of a medium of `S`-byte sectors, seen as a buffer: the sector a command
that designates `lba` reads or writes. -/
def sectorView (S : Nat) (medium : Mem) (lba : Nat) : Mem := fun i => medium (lba * S + i)

namespace Xfer

/-- The call as the drive executes it. A sector command carries only the low `W` bits of
the index the adapter hands over (`W = 24` for the DMA driver's `READ DMA` and `WRITE PIO`,
whose drive/head nibble is 0; `28` for the legacy `READ PIO`; `32` for the four index
bytes of the ATAPI packet), so the call on sector `lba` acts on sector `lba % 2^W`. -/
def designate (W : Nat) : Xfer → Xfer
  | part lba secOff bufOff len => part (lba % 2 ^ W) secOff bufOff len
  | whole lba bufOff => whole (lba % 2 ^ W) bufOff

@[simp] theorem designate_part (W l s b n : Nat) :
    (part l s b n).designate W = part (l % 2 ^ W) s b n := rfl
@[simp] theorem designate_whole (W l b : Nat) : (whole l b).designate W = whole (l % 2 ^ W) b := rfl

@[simp] theorem lba_designate (W : Nat) (op : Xfer) : (op.designate W).lba = op.lba % 2 ^ W := by
  cases op <;> rfl

theorem designate_of_lt {W : Nat} {op : Xfer} (h : op.lba < 2 ^ W) : op.designate W = op := by
  cases op <;> simp only [designate, lba] at h ⊢ <;> rw [Nat.mod_eq_of_lt h]

/-- The call touches byte `i` of the caller's buffer. -/
def Covers (S : Nat) (op : Xfer) (i : Nat) : Prop := op.bufOff ≤ i ∧ i < op.bufOff + op.len S

instance (S : Nat) (op : Xfer) (i : Nat) : Decidable (op.Covers S i) :=
  inferInstanceAs (Decidable (_ ∧ _))

/-- The call's sector bytes line up with its buffer bytes for a request at `offset`. -/
def Aligned (S offset : Nat) (op : Xfer) : Prop := op.lba * S + op.secOff = offset + op.bufOff

/-- One call of `read_ata` or `read_atapi`: the sector is read, and `len` of its bytes
from `secOff` on land at `buffer + bufOff`. -/
def read (S : Nat) (medium buffer : Mem) : Xfer → Mem
  | part lba secOff bufOff len => memcpy buffer bufOff (sectorView S medium lba) secOff len
  | whole lba bufOff => memcpy buffer bufOff (sectorView S medium lba) 0 S

/-- One call of `read_atapi` on a drive that delivers the first `n` bytes of the sector
(`inportsm(bus, buf, size_to_read / 2)`). A partial sector is read into the scratch sector
`tmp`, whose other bytes keep what `malloc` left there, and `len` of its bytes from
`secOff` on land at `buffer + bufOff`; a whole sector is read straight into
`buffer + bufOff`, `n` bytes of it. -/
def readShort (S n : Nat) (tmp medium buffer : Mem) : Xfer → Mem
  | part lba secOff bufOff len =>
    memcpy buffer bufOff (memcpy tmp 0 (sectorView S medium lba) 0 n) secOff len
  | whole lba bufOff => memcpy buffer bufOff (sectorView S medium lba) 0 n

/-- A drive that delivers the whole sector makes the call `Xfer.read`, whatever the scratch
sector held. -/
theorem readShort_self {S : Nat} {tmp medium buffer : Mem} {op : Xfer}
    (hs : op.secOff + op.len S ≤ S) : op.readShort S S tmp medium buffer = op.read S medium buffer := by
  cases op with
  | part lba secOff bufOff len =>
    simp only [secOff_part, len_part] at hs
    refine memcpy_congr_src fun j _ hj => ?_
    rw [memcpy_of_mem (Nat.zero_le j) (by omega), Nat.zero_add, Nat.sub_zero]
  | whole lba bufOff => rfl

/-- One call of `write_ata`. A partial sector is read into `tmp`, the caller's bytes are
copied over `tmp + secOff`, and `tmp` is written back; a whole sector is written from
`buffer + bufOff`. -/
def write (S : Nat) (buffer medium : Mem) : Xfer → Mem
  | part lba secOff bufOff len =>
    memcpy medium (lba * S) (memcpy (sectorView S medium lba) secOff buffer bufOff len) 0 S
  | whole lba bufOff => memcpy medium (lba * S) buffer bufOff S

theorem read_apply {S offset : Nat} {medium buffer : Mem} {op : Xfer} (ha : op.Aligned S offset)
    (i : Nat) : op.read S medium buffer i = if op.Covers S i then medium (offset + i) else buffer i := by
  cases op <;> simp only [Aligned, Covers, read, memcpy, sectorView, lba, secOff, bufOff, len] at ha ⊢ <;>
    split_ifs <;> first | rfl | (congr 1; omega)

theorem write_apply {S offset : Nat} {buffer medium : Mem} {op : Xfer} (ha : op.Aligned S offset)
    (hs : op.secOff + op.len S ≤ S) (a : Nat) :
    op.write S buffer medium a =
      if offset ≤ a ∧ op.Covers S (a - offset) then buffer (a - offset) else medium a := by
  cases op <;> simp only [Aligned, Covers, write, memcpy, sectorView, lba, secOff, bufOff, len] at ha hs ⊢ <;>
    split_ifs <;> first | rfl | omega | (congr 1; omega)

end Xfer

/-! ## 1. A request's calls, one after the other -/

/-- The caller's buffer after the calls of a read. -/
def readAll (S : Nat) (medium buffer : Mem) (ops : List Xfer) : Mem :=
  ops.foldl (fun b op => op.read S medium b) buffer

/-- The medium after the calls of a write. -/
def writeAll (S : Nat) (buffer medium : Mem) (ops : List Xfer) : Mem :=
  ops.foldl (fun m op => op.write S buffer m) medium

/-- The caller's buffer after the calls of an ATAPI read whose drive delivers `n` bytes a
call. -/
def readAllShort (S n : Nat) (tmp medium buffer : Mem) (ops : List Xfer) : Mem :=
  ops.foldl (fun b op => op.readShort S n tmp medium b) buffer

@[simp] theorem readAll_nil (S : Nat) (medium buffer : Mem) : readAll S medium buffer [] = buffer := rfl

@[simp] theorem readAll_cons (S : Nat) (medium buffer : Mem) (op : Xfer) (ops : List Xfer) :
    readAll S medium buffer (op :: ops) = readAll S medium (op.read S medium buffer) ops := rfl

@[simp] theorem writeAll_nil (S : Nat) (buffer medium : Mem) : writeAll S buffer medium [] = medium := rfl

@[simp] theorem writeAll_cons (S : Nat) (buffer medium : Mem) (op : Xfer) (ops : List Xfer) :
    writeAll S buffer medium (op :: ops) = writeAll S buffer (op.write S buffer medium) ops := rfl

theorem readAll_apply {S offset : Nat} {medium : Mem} :
    ∀ {ops : List Xfer} {buffer : Mem}, (∀ op ∈ ops, op.Aligned S offset) → ∀ i,
      readAll S medium buffer ops i =
        if ∃ op ∈ ops, op.Covers S i then medium (offset + i) else buffer i
  | [], _, _, i => by simp
  | op :: ops, buffer, ha, i => by
    rw [readAll_cons, readAll_apply (fun o ho => ha o (List.mem_cons_of_mem _ ho)),
      Xfer.read_apply (ha op (List.mem_cons_self _ _))]
    by_cases h₁ : op.Covers S i <;> by_cases h₂ : ∃ o ∈ ops, o.Covers S i <;> simp [h₁, h₂]

theorem writeAll_apply {S offset : Nat} {buffer : Mem} :
    ∀ {ops : List Xfer} {medium : Mem}, (∀ op ∈ ops, op.Aligned S offset) →
      (∀ op ∈ ops, op.secOff + op.len S ≤ S) → ∀ a,
      writeAll S buffer medium ops a =
        if offset ≤ a ∧ ∃ op ∈ ops, op.Covers S (a - offset) then buffer (a - offset) else medium a
  | [], _, _, _, a => by simp
  | op :: ops, medium, ha, hs, a => by
    rw [writeAll_cons, writeAll_apply (fun o ho => ha o (List.mem_cons_of_mem _ ho))
      (fun o ho => hs o (List.mem_cons_of_mem _ ho)),
      Xfer.write_apply (ha op (List.mem_cons_self _ _)) (hs op (List.mem_cons_self _ _))]
    by_cases h₀ : offset ≤ a <;> by_cases h₁ : op.Covers S (a - offset) <;>
      by_cases h₂ : ∃ o ∈ ops, o.Covers S (a - offset) <;> simp [h₀, h₁, h₂]

theorem readAllShort_self {S : Nat} {tmp medium : Mem} :
    ∀ {ops : List Xfer} {buffer : Mem}, (∀ op ∈ ops, op.secOff + op.len S ≤ S) →
      readAllShort S S tmp medium buffer ops = readAll S medium buffer ops
  | [], _, _ => rfl
  | op :: ops, buffer, hs => by
    show readAllShort S S tmp medium (op.readShort S S tmp medium buffer) ops =
      readAll S medium (op.read S medium buffer) ops
    rw [Xfer.readShort_self (hs op (List.mem_cons_self _ _))]
    exact readAllShort_self fun o ho => hs o (List.mem_cons_of_mem _ ho)

/-- The byte count a request of `size` bytes at `offset` promises on a medium of capacity
`C`: `min(size, C - offset)` below the capacity, and nothing from the capacity on. -/
def transferCount (C offset size : Nat) : Nat := if offset < C then min size (C - offset) else 0

/-- A request that moves a byte ends inside the medium. -/
theorem transferCount_le {C offset size : Nat} (h : 0 < transferCount C offset size) :
    offset + transferCount C offset size ≤ C := by
  unfold transferCount at h ⊢; split_ifs at h ⊢ <;> omega

/-- A read returns `n = transferCount`, fills bytes `[0, n)` of the buffer from the medium
at `offset`, and leaves every other byte of the buffer alone. -/
def ReadContract (C offset size : Nat) (medium buffer : Mem) (result : Mem × Nat) : Prop :=
  result.2 = transferCount C offset size ∧ (∀ i < result.2, result.1 i = medium (offset + i)) ∧
    ∀ i, result.2 ≤ i → result.1 i = buffer i

/-- The contract of a plan of sector calls for `n` bytes at `offset`: the sector
indices are exactly those of `[offset, offset + n)`, each in one call; every call lines up
its sector bytes with its buffer bytes, stays inside its sector and inside `[0, n)` of the
buffer; the calls cover `[0, n)`; only the first and the last sector go through the
scratch sector; and the bytes moved sum to `n`. -/
structure PlanSpec (S offset n : Nat) (ops : List Xfer) : Prop where
  nodup : (ops.map Xfer.lba).Nodup
  mem_lba : ∀ k, k ∈ ops.map Xfer.lba ↔ 0 < n ∧ offset / S ≤ k ∧ k ≤ (offset + n - 1) / S
  aligned : ∀ op ∈ ops, op.Aligned S offset
  inSector : ∀ op ∈ ops, op.secOff + op.len S ≤ S
  inBuffer : ∀ op ∈ ops, op.bufOff + op.len S ≤ n
  covers : ∀ i < n, ∃ op ∈ ops, op.Covers S i
  partEnds : ∀ op ∈ ops, op.isPart → op.lba = offset / S ∨ op.lba = (offset + n - 1) / S
  sum_len : (ops.map (Xfer.len S)).sum = n

namespace PlanSpec

variable {S offset n : Nat} {ops : List Xfer}

theorem covers_iff (h : PlanSpec S offset n ops) (i : Nat) : (∃ op ∈ ops, op.Covers S i) ↔ i < n :=
  ⟨fun ⟨op, hop, hc⟩ => Nat.lt_of_lt_of_le hc.2 (h.inBuffer op hop), h.covers i⟩

/-- The plan's calls read bytes `[offset, offset + n)` of the medium into `[0, n)`. -/
theorem readAll_eq (h : PlanSpec S offset n ops) (medium buffer : Mem) (i : Nat) :
    readAll S medium buffer ops i = if i < n then medium (offset + i) else buffer i := by
  rw [readAll_apply h.aligned, if_congr (h.covers_iff i) rfl rfl]

/-- The plan's calls store bytes `[0, n)` of the buffer at `[offset, offset + n)`. -/
theorem writeAll_eq (h : PlanSpec S offset n ops) (buffer medium : Mem) (a : Nat) :
    writeAll S buffer medium ops a =
      if offset ≤ a ∧ a < offset + n then buffer (a - offset) else medium a := by
  rw [writeAll_apply h.aligned h.inSector]
  refine if_congr ⟨fun ⟨h₁, h₂⟩ => ⟨h₁, ?_⟩, fun ⟨h₁, h₂⟩ => ⟨h₁, ?_⟩⟩ rfl rfl
  · have := (h.covers_iff _).mp h₂; omega
  · exact (h.covers_iff _).mpr (by omega)

/-- Below sector `2^W`, the drive executes the plan's calls as they are. -/
theorem map_designate (h : PlanSpec S offset n ops) (hS : 0 < S) {W : Nat}
    (hW : 0 < n → offset + n ≤ 2 ^ W * S) : ops.map (Xfer.designate W) = ops := by
  refine (List.map_congr_left fun op hop => Xfer.designate_of_lt ?_).trans (List.map_id _)
  obtain ⟨hn, -, hle⟩ := (h.mem_lba op.lba).mp (List.mem_map_of_mem _ hop)
  exact Nat.lt_of_le_of_lt hle ((Nat.div_lt_iff_lt_mul hS).mpr (by have := hW hn; omega))

theorem readContract (h : PlanSpec S offset n ops) {C size : Nat}
    (hn : n = transferCount C offset size) (medium buffer : Mem) :
    ReadContract C offset size medium buffer (readAll S medium buffer ops, n) :=
  ⟨hn, fun i hi => (h.readAll_eq medium buffer i).trans (if_pos hi),
    fun i hi => (h.readAll_eq medium buffer i).trans (if_neg (Nat.not_lt.mpr hi))⟩

/-- The contract does not depend on the order of the calls. -/
theorem perm {ops' : List Xfer} (h : PlanSpec S offset n ops) (hp : ops'.Perm ops) :
    PlanSpec S offset n ops' where
  nodup := (hp.map _).nodup_iff.mpr h.nodup
  mem_lba k := ((hp.map _).mem_iff).trans (h.mem_lba k)
  aligned op hop := h.aligned op (hp.mem_iff.mp hop)
  inSector op hop := h.inSector op (hp.mem_iff.mp hop)
  inBuffer op hop := h.inBuffer op (hp.mem_iff.mp hop)
  covers i hi := let ⟨op, hop, hc⟩ := h.covers i hi; ⟨op, hp.mem_iff.mpr hop, hc⟩
  partEnds op hop := h.partEnds op (hp.mem_iff.mp hop)
  sum_len := ((hp.map _).sum_eq).trans h.sum_len

end PlanSpec

end Ata
end Toaru
