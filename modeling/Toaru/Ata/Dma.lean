import Toaru.Ata.Plan
import Toaru.Ata.Registers

/-!
# `read_ata`, `write_ata` and `read_atapi` against the intended plan

The three functions of the DMA driver are `blockAdapter` with their own sector size and
capacity, followed by what their sector calls do (`Xfer.read`, `Xfer.write`,
`Xfer.readShort`) on the sectors the drive is told (`Xfer.designate`). This file defines
them and compares the adapter with the intended plan of `Toaru/Ata/Plan.lean`.

**Where the adapter is right.** `blockAdapter_safe`: on a request that ends inside the
medium, that follows a partial first sector to its end, and that at offset 0 is at least a
sector long (`SafeRequest`), the adapter returns and issues the planned calls, in the
order prefix, postfix, whole sectors. With `PlanSpec.perm` and `specPlan_spec` this gives
the plan's contract, and from it the read and write contracts (§2), on every medium whose
sectors the commands can address: at most `2^24` sectors for `READ DMA` and `WRITE PIO`
(`ata_call_sector_designated` ties the width to the registers the commands read), every
medium for the ATAPI packet, whose drive must deliver the whole block.

**Where it is not.** Each of the three conditions of `SafeRequest` names one slip of the
code, and §3 shows each one at work:

* the prefix copies `S - offset % S` bytes whatever the size, so a request inside one
  sector overruns the buffer (`write_ata_prefix_overrun`);
* `end_block` is computed from the size before it is clamped, and the return test is
  `offset > max`, not `>=`, so a request that reaches past the capacity transfers sectors
  beyond it (`read_ata_scenario_six`);
* `end_block--` on an `end_block` of 0 wraps to `2^64 - 1`, so a request at offset 0
  shorter than a sector never returns (`read_ata_short_at_zero_diverges`).
-/

set_option autoImplicit false

namespace Toaru
namespace Ata

/-! ## 1. The code's plan on a safe request -/

/-- A request on which the adapter's slips stay silent: it ends inside the medium (so the
size is never clamped after `end_block` was computed from it), a partial first sector is
followed to its end (so the prefix copy of `S - offset % S` bytes stays inside the
request), and at offset 0 it is at least a sector long (so `end_block--` never meets 0). -/
structure SafeRequest (S C offset size : Nat) : Prop where
  within : offset + size ≤ C
  prefixFits : offset % S = 0 ∨ S ≤ offset % S + size
  atZero : offset = 0 → S ≤ size

/-- Where a request of at least one byte sits: its first sector `a`, its last sector `b`. -/
structure Span (S offset size a b : Nat) : Prop where
  first : offset / S = a
  last : (offset + size - 1) / S = b
  le : a ≤ b
  start : a * S + offset % S = offset
  lastLo : b * S ≤ offset + size - 1
  lastHi : offset + size - 1 < b * S + S

theorem Span.mk' {S offset size : Nat} (hS : 0 < S) (hsz : 1 ≤ size) :
    Span S offset size (offset / S) ((offset + size - 1) / S) := by
  have hA := Nat.div_add_mod offset S
  have hB := div_mul_bracket hS (offset + size - 1)
  rw [Nat.add_one_mul] at hB
  exact ⟨rfl, rfl, Nat.div_le_div_right (by omega), by rw [Nat.mul_comm]; omega, hB.1, hB.2⟩

/-- Below the capacity, the adapter is its three blocks and the loop, without the early
return and the clamp. -/
theorem blockAdapter_within {S C offset size : Nat} (hC : C < 2 ^ 64) (hw : offset + size ≤ C)
    (fuel : Nat) :
    blockAdapter S C offset size fuel =
      let (pre, startBlock, xOffset) := prefixBlock S 64 offset (offset / S)
      let (post, endBlock) := postfixBlock S (offset + size) size startBlock
        ((offset + size + (2 ^ 64 - 1)) % 2 ^ 64 / S)
      (blockLoop S 64 fuel startBlock endBlock xOffset).map fun body => (pre ++ post ++ body, size) := by
  have hsum : (offset + size) % 2 ^ 64 = offset + size := Nat.mod_eq_of_lt (by omega)
  simp only [blockAdapter, if_neg (show ¬ offset > C by omega), clampedSize, hsum,
    if_neg (show ¬ offset + size > C by omega)]

/-- `end_block = (offset + size - 1) / S` in `uint64_t`, for a request of at least one byte
below `2^64`. -/
theorem endBlock_eq {S E b : Nat} (hE : 1 ≤ E) (hE' : E < 2 ^ 64) (hb : (E - 1) / S = b) :
    (E + (2 ^ 64 - 1)) % 2 ^ 64 / S = b := by
  rw [show (E + (2 ^ 64 - 1)) % 2 ^ 64 = E - 1 by omega, hb]

theorem prefixBlock_of_mod_eq_zero {S w offset : Nat} (h : offset % S = 0) (sb : Nat) :
    prefixBlock S w offset sb = ([], sb, 0) := if_neg (not_not.mpr h)

theorem prefixBlock_of_mod_ne_zero {S w offset : Nat} (h : offset % S ≠ 0) (sb : Nat) :
    prefixBlock S w offset sb =
      ([.part sb (offset % S) 0 (S - offset % S)], (sb + 1) % 2 ^ w, S - offset % S) := if_pos h

/-- Iterations of the body loop over sectors the request covers whole issue the planned
calls for those sectors. -/
theorem wholeRun_eq_map {S offset n : Nat} (hn : n < 2 ^ 32) :
    ∀ (s x c : Nat), s * S = offset + x → (s + c) * S ≤ offset + n →
      wholeRun S 64 s x c = (List.range' s c).map (specXfer S offset n)
  | _, _, 0, _, _ => rfl
  | s, x, c + 1, h₁, h₂ => by
    have hs : (s + 1) * S = s * S + S := Nat.add_one_mul s S
    have hc : (s + (c + 1)) * S = (s + 1 + c) * S := by rw [Nat.add_assoc, Nat.add_comm 1 c]
    have hle : (s + 1) * S ≤ (s + 1 + c) * S := Nat.mul_le_mul_right _ (by omega)
    rw [wholeRun, List.range'_succ, List.map_cons,
      @wholeRun_eq_map S offset n hn (s + 1) ((x + S) % 2 ^ 64) c
        (by rw [Nat.mod_eq_of_lt (by omega)]; omega) (by omega),
      specXfer_of_inside (by omega) (by omega), Nat.mod_eq_of_lt (show x < 2 ^ 32 by omega)]
    congr 2
    omega

section Cases

variable {S C offset size a b : Nat}

/-- The request starts and ends on sector boundaries: whole sectors only. -/
theorem blockAdapter_aligned (hS : 0 < S) (hC : C < 2 ^ 64) (hsize : size < 2 ^ 32)
    (hw : offset + size ≤ C) (hsz : 1 ≤ size) (sp : Span S offset size a b)
    (hr : offset % S = 0) (hq : (offset + size) % S = 0) :
    blockAdapter S C offset size (offset + size + 2) =
      some ((List.range' a (b + 1 - a)).map (specXfer S offset size), size) := by
  obtain ⟨ha, hb, hab, hst, hlo, hhi⟩ := sp
  have hbE : (b + 1) * S = offset + size := hb ▸ div_pred_add_one_mul hS (by omega) hq
  have hbS : b ≤ b * S := Nat.le_mul_of_pos_right b hS
  rw [Nat.add_one_mul] at hbE
  have hpost : ¬ ((offset + size) % S ≠ 0 ∧ a ≤ b) := fun h => h.1 hq
  rw [blockAdapter_within hC hw]
  simp only [prefixBlock_of_mod_eq_zero hr, endBlock_eq (by omega) (by omega) hb, ha, postfixBlock,
    if_neg hpost, blockLoop_eq_wholeRun S 64 (offset + size + 2) a b 0 (by omega) (by omega) (by omega),
    Option.map_some', List.nil_append,
    @wholeRun_eq_map S offset size hsize a 0 (b + 1 - a) (by omega)
      (by rw [Nat.add_sub_cancel' (by omega), Nat.add_one_mul]; omega)]

/-- The request starts on a boundary and ends inside sector `b`: the postfix, then whole
sectors. -/
theorem blockAdapter_postfix (hS : 0 < S) (hC : C < 2 ^ 64) (hsize : size < 2 ^ 32)
    (hw : offset + size ≤ C) (hsz : 1 ≤ size) (h0 : offset = 0 → S ≤ size)
    (sp : Span S offset size a b) (hr : offset % S = 0) (hq : (offset + size) % S ≠ 0) :
    blockAdapter S C offset size (offset + size + 2) =
      some (specXfer S offset size b :: (List.range' a (b - a)).map (specXfer S offset size), size) := by
  obtain ⟨ha, hb, hab, hst, hlo, hhi⟩ := sp
  have hbE : (offset + size) / S = b := (div_pred_eq hS hq).symm.trans hb
  have hbS : b ≤ b * S := Nat.le_mul_of_pos_right b hS
  have hab' := Nat.mul_le_mul_right S hab
  have hb1 : 1 ≤ b := by
    rcases Nat.eq_zero_or_pos b with hb0 | hb0
    · subst hb0
      have ha0 : a = 0 := by omega
      subst ha0
      simp only [Nat.zero_mul, Nat.zero_add] at hst hhi
      have hs : offset + size = S := by omega
      exact absurd (hs ▸ Nat.mod_self S) hq
    · exact hb0
  have hpost : (offset + size) % S ≠ 0 ∧ a ≤ b := ⟨hq, hab⟩
  have hlast := @specXfer_last S offset size hS (by rw [hbE]; omega)
  rw [hbE] at hlast
  rw [blockAdapter_within hC hw, hlast]
  simp only [prefixBlock_of_mod_eq_zero hr, endBlock_eq (by omega) (by omega) hb, ha, postfixBlock,
    if_pos hpost, show (b + (2 ^ 64 - 1)) % 2 ^ 64 = b - 1 by omega,
    blockLoop_eq_wholeRun S 64 (offset + size + 2) a (b - 1) 0 (by omega) (by omega) (by omega),
    Option.map_some', List.nil_append, List.singleton_append, show b - 1 + 1 - a = b - a by omega,
    @wholeRun_eq_map S offset size hsize a 0 (b - a) (by omega)
      (by rw [Nat.add_sub_cancel' hab]; omega)]

/-- The request starts inside sector `a`, runs to its end, and ends inside sector `b > a`:
the prefix, the postfix, then whole sectors. -/
theorem blockAdapter_both (hS : 0 < S) (hC : C < 2 ^ 64) (hsize : size < 2 ^ 32)
    (hw : offset + size ≤ C) (hsz : 1 ≤ size) (sp : Span S offset size a b)
    (hr : offset % S ≠ 0) (hp : S ≤ offset % S + size) (hq : (offset + size) % S ≠ 0 ∧ a + 1 ≤ b) :
    blockAdapter S C offset size (offset + size + 2) =
      some ([specXfer S offset size a] ++ [specXfer S offset size b] ++
        (List.range' (a + 1) (b - a - 1)).map (specXfer S offset size), size) := by
  obtain ⟨ha, hb, hab, hst, hlo, hhi⟩ := sp
  have hbE : (offset + size) / S = b := (div_pred_eq hS hq.1).symm.trans hb
  have hrS := Nat.mod_lt offset hS
  have haS : a ≤ a * S := Nat.le_mul_of_pos_right a hS
  have hbS : b ≤ b * S := Nat.le_mul_of_pos_right b hS
  have hab' := Nat.mul_le_mul_right S hq.2
  rw [Nat.add_one_mul] at hab'
  have hfirst := @specXfer_first S offset size hr hp
  have hlast := @specXfer_last S offset size hS (by rw [hbE]; omega)
  rw [ha] at hfirst
  rw [hbE] at hlast
  rw [blockAdapter_within hC hw, hfirst, hlast]
  simp only [prefixBlock_of_mod_ne_zero hr, ha, show (a + 1) % 2 ^ 64 = a + 1 by omega,
    endBlock_eq (by omega) (by omega) hb, postfixBlock, if_pos hq,
    show (b + (2 ^ 64 - 1)) % 2 ^ 64 = b - 1 by omega,
    blockLoop_eq_wholeRun S 64 (offset + size + 2) (a + 1) (b - 1) _ (by omega) (by omega) (by omega),
    Option.map_some', show b - 1 + 1 - (a + 1) = b - a - 1 by omega,
    @wholeRun_eq_map S offset size hsize (a + 1) (S - offset % S) (b - a - 1)
      (by rw [Nat.add_one_mul]; omega) (by rw [show a + 1 + (b - a - 1) = b by omega]; omega)]

/-- The request starts inside sector `a`, runs to its end, and ends on a boundary: the
prefix, then whole sectors. -/
theorem blockAdapter_prefix (hS : 0 < S) (hC : C < 2 ^ 64) (hsize : size < 2 ^ 32)
    (hw : offset + size ≤ C) (hsz : 1 ≤ size) (sp : Span S offset size a b)
    (hr : offset % S ≠ 0) (hp : S ≤ offset % S + size) (hq : ¬ ((offset + size) % S ≠ 0 ∧ a + 1 ≤ b)) :
    blockAdapter S C offset size (offset + size + 2) =
      some ((List.range' a (b + 1 - a)).map (specXfer S offset size), size) := by
  obtain ⟨ha, hb, hab, hst, hlo, hhi⟩ := sp
  have hrS := Nat.mod_lt offset hS
  have haS : a ≤ a * S := Nat.le_mul_of_pos_right a hS
  have hbS : b ≤ b * S := Nat.le_mul_of_pos_right b hS
  have hq0 : (offset + size) % S = 0 := by
    by_contra hq0
    refine hq ⟨hq0, (Nat.le_div_iff_mul_le hS).mpr ?_ |>.trans_eq hb⟩
    have : (a + 1) * S ≠ offset + size := fun h => hq0 (h ▸ Nat.mul_mod_left _ _)
    rw [Nat.add_one_mul] at this ⊢
    omega
  have hbE : (b + 1) * S = offset + size := hb ▸ div_pred_add_one_mul hS (by omega) hq0
  rw [Nat.add_one_mul] at hbE
  have hfirst := @specXfer_first S offset size hr hp
  rw [ha] at hfirst
  rw [blockAdapter_within hC hw, show b + 1 - a = b - a + 1 by omega, List.range'_succ,
    List.map_cons, hfirst]
  simp only [prefixBlock_of_mod_ne_zero hr, ha, show (a + 1) % 2 ^ 64 = a + 1 by omega,
    endBlock_eq (by omega) (by omega) hb, postfixBlock, if_neg hq,
    blockLoop_eq_wholeRun S 64 (offset + size + 2) (a + 1) b _ (by omega) (by omega) (by omega),
    Option.map_some', List.append_nil, List.singleton_append, show b + 1 - (a + 1) = b - a by omega,
    @wholeRun_eq_map S offset size hsize (a + 1) (S - offset % S) (b - a)
      (by rw [Nat.add_one_mul]; omega) (by rw [show a + 1 + (b - a) = b + 1 by omega, Nat.add_one_mul]; omega)]

/-- An empty request at a nonzero multiple of the sector size: nothing is transferred. -/
theorem blockAdapter_empty (hS : 0 < S) (hC : C < 2 ^ 64) (hw : offset ≤ C) (h0 : 0 < offset)
    (hr : offset % S = 0) : blockAdapter S C offset 0 1 = some ([], 0) := by
  have hlt : (offset + 0 + (2 ^ 64 - 1)) % 2 ^ 64 / S < offset / S :=
    (Nat.div_lt_iff_lt_mul hS).mpr (by have := Nat.div_add_mod offset S; rw [Nat.mul_comm]; omega)
  have hpost : ¬ ((offset + 0) % S ≠ 0 ∧ offset / S ≤ (offset + 0 + (2 ^ 64 - 1)) % 2 ^ 64 / S) :=
    fun h => absurd h.2 (Nat.not_le.mpr hlt)
  rw [blockAdapter_within hC (by omega)]
  simp only [prefixBlock_of_mod_eq_zero hr, postfixBlock, if_neg hpost, blockLoop,
    if_neg (Nat.not_le.mpr hlt), Option.map_some', List.append_nil]

end Cases

/-- **The adapter refines the intended plan on safe requests.** The adapter returns the size
and issues the planned calls, in another order. -/
theorem blockAdapter_safe {S C offset size : Nat} (hS : 0 < S) (hC : C < 2 ^ 64)
    (hsize : size < 2 ^ 32) (h : SafeRequest S C offset size) :
    ∃ ops, Returns (blockAdapter S C offset size) (ops, size) ∧ ops.Perm (specPlan S offset size) := by
  obtain ⟨hw, hp, h0⟩ := h
  rcases Nat.eq_zero_or_pos size with hz | hsz
  · subst hz
    have hr : offset % S = 0 := by have := Nat.mod_lt offset hS; omega
    exact ⟨[], ⟨1, blockAdapter_empty hS hC (by omega) (by omega) hr⟩, by simp [specPlan]⟩
  have sp := @Span.mk' S offset size hS hsz
  generalize offset / S = a, (offset + size - 1) / S = b at sp
  have hab := sp.le
  have hspec : specPlan S offset size = (List.range' a (b + 1 - a)).map (specXfer S offset size) := by
    rw [specPlan, if_neg (by omega), sp.first, sp.last]
  by_cases hr : offset % S = 0
  · by_cases hq : (offset + size) % S = 0
    · exact ⟨_, ⟨_, blockAdapter_aligned hS hC hsize hw hsz sp hr hq⟩, hspec ▸ List.Perm.refl _⟩
    · refine ⟨_, ⟨_, blockAdapter_postfix hS hC hsize hw hsz h0 sp hr hq⟩, ?_⟩
      rw [hspec, show b + 1 - a = b - a + 1 by omega, List.range'_concat, List.map_append,
        List.map_singleton, show a + 1 * (b - a) = b by omega]
      exact (List.perm_append_singleton _ _).symm
  · have hp' := hp.resolve_left hr
    by_cases hq : (offset + size) % S ≠ 0 ∧ a + 1 ≤ b
    · refine ⟨_, ⟨_, blockAdapter_both hS hC hsize hw hsz sp hr hp' hq⟩, ?_⟩
      rw [hspec, show b + 1 - a = b - a - 1 + 1 + 1 by omega, List.range'_concat, List.range'_succ,
        List.map_append, List.map_cons, List.map_singleton, show a + 1 * (b - a - 1 + 1) = b by omega]
      exact List.Perm.cons _ (List.perm_append_singleton _ _).symm
    · exact ⟨_, ⟨_, blockAdapter_prefix hS hC hsize hw hsz sp hr hp' hq⟩, hspec ▸ List.Perm.refl _⟩

theorem SafeRequest.transferCount_eq {S C offset size : Nat} (h : SafeRequest S C offset size) :
    transferCount C offset size = size := by
  have := h.within; unfold transferCount; split_ifs <;> omega

/-- On a safe request, or past the capacity, the adapter returns and its calls meet the
planner's contract for the promised count. -/
theorem blockAdapter_planSpec {S C offset size : Nat} (hS : 0 < S) (hC : C < 2 ^ 64)
    (hsize : size < 2 ^ 32) (h : SafeRequest S C offset size ∨ C < offset) :
    ∃ ops, Returns (blockAdapter S C offset size) (ops, transferCount C offset size) ∧
      PlanSpec S offset (transferCount C offset size) ops := by
  rcases h with h | h
  · obtain ⟨ops, hr, hp⟩ := blockAdapter_safe hS hC hsize h
    rw [h.transferCount_eq]
    exact ⟨ops, hr, (specPlan_spec hS offset size).perm hp⟩
  · have hn : transferCount C offset size = 0 := if_neg (by omega)
    rw [hn]
    refine ⟨[], ⟨0, blockAdapter_of_gt h 0⟩, ?_⟩
    exact ⟨List.nodup_nil, by simp, by simp, by simp, by simp, by simp, by simp, rfl⟩

/-! ## 2. The three functions -/

/-- A read through the adapter on a drive whose commands carry `W` bits of the index: the
caller's buffer after the call, and the value returned. -/
def blockRead (S W C offset size : Nat) (medium buffer : Mem) (fuel : Nat) : Option (Mem × Nat) :=
  (blockAdapter S C offset size fuel).map fun r =>
    (readAll S medium buffer (r.1.map (Xfer.designate W)), r.2)

/-- A write through the adapter on a drive whose commands carry `W` bits of the index: the
medium after the call, and the value returned. -/
def blockWrite (S W C offset size : Nat) (buffer medium : Mem) (fuel : Nat) : Option (Mem × Nat) :=
  (blockAdapter S C offset size fuel).map fun r =>
    (writeAll S buffer medium (r.1.map (Xfer.designate W)), r.2)

/-- `read_ata` (`execvp.c`): `READ DMA` designates `lba mod 2^24`. -/
def readAta (dev : AtaDevice) (offset size : Nat) (medium buffer : Mem) : Nat → Option (Mem × Nat) :=
  blockRead ataSectorSize 24 (ataMaxOffset dev) offset size medium buffer

/-- `write_ata` (`execvp.c`): `WRITE PIO` designates `lba mod 2^24`. -/
def writeAta (dev : AtaDevice) (offset size : Nat) (buffer medium : Mem) : Nat → Option (Mem × Nat) :=
  blockWrite ataSectorSize 24 (ataMaxOffset dev) offset size buffer medium

/-- The bytes `ata_device_read_sector_atapi` stores when the drive reports `count` in
`LBA1`/`LBA2` (`uint16_t size_to_read`): `inportsm(bus, buf, size_to_read / 2)` reads
`count / 2` words. -/
def atapiDelivered (count : UInt16) : Nat := count.toNat / 2 * 2

/-- `read_atapi` (`execvp.c`) on a drive that reports `count` bytes for every packet, with
`tmp` the bytes `malloc` leaves in the scratch sector: the packet carries `lba mod 2^32`. -/
def readAtapi (dev : AtaDevice) (count : UInt16) (tmp : Mem) (offset size : Nat) (medium buffer : Mem)
    (fuel : Nat) : Option (Mem × Nat) :=
  (blockAdapter dev.atapiSectorSize (atapiMaxOffset dev) offset size fuel).map fun r =>
    (readAllShort dev.atapiSectorSize (atapiDelivered count) tmp medium buffer
      (r.1.map (Xfer.designate 32)), r.2)

/-- The sector calls of `read_ata` and `write_ata` act on the sector their commands
designate: the index `issue` reads off the task file after `ata_device_read_sector` and
`ata_device_write_sector` is the designated call's. -/
theorem ata_call_sector_designated (regs : RegMap) (dev : AtaDevice) (h : dev.isAtapi = false)
    (op : Xfer) (buf : Mem) (tf : Nat → Nat) :
    issue tf (ataDeviceReadSector regs dev op.lba) = [(ataCmdReadDma, (op.designate 24).lba)] ∧
      issue tf (ataDeviceWriteSector regs dev op.lba buf) =
        [(ataCmdWritePio, (op.designate 24).lba), (ataCmdCacheFlush, (op.designate 24).lba)] := by
  rw [Xfer.lba_designate]
  exact ⟨issue_ataDeviceReadSector regs dev h _ tf, issue_ataDeviceWriteSector regs dev _ buf tf⟩

/-- `read_atapi` on a medium with a block size of an even number of bytes, on a drive that
reports the whole block for every packet, on a safe request or past the capacity: whatever
the scratch sector held, it returns, fills `[0, n)` of the buffer from the medium at
`offset`, and leaves the rest of the buffer alone. -/
theorem read_atapi_contract (dev : AtaDevice) (hS : 0 < dev.atapiSectorSize)
    (heven : dev.atapiSectorSize % 2 = 0) {count : UInt16} (hcount : count.toNat = dev.atapiSectorSize)
    {offset size : Nat} (hsize : size < 2 ^ 32)
    (h : SafeRequest dev.atapiSectorSize (atapiMaxOffset dev) offset size ∨
      atapiMaxOffset dev < offset)
    (tmp medium buffer : Mem) :
    ∃ result, Returns (readAtapi dev count tmp offset size medium buffer) result ∧
      ReadContract (atapiMaxOffset dev) offset size medium buffer result := by
  obtain ⟨ops, hr, hp⟩ := blockAdapter_planSpec hS (atapiMaxOffset_lt dev) hsize h
  have hd := hp.map_designate hS fun hn => (transferCount_le hn).trans (atapiMaxOffset_le dev)
  have hn : atapiDelivered count = dev.atapiSectorSize := by unfold atapiDelivered; omega
  refine ⟨_, hr.map _, ?_⟩
  dsimp only
  rw [hd, hn, readAllShort_self hp.inSector]
  exact hp.readContract rfl medium buffer

theorem read_atapi_contract_cdrom0 :
    0 < cdrom0.atapiSectorSize ∧ cdrom0.atapiSectorSize % 2 = 0 ∧
      (2048 : UInt16).toNat = cdrom0.atapiSectorSize ∧
      (SafeRequest cdrom0.atapiSectorSize (atapiMaxOffset cdrom0) 4096 2048 ∨
        atapiMaxOffset cdrom0 < 4096) ∧
      ∃ result, Returns (readAtapi cdrom0 2048 (fun _ => 0) 4096 2048 (fun _ => 0) (fun _ => 0)) result ∧
        ReadContract (atapiMaxOffset cdrom0) 4096 2048 (fun _ => 0) (fun _ => 0) result :=
  have h : SafeRequest cdrom0.atapiSectorSize (atapiMaxOffset cdrom0) 4096 2048 ∨
      atapiMaxOffset cdrom0 < 4096 :=
    .inl ⟨by decide, by decide, by decide⟩
  ⟨by decide, by decide, by decide, h,
    read_atapi_contract cdrom0 (by decide) (by decide) (by decide) (by norm_num) h _ _ _⟩

/-! ## 3. Where the adapter is wrong -/

/-- A request inside one sector that stops short of the sector's end is one partial call,
and that call moves `S - offset % S` bytes, not `size`. -/
theorem blockAdapter_inside_sector {S C offset size : Nat} (hS : 0 < S) (hC : C < 2 ^ 64)
    (hw : offset + size ≤ C) (hr : offset % S ≠ 0) (hin : offset % S + size < S) :
    blockAdapter S C offset size 1 =
      some ([.part (offset / S) (offset % S) 0 (S - offset % S)], size) := by
  have hA := Nat.div_add_mod offset S
  have hrS := Nat.mod_lt offset hS
  have ha : offset / S < offset := Nat.div_lt_self (by omega) (by omega)
  have hend : (offset + size - 1) / S = offset / S :=
    Nat.div_eq_of_lt_le (by rw [Nat.mul_comm]; omega) (by rw [Nat.add_one_mul, Nat.mul_comm]; omega)
  rw [blockAdapter_within hC hw]
  simp only [prefixBlock_of_mod_ne_zero hr, endBlock_eq (by omega) (by omega) hend, postfixBlock,
    Nat.mod_eq_of_lt (show offset / S + 1 < 2 ^ 64 by omega),
    show ¬ offset / S + 1 ≤ offset / S by omega, and_false, if_false,
    blockLoop_eq_wholeRun S 64 1 (offset / S + 1) (offset / S) _ (by omega) (by omega) (by omega),
    Nat.sub_self, wholeRun, Option.map_some', List.append_nil]

/-- At offset 0, a request shorter than a sector takes the postfix branch with
`end_block = 0`; `end_block--` wraps to `2^64 - 1` and the body loop never exits. -/
theorem blockAdapter_short_at_zero {S C size : Nat} (hC : C < 2 ^ 64)
    (hw : size ≤ C) (h1 : 1 ≤ size) (hlt : size < S) :
    Diverges (blockAdapter S C 0 size) := by
  intro fuel
  have hq : (0 + size) % S ≠ 0 := by rw [Nat.zero_add, Nat.mod_eq_of_lt hlt]; omega
  rw [blockAdapter_within hC (by omega)]
  simp only [prefixBlock_of_mod_eq_zero (Nat.zero_mod S), Nat.zero_div,
    endBlock_eq (by omega) (by omega) (Nat.div_eq_of_lt (show 0 + size - 1 < S by omega)),
    postfixBlock, if_pos (⟨hq, le_refl 0⟩ : _ ∧ 0 ≤ 0),
    blockLoop_diverges S 64 fuel 0 ((0 + (2 ^ 64 - 1)) % 2 ^ 64) 0 (by norm_num) (by norm_num),
    Option.map_none']

/-- `write("/dev/hda", offset = 100, size = 10, B)` returns 10, but the prefix stores
`512 - 100` bytes of `B`: disk bytes `[110, 512)` receive `B[10..412)`, bytes the caller
never handed over. -/
theorem write_ata_prefix_overrun (buffer disk : Mem) :
    Returns (writeAta hda 100 10 buffer disk)
      (fun a => if 100 ≤ a ∧ a < 512 then buffer (a - 100) else disk a, 10) := by
  refine ⟨1, ?_⟩
  simp only [writeAta, blockWrite, ataSectorSize, Option.map_some', List.map_cons, List.map_nil,
    Xfer.designate_part,
    @blockAdapter_inside_sector 512 (ataMaxOffset hda) 100 10 (by norm_num) (ataMaxOffset_lt hda)
      (by rw [ataMaxOffset_hda]; norm_num) (by norm_num) (by norm_num)]
  congr 2
  funext a
  rw [@writeAll_apply 512 100 buffer _ disk (by simp [Xfer.Aligned]) (by simp)]
  simp only [List.mem_singleton, exists_eq_left, Xfer.Covers, Xfer.bufOff_part, Xfer.len_part]
  exact if_congr (by constructor <;> intro h <;> omega) rfl rfl

/-- `read("/dev/hda", offset = capacity - 100, size = 1000)`: the call returns 100, the
bytes left before the capacity, but `end_block` was computed from the unclamped
size, so sectors 32 768 and 32 769, past the end of the disk, are read too, and 1124 bytes
of a 1000-byte destination are written. -/
theorem read_ata_scenario_six (disk buffer : Mem) :
    Returns (readAta hda 16777116 1000 disk buffer)
      (fun i => if i < 1124 then disk (16777116 + i) else buffer i, 100) := by
  have hp : blockAdapter ataSectorSize (ataMaxOffset hda) 16777116 1000 4 =
      some ([.part 32767 412 0 100, .whole 32768 100, .whole 32769 612], 100) := by decide
  refine ⟨4, ?_⟩
  simp only [readAta, blockRead, hp, Option.map_some', List.map_cons, List.map_nil,
    Xfer.designate_part, Xfer.designate_whole]
  congr 2
  funext i
  rw [@readAll_apply ataSectorSize 16777116 disk _ buffer (by simp [Xfer.Aligned, ataSectorSize])]
  simp only [List.mem_cons, List.mem_singleton, exists_eq_or_imp, exists_eq_left, Xfer.Covers,
    Xfer.bufOff_part, Xfer.len_part, Xfer.bufOff_whole, Xfer.len_whole, ataSectorSize,
    List.not_mem_nil, false_and, exists_false, or_false]
  exact if_congr (by constructor <;> intro h <;> omega) rfl rfl

/-- The same request as a plan: the body loop hands sectors 32 768 and 32 769 to
`ata_device_read_sector`, though the disk's last sector is 32 767. -/
theorem read_ata_plan_scenario_six :
    Returns (blockAdapter ataSectorSize (ataMaxOffset hda) 16777116 1000)
      ([.part 32767 412 0 100, .whole 32768 100, .whole 32769 612], 100) :=
  ⟨4, by decide⟩

/-- On a disk of at least one sector, `read_ata` at offset 0 of fewer than 512 bytes never
returns. -/
theorem read_ata_short_at_zero_diverges (dev : AtaDevice) (hC : ataSectorSize ≤ ataMaxOffset dev)
    {size : Nat} (h1 : 1 ≤ size) (hlt : size < ataSectorSize) (disk buffer : Mem) :
    Diverges (readAta dev 0 size disk buffer) :=
  (blockAdapter_short_at_zero (ataMaxOffset_lt dev) (by omega) h1 hlt).map _

theorem read_ata_short_at_zero_hda :
    ataSectorSize ≤ ataMaxOffset hda ∧ 1 ≤ 10 ∧ 10 < ataSectorSize ∧
      Diverges (readAta hda 0 10 (fun _ => 0) (fun _ => 0)) :=
  ⟨by decide, by decide, by decide,
    read_ata_short_at_zero_diverges hda (by decide) (by decide) (by decide) _ _⟩

end Ata
end Toaru
