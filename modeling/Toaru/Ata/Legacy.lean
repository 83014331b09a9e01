import Toaru.Ata.Registers
import Toaru.Ata.Transfer

/-!
# The legacy PIO driver's byte-range adapter

`read_ata` and `write_ata` of the legacy driver (`part_001`) have the DMA driver's shape
with three differences: the 64-bit offset is narrowed on entry (`uint32_t offset =
_offset;`), every counter is an `unsigned int`, and the postfix block is guarded by
`start_block < end_block` where the DMA driver has `<=`.

The narrowing makes the driver address the wrong sector for every offset of 4 GiB and
more (`legacy_read_ata_offset_narrowed`). Below 4 GiB the two drivers issue the same calls
except where the guards part: a request whose partial last sector is also the first sector
the loop would start from (`legacy_read_ata_postfix_guard`). Everywhere else the legacy
adapter is the DMA adapter, for every fuel (`legacy_blockAdapter_eq`), and unlike it the
legacy adapter always returns (`legacy_blockAdapter_returns`): an `unsigned int`
`end_block` that is a quotient by 512 is never the largest counter value.
-/

set_option autoImplicit false

namespace Toaru
namespace Legacy

open Ata

/-! ## 1. The model -/

/-- The postfix block of the legacy driver:
`if ((offset + size) % S && start_block < end_block) { …; end_block--; }`, with an
`unsigned int` `end_block`. -/
def postfixBlock (S sum size startBlock endBlock : Nat) : List Xfer × Nat :=
  if sum % S ≠ 0 ∧ startBlock < endBlock then
    ([.part endBlock 0 (size - sum % S) (sum % S)], (endBlock + (2 ^ 32 - 1)) % 2 ^ 32)
  else ([], endBlock)

/-- `read_ata` and `write_ata` of the legacy driver, as sector calls: the offset narrowed
to `uint32_t`, `offset + size` and every counter in 32 bits. -/
def blockAdapter (maxOffset koffset size : Nat) (fuel : Nat) : Option (List Xfer × Nat) :=
  let offset := koffset % 2 ^ 32
  let startBlock := offset / ataSectorSize
  let endBlock := (offset + size + (2 ^ 32 - 1)) % 2 ^ 32 / ataSectorSize
  if offset > maxOffset then some ([], 0) else
  let size := if (offset + size) % 2 ^ 32 > maxOffset then (maxOffset - offset) % 2 ^ 32 else size
  let (pre, startBlock, xOffset) := prefixBlock ataSectorSize 32 offset startBlock
  let (post, endBlock) := postfixBlock ataSectorSize ((offset + size) % 2 ^ 32) size startBlock endBlock
  (blockLoop ataSectorSize 32 fuel startBlock endBlock xOffset).map fun body => (pre ++ post ++ body, size)

/-- The legacy `read_ata`: the caller's buffer after the call, and the value returned.
`READ PIO` designates `lba mod 2^28` (`Legacy.issue_ataDeviceReadSector`). -/
def readAta (dev : AtaDevice) (offset size : Nat) (disk buffer : Mem) (fuel : Nat) :
    Option (Mem × Nat) :=
  (blockAdapter (ataMaxOffset dev) offset size fuel).map fun r =>
    (readAll ataSectorSize disk buffer (r.1.map (Xfer.designate 28)), r.2)

/-- The legacy `write_ata`: the disk after the call, and the value returned. `WRITE PIO`
designates `lba mod 2^28` (`Legacy.issue_ataDeviceWriteSector`). -/
def writeAta (dev : AtaDevice) (offset size : Nat) (buffer disk : Mem) (fuel : Nat) :
    Option (Mem × Nat) :=
  (blockAdapter (ataMaxOffset dev) offset size fuel).map fun r =>
    (writeAll ataSectorSize buffer disk (r.1.map (Xfer.designate 28)), r.2)

/-! ## 2. The loop at 32 and at 64 bits -/

/-- A loop that has started cannot exit before it reaches an `end_block` it is past. -/
theorem blockLoop_of_lt (S w fuel startBlock endBlock xOffset : Nat) (h : endBlock < startBlock) :
    blockLoop S w (fuel + 1) startBlock endBlock xOffset = some [] := by
  rw [blockLoop, if_neg (by omega)]

/-- Below `2^32`, the loop with 32-bit counters makes the calls of the loop with 64-bit
counters: the buffer offsets agree modulo `2^32`, which is all the calls keep. -/
theorem blockLoop_width (S : Nat) :
    ∀ (fuel startBlock endBlock x y : Nat), endBlock + 1 < 2 ^ 32 → x % 2 ^ 32 = y % 2 ^ 32 →
      blockLoop S 32 fuel startBlock endBlock x = blockLoop S 64 fuel startBlock endBlock y
  | 0, _, _, _, _, _, _ => rfl
  | fuel + 1, sb, eb, x, y, he, hxy => by
    unfold blockLoop
    split_ifs with h
    · rw [hxy, blockLoop_width S fuel _ eb _ ((y + S) % 2 ^ 64) he (by omega),
        Nat.mod_eq_of_lt (show sb + 1 < 2 ^ 32 by omega), Nat.mod_eq_of_lt (show sb + 1 < 2 ^ 64 by omega)]
    · rfl

/-- The legacy adapter always returns. -/
theorem blockLoop_returns (S startBlock endBlock xOffset : Nat) (he : endBlock + 1 < 2 ^ 32) :
    ∃ body, Returns (blockLoop S 32 · startBlock endBlock xOffset) body := by
  by_cases h : startBlock ≤ endBlock + 1
  · exact ⟨_, _, blockLoop_eq_wholeRun S 32 (endBlock + 2 - startBlock) startBlock endBlock xOffset
      he h (by omega)⟩
  · exact ⟨[], 1, blockLoop_of_lt S 32 0 startBlock endBlock xOffset (by omega)⟩

/-! ## 3. The legacy adapter against the DMA adapter -/

theorem postfixBlock_snd_le (S sum size startBlock endBlock : Nat) :
    (postfixBlock S sum size startBlock endBlock).2 ≤ endBlock := by
  unfold postfixBlock
  split_ifs with h
  · dsimp only; omega
  · exact le_refl _

/-- **The legacy adapter always returns**, for every offset and size: its loop bound is an
`unsigned int` quotient by 512. -/
theorem legacy_blockAdapter_returns (maxOffset koffset size : Nat) :
    ∃ r, Returns (blockAdapter maxOffset koffset size) r := by
  by_cases h : koffset % 2 ^ 32 > maxOffset
  · exact ⟨([], 0), 0, by simp only [blockAdapter, if_pos h]⟩
  generalize hs : (if (koffset % 2 ^ 32 + size) % 2 ^ 32 > maxOffset then
    (maxOffset - koffset % 2 ^ 32) % 2 ^ 32 else size) = size'
  rcases hp : prefixBlock ataSectorSize 32 (koffset % 2 ^ 32) (koffset % 2 ^ 32 / ataSectorSize)
    with ⟨pre, sb, x⟩
  have he : (koffset % 2 ^ 32 + size + (2 ^ 32 - 1)) % 2 ^ 32 / ataSectorSize < 2 ^ 32 - 1 := by
    unfold ataSectorSize; omega
  rcases hq : postfixBlock ataSectorSize ((koffset % 2 ^ 32 + size') % 2 ^ 32) size' sb
    ((koffset % 2 ^ 32 + size + (2 ^ 32 - 1)) % 2 ^ 32 / ataSectorSize) with ⟨post, eb⟩
  have heb := postfixBlock_snd_le ataSectorSize ((koffset % 2 ^ 32 + size') % 2 ^ 32) size' sb
    ((koffset % 2 ^ 32 + size + (2 ^ 32 - 1)) % 2 ^ 32 / ataSectorSize)
  rw [hq] at heb
  obtain ⟨body, fuel, hb⟩ := blockLoop_returns ataSectorSize sb eb x (by dsimp only at heb; omega)
  dsimp only at hb
  exact ⟨(pre ++ post ++ body, size'), fuel, by simp only [blockAdapter, if_neg h, hs, hp, hq, hb, Option.map_some']⟩

/-- After the prefix block the loop starts at the first sector that begins at or after
`offset`. -/
theorem prefixBlock_start (w offset : Nat) (h : offset / ataSectorSize + 1 < 2 ^ w) :
    (prefixBlock ataSectorSize w offset (offset / ataSectorSize)).2.1 =
      (offset + ataSectorSize - 1) / ataSectorSize := by
  unfold prefixBlock ataSectorSize at *
  split_ifs with hr
  · dsimp only; rw [Nat.mod_eq_of_lt h]; omega
  · dsimp only; omega

theorem prefixBlock_width (S offset startBlock : Nat) (h : startBlock + 1 < 2 ^ 32) :
    prefixBlock S 32 offset startBlock = prefixBlock S 64 offset startBlock := by
  unfold prefixBlock
  rw [Nat.mod_eq_of_lt h, Nat.mod_eq_of_lt (show startBlock + 1 < 2 ^ 64 by omega)]

/-- The two postfix guards part only when the partial last sector is the sector the loop
would start from. -/
theorem postfixBlock_agree (S sum size startBlock endBlock : Nat) (he : endBlock < 2 ^ 32)
    (hg : ¬ (sum % S ≠ 0 ∧ startBlock = endBlock)) :
    postfixBlock S sum size startBlock endBlock = Ata.postfixBlock S sum size startBlock endBlock := by
  unfold postfixBlock Ata.postfixBlock
  by_cases h : sum % S ≠ 0 ∧ startBlock < endBlock
  · rw [if_pos h, if_pos ⟨h.1, h.2.le⟩, show (endBlock + (2 ^ 32 - 1)) % 2 ^ 32 =
      (endBlock + (2 ^ 64 - 1)) % 2 ^ 64 by omega]
  · rw [if_neg h, if_neg fun h' => h ⟨h'.1, Nat.lt_of_le_of_ne h'.2 fun e => hg ⟨h'.1, e⟩⟩]

/-- **Below 4 GiB, off the postfix guard, the legacy adapter is the DMA adapter**, for every
fuel: for a request of at least one byte ending below `2^32` on a medium whose capacity is
a multiple of 512, unless its partial last sector is the first sector after the prefix. -/
theorem legacy_blockAdapter_eq {C offset size : Nat} (hC : C < 2 ^ 64)
    (hCS : C % ataSectorSize = 0) (hsize : 1 ≤ size) (hsmall : offset + size < 2 ^ 32)
    (hg : (offset + size) % ataSectorSize = 0 ∨
      (offset + size - 1) / ataSectorSize ≠ (offset + ataSectorSize - 1) / ataSectorSize) :
    blockAdapter C offset size = Ata.blockAdapter ataSectorSize C offset size := by
  funext fuel
  have ho : offset % 2 ^ 32 = offset := Nat.mod_eq_of_lt (by omega)
  have h32 : (offset + size) % 2 ^ 32 = offset + size := Nat.mod_eq_of_lt hsmall
  have h64 : (offset + size) % 2 ^ 64 = offset + size := Nat.mod_eq_of_lt (by omega)
  have he32 : (offset + size + (2 ^ 32 - 1)) % 2 ^ 32 = offset + size - 1 := by omega
  have he64 : (offset + size + (2 ^ 64 - 1)) % 2 ^ 64 = offset + size - 1 := by omega
  have hend : (offset + size - 1) / ataSectorSize + 1 < 2 ^ 32 := by unfold ataSectorSize; omega
  have hstart := prefixBlock_start 64 offset (by unfold ataSectorSize at hend ⊢; omega)
  simp only [blockAdapter, Ata.blockAdapter, clampedSize, ho, h32, h64, he32, he64]
  rw [prefixBlock_width _ _ _ (by unfold ataSectorSize at hend ⊢; omega)]
  split_ifs with hgt hcl
  · rfl
  · have hs : (C - offset) % 2 ^ 32 = C - offset := Nat.mod_eq_of_lt (by omega)
    rw [hs, show offset + (C - offset) = C by omega, Nat.mod_eq_of_lt (by omega : C < 2 ^ 32),
      Nat.mod_eq_of_lt hC,
      blockLoop_width _ _ _ _ _ _ (Nat.lt_of_le_of_lt (Nat.add_le_add_right
        (postfixBlock_snd_le _ _ _ _ _) 1) hend) rfl,
      postfixBlock_agree _ _ _ _ _ (by omega) fun h => h.1 hCS]
  · rw [h32, h64,
      blockLoop_width _ _ _ _ _ _ (Nat.lt_of_le_of_lt (Nat.add_le_add_right
        (postfixBlock_snd_le _ _ _ _ _) 1) hend) rfl,
      postfixBlock_agree _ _ _ _ _ (by omega) fun h => hg.elim h.1 fun hne => hne (hstart ▸ h.2).symm]

theorem legacy_blockAdapter_eq_hda :
    ataMaxOffset hda < 2 ^ 64 ∧ ataMaxOffset hda % ataSectorSize = 0 ∧ 1 ≤ 1000 ∧
      100 + 1000 < 2 ^ 32 ∧
      ((100 + 1000) % ataSectorSize = 0 ∨
        (100 + 1000 - 1) / ataSectorSize ≠ (100 + ataSectorSize - 1) / ataSectorSize) ∧
      Legacy.blockAdapter (ataMaxOffset hda) 100 1000 =
        Ata.blockAdapter ataSectorSize (ataMaxOffset hda) 100 1000 :=
  ⟨by decide, by decide, by decide, by decide, by decide,
    legacy_blockAdapter_eq (by decide) (by decide) (by decide) (by decide) (by decide)⟩

/-! ## 4. Where the legacy driver is wrong -/

/-- `read("/dev/hda", offset = 100, size = 500)`: sector 1 is both the partial last sector
and the first sector after the prefix. The DMA driver (`<=`) reads 88 of its bytes through
the postfix; the legacy driver (`<`) skips the postfix, and its loop reads the whole
sector into `buffer + 412`, 424 bytes past the end of the 500-byte buffer. -/
theorem legacy_read_ata_postfix_guard :
    Returns (Ata.blockAdapter ataSectorSize (ataMaxOffset hda) 100 500)
        ([.part 0 100 0 412, .part 1 0 412 88], 500) ∧
      Returns (Legacy.blockAdapter (ataMaxOffset hda) 100 500)
        ([.part 0 100 0 412, .whole 1 412], 500) :=
  ⟨⟨2, by decide⟩, ⟨2, by decide⟩⟩

/-- On a disk of more than 4 GiB, the legacy `read_ata` at byte `2^32` narrows the offset to
0: it returns 512 after reading sector 0, and every `READ PIO` it issues designates sector
0, though the request lies in sector `2^23`. -/
theorem legacy_read_ata_offset_narrowed (regs : RegMap) (failures : Nat) (tf : Nat → Nat) :
    Returns (Legacy.blockAdapter (ataMaxOffset hdLarge) (2 ^ 32) 512) ([.whole 0 0], 512) ∧
      issue tf (Legacy.ataDeviceReadSector regs hdLarge 0 failures) =
        List.replicate (min (failures + 1) 5) (ataCmdReadPio, 0) :=
  ⟨⟨2, by decide⟩, Legacy.issue_ataDeviceReadSector regs hdLarge 0 failures tf⟩

end Legacy
end Toaru
