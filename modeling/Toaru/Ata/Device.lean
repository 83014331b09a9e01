import Toaru.Memory

/-!
# The device descriptor and its capacity

`struct ata_device` of the DMA driver (`execvp.c`), restricted to the fields the modelled
functions read: the identify block's two capacity words (`ata_max_offset`), the ATAPI
capacity (`atapi_max_offset`), and the port and bus-master fields the sector commands write
to. Fields of the C structure that are `uint32_t` or `uint64_t` carry their bound, so a
descriptor the hardware could not produce cannot be built.

The capacity functions compute in `uint64_t`. `ata_max_offset` multiplies a 64-bit sector
count by 512 and so wraps for counts of `2^55` and more; `atapi_max_offset` cannot wrap,
because both of its factors are 32-bit (`atapiMaxOffset_eq`).
-/

set_option autoImplicit false

namespace Toaru
namespace Ata

/-- `ATA_SECTOR_SIZE`. -/
def ataSectorSize : Nat := 512

/-- The capacity words of `ata_identify_t`: `sectors_28` (words 60–61) and
`sectors_48` (words 100–103). -/
structure AtaIdentify where
  sectors28 : Nat
  sectors48 : Nat
  sectors28_lt : sectors28 < 2 ^ 32
  sectors48_lt : sectors48 < 2 ^ 64

/-- `struct ata_device`, the fields the byte-range adapters and the sector commands read. -/
structure AtaDevice where
  ioBase : Nat
  slave : Fin 2
  isAtapi : Bool
  identity : AtaIdentify
  dmaPrdtPhys : Nat
  bar4 : Nat
  atapiLba : Nat
  atapiSectorSize : Nat
  atapiLba_lt : atapiLba < 2 ^ 32
  atapiSectorSize_lt : atapiSectorSize < 2 ^ 32

/-- `ata_max_offset`: `sectors_48`, or `sectors_28` when that is zero, times 512, in
`uint64_t`. -/
def ataMaxOffset (dev : AtaDevice) : Nat :=
  let sectors := if dev.identity.sectors48 = 0 then dev.identity.sectors28
    else dev.identity.sectors48
  sectors * ataSectorSize % 2 ^ 64

/-- `atapi_max_offset`: zero without a medium, else `(atapi_lba + 1) * atapi_sector_size`
in `uint64_t`. -/
def atapiMaxOffset (dev : AtaDevice) : Nat :=
  if dev.atapiLba = 0 then 0 else (dev.atapiLba + 1) * dev.atapiSectorSize % 2 ^ 64

theorem ataMaxOffset_lt (dev : AtaDevice) : ataMaxOffset dev < 2 ^ 64 :=
  Nat.mod_lt _ (by norm_num)

theorem ataMaxOffset_mod (dev : AtaDevice) : ataMaxOffset dev % ataSectorSize = 0 := by
  dsimp only [ataMaxOffset, ataSectorSize]
  omega

/-- The ATAPI capacity never wraps: a 32-bit block count times a 32-bit block size. -/
theorem atapiMaxOffset_eq (dev : AtaDevice) :
    atapiMaxOffset dev = if dev.atapiLba = 0 then 0
      else (dev.atapiLba + 1) * dev.atapiSectorSize := by
  unfold atapiMaxOffset
  split_ifs
  · rfl
  · apply Nat.mod_eq_of_lt
    calc (dev.atapiLba + 1) * dev.atapiSectorSize
        ≤ 2 ^ 32 * dev.atapiSectorSize := Nat.mul_le_mul_right _ dev.atapiLba_lt
      _ < 2 ^ 32 * 2 ^ 32 := Nat.mul_lt_mul_of_pos_left dev.atapiSectorSize_lt (by norm_num)
      _ = 2 ^ 64 := by norm_num

theorem atapiMaxOffset_mod (dev : AtaDevice) :
    atapiMaxOffset dev % dev.atapiSectorSize = 0 := by
  rw [atapiMaxOffset_eq]
  split_ifs
  · exact Nat.zero_mod _
  · exact Nat.mul_mod_left _ _

theorem atapiMaxOffset_lt (dev : AtaDevice) : atapiMaxOffset dev < 2 ^ 64 := by
  unfold atapiMaxOffset
  split_ifs
  · norm_num
  · exact Nat.mod_lt _ (by norm_num)

/-- The ATAPI capacity ends below block `2^32`: the packet's four index bytes reach every
block of it. -/
theorem atapiMaxOffset_le (dev : AtaDevice) : atapiMaxOffset dev ≤ 2 ^ 32 * dev.atapiSectorSize := by
  rw [atapiMaxOffset_eq]
  split_ifs
  · exact Nat.zero_le _
  · exact Nat.mul_le_mul_right _ dev.atapiLba_lt

/-! ## Concrete devices -/

/-- `/dev/hda`, the primary master (`io_base` `0x1F0`), a disk of 32 768 sectors (16 MiB). -/
def hda : AtaDevice where
  ioBase := 0x1F0
  slave := 0
  isAtapi := false
  identity := ⟨32768, 32768, by norm_num, by norm_num⟩
  dmaPrdtPhys := 0
  bar4 := 0
  atapiLba := 0
  atapiSectorSize := 0
  atapiLba_lt := by norm_num
  atapiSectorSize_lt := by norm_num

/-- `/dev/cdrom0`, the secondary master (`io_base` `0x170`), with a 700 MiB medium of
2048-byte blocks, last block 358 399. -/
def cdrom0 : AtaDevice where
  ioBase := 0x170
  slave := 0
  isAtapi := true
  identity := ⟨0, 0, by norm_num, by norm_num⟩
  dmaPrdtPhys := 0
  bar4 := 0
  atapiLba := 358399
  atapiSectorSize := 2048
  atapiLba_lt := by norm_num
  atapiSectorSize_lt := by norm_num

/-- A disk of `2^24 + 1` sectors, one sector more than 8 GiB. -/
def hdLarge : AtaDevice := { hda with identity := ⟨0, 2 ^ 24 + 1, by norm_num, by norm_num⟩ }

theorem ataMaxOffset_hda : ataMaxOffset hda = 16777216 := rfl

end Ata
end Toaru
