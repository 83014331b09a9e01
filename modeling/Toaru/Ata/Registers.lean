import Toaru.Ata.Adapter

/-!
# The sector commands on the task-file registers

`ata_device_read_sector` and `ata_device_write_sector` address a sector by writing its
index, byte by byte, to the task-file registers `io_base + 3 … io_base + 6`, and then
writing a command to `io_base + 7`. The writes are modelled as a list of
`(register, value)` pairs in program order; the device's side is the register file they
leave behind, and a write to the command register issues that command on the registers as
they stand (`issue`). A 28-bit command (`READ DMA`, `READ PIO`, `WRITE PIO`,
`CACHE FLUSH`) designates sector `LBA0 | LBA1 << 8 | LBA2 << 16 | (HDDEVSEL & 0x0F) << 24`
(`lba28`).

The DMA driver (`execvp.c`) writes the drive/head register as `0xe0 | slave << 4`, whose
low nibble is 0, and puts bits 24–47 of the index in the 48-bit registers `LBA3 … LBA5`,
which a 28-bit command does not read: every command it issues designates `lba mod 2^24`
(`issue_ataDeviceReadSector`), so sectors `2^24` apart share one address on any disk of
more than `2^24` sectors (`read_ata_sector_address_wraps`). The legacy driver
(`part_001`) puts bits 24–27 in the low nibble and designates `lba mod 2^28`
(`Legacy.issue_ataDeviceReadSector`).

The register offsets of `LBA3 … LBA5` and of the device-control register come from
`kernel/ata.h`, which is not among the sources; `RegMap` takes them as parameters, with
the one property the results use: none of them is a register of the 28-bit address or the
command register.
-/

set_option autoImplicit false

namespace Toaru
namespace Ata

/-! ## 1. Registers, commands, and the device's side -/

/-- `ATA_REG_DATA`, `ATA_REG_FEATURES`, `ATA_REG_SECCOUNT0`, `ATA_REG_LBA0 … LBA2`,
`ATA_REG_HDDEVSEL`, `ATA_REG_COMMAND`: the standard task file from `io_base`, where
`outportb(bus + 0x07, ATA_CMD_CACHE_FLUSH)` (`ata_device_write_sector`) places the command
register. -/
def ataRegData : Nat := 0x00
def ataRegFeatures : Nat := 0x01
def ataRegSeccount0 : Nat := 0x02
def ataRegLba0 : Nat := 0x03
def ataRegLba1 : Nat := 0x04
def ataRegLba2 : Nat := 0x05
def ataRegHddevsel : Nat := 0x06
def ataRegCommand : Nat := 0x07

/-- `ATA_CMD_READ_PIO`, `ATA_CMD_READ_DMA`, `ATA_CMD_WRITE_PIO`, `ATA_CMD_CACHE_FLUSH`: the
standard ATA opcodes (`kernel/ata.h`, not among the sources). -/
def ataCmdReadPio : Nat := 0x20
def ataCmdReadDma : Nat := 0xC8
def ataCmdWritePio : Nat := 0x30
def ataCmdCacheFlush : Nat := 0xE7

/-- The offsets `kernel/ata.h` gives `ATA_REG_CONTROL` and `ATA_REG_LBA3 … LBA5`. None of
them is one of `LBA0 … COMMAND`. -/
structure RegMap where
  control : Nat
  lba3 : Nat
  lba4 : Nat
  lba5 : Nat
  control_out : control < ataRegLba0 ∨ ataRegCommand < control
  lba3_out : lba3 < ataRegLba0 ∨ ataRegCommand < lba3
  lba4_out : lba4 < ataRegLba0 ∨ ataRegCommand < lba4
  lba5_out : lba5 < ataRegLba0 ∨ ataRegCommand < lba5

/-- `outportb(bus + reg, value)`, or one word of `outportsm` on the data register. -/
abbrev PortWrite := Nat × Nat

/-- The register file after one write: the register holds the value last written. -/
def store (tf : Nat → Nat) (w : PortWrite) : Nat → Nat := Function.update tf w.1 w.2

/-- The register file after a sequence of writes. -/
def run (tf : Nat → Nat) (ws : List PortWrite) : Nat → Nat := ws.foldl store tf

/-- The sector a 28-bit command designates. The four fields do not overlap (each register
holds a byte), so `|` is `+`. -/
def lba28 (tf : Nat → Nat) : Nat :=
  tf ataRegLba0 + tf ataRegLba1 * 2 ^ 8 + tf ataRegLba2 * 2 ^ 16 + tf ataRegHddevsel % 2 ^ 4 * 2 ^ 24

/-- The commands a sequence of writes issues, each with the sector it designates. -/
def issue : (Nat → Nat) → List PortWrite → List (Nat × Nat)
  | _, [] => []
  | tf, w :: ws =>
    if w.1 = ataRegCommand then (w.2, lba28 tf) :: issue (store tf w) ws
    else issue (store tf w) ws

theorem issue_cons (tf : Nat → Nat) (w : PortWrite) (ws : List PortWrite) :
    issue tf (w :: ws) =
      if w.1 = ataRegCommand then (w.2, lba28 tf) :: issue (store tf w) ws
      else issue (store tf w) ws := rfl

@[simp] theorem run_nil (tf : Nat → Nat) : run tf [] = tf := rfl

@[simp] theorem run_cons (tf : Nat → Nat) (w : PortWrite) (ws : List PortWrite) :
    run tf (w :: ws) = run (store tf w) ws := rfl

theorem run_append (tf : Nat → Nat) (ws ws' : List PortWrite) :
    run tf (ws ++ ws') = run (run tf ws) ws' := List.foldl_append _ _ _ _

theorem issue_append (tf : Nat → Nat) :
    ∀ ws ws' : List PortWrite, issue tf (ws ++ ws') = issue tf ws ++ issue (run tf ws) ws'
  | [], _ => rfl
  | w :: ws, ws' => by
    rw [List.cons_append, issue_cons, issue_cons, issue_append (store tf w) ws ws', run_cons]
    split_ifs <;> rfl

/-- Writes to registers other than the command register issue nothing. -/
theorem issue_of_ne (tf : Nat → Nat) :
    ∀ ws : List PortWrite, (∀ w ∈ ws, w.1 ≠ ataRegCommand) → issue tf ws = []
  | [], _ => rfl
  | w :: ws, h => by
    rw [issue, if_neg (h w (List.mem_cons_self _ _)),
      issue_of_ne _ ws fun w' hw' => h w' (List.mem_cons_of_mem _ hw')]

theorem issue_command (tf : Nat → Nat) (c : Nat) :
    issue tf [(ataRegCommand, c)] = [(c, lba28 tf)] := by
  simp only [issue, if_true]

/-- Writes to registers outside the 28-bit address leave the designated sector alone. -/
theorem lba28_run_of_out (tf : Nat → Nat) :
    ∀ ws : List PortWrite, (∀ w ∈ ws, w.1 < ataRegLba0 ∨ ataRegHddevsel < w.1) →
      lba28 (run tf ws) = lba28 tf
  | [], _ => rfl
  | w :: ws, h => by
    have hw := h w (List.mem_cons_self _ _)
    rw [run_cons, lba28_run_of_out _ ws fun w' hw' => h w' (List.mem_cons_of_mem _ hw')]
    simp only [lba28, store, ataRegLba0, ataRegLba1, ataRegLba2, ataRegHddevsel] at hw ⊢
    rw [Function.update_noteq (by omega), Function.update_noteq (by omega),
      Function.update_noteq (by omega), Function.update_noteq (by omega)]

/-! ## 2. Bytes of the index -/

theorem byte0 (lba : Nat) : (lba &&& 0x000000ff) >>> 0 = lba % 2 ^ 8 := by
  rw [land_shiftRight_eq_div_mod lba 0xff 0 8 rfl, Nat.pow_zero, Nat.div_one]

theorem byte1 (lba : Nat) : (lba &&& 0x0000ff00) >>> 8 = lba / 2 ^ 8 % 2 ^ 8 :=
  land_shiftRight_eq_div_mod lba _ 8 8 rfl

theorem byte2 (lba : Nat) : (lba &&& 0x00ff0000) >>> 16 = lba / 2 ^ 16 % 2 ^ 8 :=
  land_shiftRight_eq_div_mod lba _ 16 8 rfl

theorem nibble3 (lba : Nat) : (lba &&& 0x0f000000) >>> 24 = lba / 2 ^ 24 % 2 ^ 4 :=
  land_shiftRight_eq_div_mod lba _ 24 4 rfl

/-- The drive/head byte of the DMA driver carries no address bits. -/
theorem devsel_mod (slave : Fin 2) : (0xe0 ||| slave.val <<< 4) % 2 ^ 4 = 0 := by
  revert slave; decide

/-- The drive/head byte of the legacy driver carries bits 24–27 of the index. -/
theorem devsel_legacy_mod (slave : Fin 2) (x : Nat) (hx : x < 2 ^ 4) :
    (0xe0 ||| slave.val <<< 4 ||| x) % 2 ^ 4 = x := by
  have key : ∀ s : Fin 2, ∀ y : Fin 16, (0xe0 ||| s.val <<< 4 ||| y.val) % 2 ^ 4 = y.val := by
    decide
  exact key slave ⟨x, hx⟩

/-! ## 3. The DMA driver's sector commands -/

/-- Features 0, count 1 and the three low bytes of the index: the writes both drivers make
between the drive select and the command. -/
def addressWrites (lba : Nat) : List PortWrite :=
  [(ataRegFeatures, 0x00), (ataRegSeccount0, 1),
    (ataRegLba0, (lba &&& 0x000000ff) >>> 0),
    (ataRegLba1, (lba &&& 0x0000ff00) >>> 8),
    (ataRegLba2, (lba &&& 0x00ff0000) >>> 16)]

/-- The address writes with the masks and shifts as divisions. -/
theorem addressWrites_eq (lba : Nat) :
    addressWrites lba = [(ataRegFeatures, 0), (ataRegSeccount0, 1), (ataRegLba0, lba % 2 ^ 8),
      (ataRegLba1, lba / 2 ^ 8 % 2 ^ 8), (ataRegLba2, lba / 2 ^ 16 % 2 ^ 8)] := by
  rw [addressWrites, byte0, byte1, byte2]

/-- The 48-bit high bytes of the DMA driver. -/
def highWrites (regs : RegMap) (lba : Nat) : List PortWrite :=
  [(regs.lba3, (lba &&& 0xff000000) >>> 24),
    (regs.lba4, (lba &&& 0xff00000000) >>> 32),
    (regs.lba5, (lba &&& 0xff0000000000) >>> 40)]

/-- The sector's 256 words on the data register (`outportsm(bus, buf, 256)`). -/
def dataWrites (buf : Mem) : List PortWrite :=
  (List.range 256).map fun i => (ataRegData, (buf (2 * i)).toNat + (buf (2 * i + 1)).toNat * 2 ^ 8)

/-- The task-file writes of `ata_device_read_sector`, in order; on an ATAPI device it
returns before any. The bus-master writes to `bar4` go to another device. -/
def ataDeviceReadSector (regs : RegMap) (dev : AtaDevice) (lba : Nat) : List PortWrite :=
  if dev.isAtapi then [] else
    [(regs.control, 0x00), (ataRegHddevsel, 0xe0 ||| dev.slave.val <<< 4)] ++ addressWrites lba ++
      highWrites regs lba ++ [(ataRegCommand, ataCmdReadDma)]

/-- The task-file writes of `ata_device_write_sector`: the address, `WRITE PIO`, the
sector's words, `CACHE FLUSH`. -/
def ataDeviceWriteSector (regs : RegMap) (dev : AtaDevice) (lba : Nat) (buf : Mem) :
    List PortWrite :=
  [(regs.control, 0x02), (ataRegHddevsel, 0xe0 ||| dev.slave.val <<< 4)] ++ addressWrites lba ++
    highWrites regs lba ++ [(ataRegCommand, ataCmdWritePio)] ++ dataWrites buf ++
    [(ataRegCommand, ataCmdCacheFlush)]

theorem highWrites_out (regs : RegMap) (lba : Nat) :
    ∀ w ∈ highWrites regs lba, w.1 < ataRegLba0 ∨ ataRegCommand < w.1 := by
  simp only [highWrites, List.mem_cons, List.mem_singleton, List.not_mem_nil, or_false,
    forall_eq_or_imp, forall_eq]
  exact ⟨regs.lba3_out, regs.lba4_out, regs.lba5_out⟩

theorem dataWrites_out (buf : Mem) :
    ∀ w ∈ dataWrites buf, w.1 < ataRegLba0 ∨ ataRegCommand < w.1 := by
  simp only [dataWrites, List.mem_map, List.mem_range]
  rintro _ ⟨i, -, rfl⟩
  exact .inl (by decide : ataRegData < ataRegLba0)

theorem not_command_of_out {w : PortWrite} (h : w.1 < ataRegLba0 ∨ ataRegCommand < w.1) :
    w.1 ≠ ataRegCommand := by
  simp only [ataRegLba0, ataRegCommand] at h ⊢; omega

/-- The address the DMA driver's select and address writes leave, from any register file. -/
theorem lba28_dmaAddress (regs : RegMap) (c : Nat) (slave : Fin 2) (lba : Nat) (tf : Nat → Nat) :
    lba28 (run tf ([(regs.control, c), (ataRegHddevsel, 0xe0 ||| slave.val <<< 4)] ++
      addressWrites lba ++ highWrites regs lba)) = lba % 2 ^ 24 := by
  rw [run_append, lba28_run_of_out _ _ fun w hw =>
    (highWrites_out regs lba w hw).imp_right (Nat.lt_trans (by decide))]
  have hc := regs.control_out
  simp only [ataRegLba0, ataRegCommand] at hc
  have h3 : ¬ (3 = regs.control) := by omega
  have h4 : ¬ (4 = regs.control) := by omega
  have h5 : ¬ (5 = regs.control) := by omega
  have h6 : ¬ (6 = regs.control) := by omega
  simp only [lba28, addressWrites_eq, run_append, run_cons, run_nil, store, Function.update_apply,
    ataRegLba0, ataRegLba1, ataRegLba2, ataRegHddevsel, ataRegFeatures, ataRegSeccount0,
    h3, h4, h5, h6, Nat.reduceEqDiff, if_true, if_false]
  rw [devsel_mod]
  omega

/-- The select and address writes of the DMA driver issue no command. -/
theorem no_command_dmaAddress (regs : RegMap) (c d lba : Nat) :
    ∀ w ∈ [(regs.control, c), (ataRegHddevsel, d)] ++ addressWrites lba ++ highWrites regs lba,
      w.1 ≠ ataRegCommand := by
  intro w hw
  rcases List.mem_append.mp hw with hw | hw
  · simp only [List.mem_append, addressWrites_eq, List.mem_cons, List.mem_singleton,
      List.not_mem_nil, or_false] at hw
    rcases hw with (rfl | rfl) | rfl | rfl | rfl | rfl | rfl
    · exact not_command_of_out regs.control_out
    all_goals first | decide | (dsimp only; decide)
  · exact not_command_of_out (highWrites_out regs lba w hw)

/-- `ata_device_read_sector` on an ATA device issues one command, `READ DMA`, and it
designates `lba mod 2^24`. -/
theorem issue_ataDeviceReadSector (regs : RegMap) (dev : AtaDevice) (h : dev.isAtapi = false)
    (lba : Nat) (tf : Nat → Nat) :
    issue tf (ataDeviceReadSector regs dev lba) = [(ataCmdReadDma, lba % 2 ^ 24)] := by
  rw [ataDeviceReadSector, if_neg (by rw [h]; decide), issue_append,
    issue_of_ne _ _ (no_command_dmaAddress regs _ _ lba), issue_command, lba28_dmaAddress]
  rfl

/-- `ata_device_write_sector` issues `WRITE PIO` and then `CACHE FLUSH`, both designating
`lba mod 2^24`. -/
theorem issue_ataDeviceWriteSector (regs : RegMap) (dev : AtaDevice) (lba : Nat) (buf : Mem)
    (tf : Nat → Nat) :
    issue tf (ataDeviceWriteSector regs dev lba buf) =
      [(ataCmdWritePio, lba % 2 ^ 24), (ataCmdCacheFlush, lba % 2 ^ 24)] := by
  have hdata : ∀ w ∈ dataWrites buf, w.1 < ataRegLba0 ∨ ataRegHddevsel < w.1 :=
    fun w hw => (dataWrites_out buf w hw).imp_right (Nat.lt_trans (by decide))
  have hpre := lba28_dmaAddress regs 0x02 dev.slave lba tf
  have hno := no_command_dmaAddress regs 0x02 (0xe0 ||| dev.slave.val <<< 4) lba
  rw [ataDeviceWriteSector]
  generalize [(regs.control, 0x02), (ataRegHddevsel, 0xe0 ||| dev.slave.val <<< 4)] ++
    addressWrites lba ++ highWrites regs lba = pre at hpre hno ⊢
  rw [issue_append, issue_append, issue_append, issue_of_ne _ _ hno, issue_command,
    issue_of_ne _ _ fun w hw => not_command_of_out (dataWrites_out buf w hw), issue_command,
    run_append, run_append, lba28_run_of_out _ _ hdata,
    lba28_run_of_out _ [(ataRegCommand, _)] (by simp only [List.mem_singleton, forall_eq]; exact .inr (by decide)),
    hpre]
  rfl

/-- The DMA driver on a disk of more than `2^24` sectors: `read_ata` at byte `2^33` hands
sector `2^24` to `ata_device_read_sector`, whose `READ DMA` designates sector 0, the
address of sector 0 itself. -/
theorem read_ata_sector_address_wraps (regs : RegMap) (tf : Nat → Nat) :
    Returns (blockAdapter ataSectorSize (ataMaxOffset hdLarge) (2 ^ 33) 512)
        ([.whole (2 ^ 24) 0], 512) ∧
      issue tf (ataDeviceReadSector regs hdLarge (2 ^ 24)) = [(ataCmdReadDma, 0)] ∧
      issue tf (ataDeviceReadSector regs hdLarge 0) = [(ataCmdReadDma, 0)] :=
  ⟨⟨2, by decide⟩, issue_ataDeviceReadSector regs hdLarge rfl _ tf,
    issue_ataDeviceReadSector regs hdLarge rfl _ tf⟩

/-- The sector commands of the DMA driver, for every layout of the header that keeps the
high address bytes and the control register off the 28-bit task file: a read issues
`READ DMA` and a write `WRITE PIO` then `CACHE FLUSH`, each designating `lba mod 2^24`. -/
theorem ata_device_sector_commands (regs : RegMap) (dev : AtaDevice) (h : dev.isAtapi = false)
    (lba : Nat) (buf : Mem) (tf : Nat → Nat) :
    issue tf (ataDeviceReadSector regs dev lba) = [(ataCmdReadDma, lba % 2 ^ 24)] ∧
      issue tf (ataDeviceWriteSector regs dev lba buf) =
        [(ataCmdWritePio, lba % 2 ^ 24), (ataCmdCacheFlush, lba % 2 ^ 24)] :=
  ⟨issue_ataDeviceReadSector regs dev h lba tf, issue_ataDeviceWriteSector regs dev lba buf tf⟩

/-- The layout of ToaruOS's `kernel/ata.h`: `LBA3 … LBA5` at `0x09 … 0x0B`, control at
`0x0C`. -/
def toaruRegs : RegMap := ⟨0x0C, 0x09, 0x0A, 0x0B, by decide, by decide, by decide, by decide⟩

theorem ata_device_sector_commands_hda :
    hda.isAtapi = false ∧
      issue (fun _ => 0) (ataDeviceReadSector toaruRegs hda 5) = [(ataCmdReadDma, 5 % 2 ^ 24)] ∧
      issue (fun _ => 0) (ataDeviceWriteSector toaruRegs hda 5 (fun _ => 0)) =
        [(ataCmdWritePio, 5 % 2 ^ 24), (ataCmdCacheFlush, 5 % 2 ^ 24)] :=
  ⟨rfl, ata_device_sector_commands toaruRegs hda rfl 5 (fun _ => 0) (fun _ => 0)⟩

end Ata

/-! ## 4. The legacy driver's sector commands -/

namespace Legacy

open Ata

/-- The drive select and address writes of the legacy driver (`part_001`): bits 24–27 of
the index go to the low nibble of the drive/head register. -/
def selectWrites (regs : RegMap) (dev : AtaDevice) (lba : Nat) : List PortWrite :=
  [(regs.control, 0x02), (ataRegHddevsel, 0xe0 ||| dev.slave.val <<< 4 ||| (lba &&& 0x0f000000) >>> 24)] ++
    addressWrites lba

/-- One attempt of the legacy `ata_device_read_sector`. -/
def readAttempt (regs : RegMap) (dev : AtaDevice) (lba : Nat) : List PortWrite :=
  selectWrites regs dev lba ++ [(ataRegCommand, ataCmdReadPio)]

/-- The legacy `ata_device_read_sector`: the attempt is repeated while `ata_wait(dev, 1)`
reports an error, and abandoned after the fifth error; `failures` is the number of errors
in a row the device reports. -/
def ataDeviceReadSector (regs : RegMap) (dev : AtaDevice) (lba failures : Nat) :
    List PortWrite :=
  (List.replicate (min (failures + 1) 5) (readAttempt regs dev lba)).flatten

/-- The legacy `ata_device_write_sector`. -/
def ataDeviceWriteSector (regs : RegMap) (dev : AtaDevice) (lba : Nat) (buf : Mem) :
    List PortWrite :=
  selectWrites regs dev lba ++ [(ataRegCommand, ataCmdWritePio)] ++ dataWrites buf ++
    [(ataRegCommand, ataCmdCacheFlush)]

theorem lba28_selectWrites (regs : RegMap) (dev : AtaDevice) (lba : Nat) (tf : Nat → Nat) :
    lba28 (run tf (selectWrites regs dev lba)) = lba % 2 ^ 28 := by
  have hc := regs.control_out
  simp only [ataRegLba0, ataRegCommand] at hc
  have h3 : ¬ (3 = regs.control) := by omega
  have h4 : ¬ (4 = regs.control) := by omega
  have h5 : ¬ (5 = regs.control) := by omega
  have h6 : ¬ (6 = regs.control) := by omega
  simp only [selectWrites, lba28, addressWrites_eq, run_append, run_cons, run_nil, store,
    Function.update_apply, ataRegLba0, ataRegLba1, ataRegLba2, ataRegHddevsel, ataRegFeatures,
    ataRegSeccount0, h3, h4, h5, h6, Nat.reduceEqDiff, if_true, if_false]
  rw [nibble3, devsel_legacy_mod _ _ (Nat.mod_lt _ (by norm_num))]
  omega

theorem no_command_selectWrites (regs : RegMap) (dev : AtaDevice) (lba : Nat) :
    ∀ w ∈ selectWrites regs dev lba, w.1 ≠ ataRegCommand := by
  intro w hw
  simp only [selectWrites, List.mem_append, addressWrites_eq, List.mem_cons, List.mem_singleton,
    List.not_mem_nil, or_false] at hw
  rcases hw with (rfl | rfl) | rfl | rfl | rfl | rfl | rfl
  · exact not_command_of_out regs.control_out
  all_goals first | decide | (dsimp only; decide)

theorem issue_readAttempt (regs : RegMap) (dev : AtaDevice) (lba : Nat) (tf : Nat → Nat) :
    issue tf (readAttempt regs dev lba) = [(ataCmdReadPio, lba % 2 ^ 28)] := by
  rw [readAttempt, issue_append, issue_of_ne _ _ (no_command_selectWrites regs dev lba),
    issue_command, lba28_selectWrites]
  rfl

/-- Every attempt of the legacy read issues `READ PIO` designating `lba mod 2^28`. -/
theorem issue_ataDeviceReadSector (regs : RegMap) (dev : AtaDevice) (lba failures : Nat)
    (tf : Nat → Nat) :
    issue tf (ataDeviceReadSector regs dev lba failures) =
      List.replicate (min (failures + 1) 5) (ataCmdReadPio, lba % 2 ^ 28) := by
  rw [ataDeviceReadSector]
  generalize min (failures + 1) 5 = n
  induction n generalizing tf with
  | zero => rfl
  | succ n ih =>
    rw [List.replicate_succ, List.flatten_cons, issue_append, issue_readAttempt, ih,
      List.replicate_succ, List.singleton_append]

/-- The legacy `ata_device_write_sector` issues `WRITE PIO` and then `CACHE FLUSH`, both
designating `lba mod 2^28`. -/
theorem issue_ataDeviceWriteSector (regs : RegMap) (dev : AtaDevice) (lba : Nat) (buf : Mem)
    (tf : Nat → Nat) :
    issue tf (ataDeviceWriteSector regs dev lba buf) =
      [(ataCmdWritePio, lba % 2 ^ 28), (ataCmdCacheFlush, lba % 2 ^ 28)] := by
  have hdata : ∀ w ∈ dataWrites buf, w.1 < ataRegLba0 ∨ ataRegHddevsel < w.1 :=
    fun w hw => (dataWrites_out buf w hw).imp_right (Nat.lt_trans (by decide))
  rw [ataDeviceWriteSector, issue_append, issue_append, issue_append,
    issue_of_ne _ _ (no_command_selectWrites regs dev lba), issue_command,
    issue_of_ne _ _ fun w hw => not_command_of_out (dataWrites_out buf w hw), issue_command,
    run_append, run_append, lba28_run_of_out _ _ hdata,
    lba28_run_of_out _ [(ataRegCommand, _)] (by simp only [List.mem_singleton, forall_eq]; exact .inr (by decide)),
    lba28_selectWrites]
  rfl

/-- The sector commands of the legacy driver: every attempt of a read issues `READ PIO`,
and a write `WRITE PIO` then `CACHE FLUSH`, each designating `lba mod 2^28`. -/
theorem legacy_sector_commands (regs : RegMap) (dev : AtaDevice) (lba failures : Nat) (buf : Mem)
    (tf : Nat → Nat) :
    issue tf (Legacy.ataDeviceReadSector regs dev lba failures) =
        List.replicate (min (failures + 1) 5) (ataCmdReadPio, lba % 2 ^ 28) ∧
      issue tf (Legacy.ataDeviceWriteSector regs dev lba buf) =
        [(ataCmdWritePio, lba % 2 ^ 28), (ataCmdCacheFlush, lba % 2 ^ 28)] :=
  ⟨Legacy.issue_ataDeviceReadSector regs dev lba failures tf,
    Legacy.issue_ataDeviceWriteSector regs dev lba buf tf⟩

end Legacy
end Toaru
