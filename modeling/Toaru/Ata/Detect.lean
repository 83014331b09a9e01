import Toaru.Ata.Atapi

/-!
# Drive detection: `ata_device_detect` and `ata_initialize`

`ata_initialize` (`execvp.c`) probes the four `static struct ata_device`s in turn with
`ata_device_detect`, which resets the device and reads the signature it leaves in `LBA1`
and `LBA2`. A parallel ATA signature (`00 00`, or `3C C3` for emulated SATA) mounts a node
at `/dev/hd%c` with the letter `ata_drive_char`, which it then advances, and runs
`ata_device_init`; an ATAPI signature (`14 EB` or `69 96`) mounts one at `/dev/cdrom%d`
with `cdrom_number` if `atapi_device_init` accepts the medium, and advances the number only
then; any other signature mounts nothing.

The hardware's answers are the input (`Probe`): the signature, the IDENTIFY block's
capacity words, the READ CAPACITY reply, and what `kvmalloc_p` and PCI return. Over every
answer, the paths mounted are the letters from `a` and the numbers from `0` in probe order,
with no gaps and no path mounted twice (`ata_initialize_paths`). A disk's node takes its
`length` from `ata_max_offset` before `ata_device_init` has read the IDENTIFY block into
the zeroed static descriptor, so it is `0` whatever the disk reports, while `read_ata`
through the same node uses the IDENTIFY capacity (`ata_initialize_disk_length_zero`). A CD
drive's node is created after `atapi_device_init`, and its length is the capacity of the
drive's reply (`ata_initialize_cdrom_length`).

Left out: the register traffic of the reset and the waits (`ata_status_wait` with its
timeout, and the unbounded polls of `ata_wait` and `atapi_device_init`), the model-string
swap, `debug_print`, and the node fields no modelled function reads (`name`, `mask`,
`uid`, `gid`, `flags`). The paths are kept as the two `sprintf` formats' arguments.
-/

set_option autoImplicit false

namespace Toaru
namespace Ata

/-! ## 1. The model -/

/-- What the hardware answers to the probe of one device: the signature in `LBA1` (`cl`)
and `LBA2` (`ch`), the capacity words of the 256-word IDENTIFY (or IDENTIFY PACKET) block,
the physical address `kvmalloc_p` gives the PRDT, the PCI `BAR4`, and the READ CAPACITY
reply (`none` when a poll sees `ERR`). -/
structure Probe where
  cl : UInt8
  ch : UInt8
  identify : AtaIdentify
  prdtPhys : Nat
  pciBar4 : Nat
  capacity : Option CapacityReply

/-- `ata_device_init`: the IDENTIFY block, `is_atapi = 0`, the PRDT, and `BAR4`, its two
low bits cleared when bit 0 marks it an I/O port, else kept as read (and no DMA set up). -/
def ataDeviceInit (dev : AtaDevice) (p : Probe) : AtaDevice :=
  { dev with identity := p.identify, isAtapi := false, dmaPrdtPhys := p.prdtPhys,
             bar4 := if p.pciBar4 &&& 1 ≠ 0 then p.pciBar4 &&& 0xFFFFFFFC else p.pciBar4 }

/-- `atapi_device_init` up to its READ CAPACITY: `is_atapi = 1` and the IDENTIFY PACKET
block. The rest is `atapiDeviceInit`. -/
def atapiIdentify (dev : AtaDevice) (p : Probe) : AtaDevice :=
  { dev with isAtapi := true, identity := p.identify }

/-- The path given to `vfs_mount`: `"/dev/hd%c"` with `ata_drive_char`, or
`"/dev/cdrom%d"` with `cdrom_number`. -/
inductive DevPath
  | hd (driveChar : Nat)
  | cdrom (number : Nat)
  deriving DecidableEq, Repr

/-- The letter of a `/dev/hd` path. -/
def DevPath.hdChar : DevPath → Option Nat
  | .hd c => some c
  | .cdrom _ => none

/-- The number of a `/dev/cdrom` path. -/
def DevPath.cdromNumber : DevPath → Option Nat
  | .hd _ => none
  | .cdrom n => some n

/-- The node's functions: the DMA driver's `read_ata` and `write_ata`, its `read_atapi` and
no `write`, or the legacy driver's (`part_001`) `read_ata` and `write_ata`. -/
inductive NodeKind
  | ata
  | atapi
  | legacy
  deriving DecidableEq, Repr

/-- A mounted node: its path, its functions, `fnode->length` as set when it was created,
and the descriptor its `device` pointer reaches once detection is over. -/
structure Mount where
  path : DevPath
  kind : NodeKind
  length : Nat
  device : AtaDevice

/-- `ata_device_create`. -/
def ataDeviceCreate (path : DevPath) (dev : AtaDevice) : Mount := ⟨path, .ata, ataMaxOffset dev, dev⟩

/-- `atapi_device_create`. -/
def atapiDeviceCreate (path : DevPath) (dev : AtaDevice) : Mount :=
  ⟨path, .atapi, atapiMaxOffset dev, dev⟩

/-- The driver's state across probes: `ata_drive_char`, `cdrom_number`, and the nodes
mounted so far, in order. -/
structure DetectState where
  ataDriveChar : Nat
  cdromNumber : Nat
  mounts : List Mount

/-- `ata_drive_char = 'a'`, `cdrom_number = 0`, nothing mounted. -/
def DetectState.init : DetectState := ⟨'a'.toNat, 0, []⟩

/-- `ata_device_detect(dev)`: the value returned and the state after. A disk's node is
created from the descriptor before `ata_device_init` fills it in, and its `device` pointer
then sees the filled-in descriptor. -/
def ataDeviceDetect (st : DetectState) (dev : AtaDevice) (p : Probe) : Nat × DetectState :=
  if p.cl = 0xFF ∧ p.ch = 0xFF then (0, st)
  else if (p.cl = 0x00 ∧ p.ch = 0x00) ∨ (p.cl = 0x3C ∧ p.ch = 0xC3) then
    (1, { st with
      ataDriveChar := st.ataDriveChar + 1
      mounts := st.mounts ++
        [{ ataDeviceCreate (.hd st.ataDriveChar) dev with device := ataDeviceInit dev p }] })
  else if (p.cl = 0x14 ∧ p.ch = 0xEB) ∨ (p.cl = 0x69 ∧ p.ch = 0x96) then
    match ataDeviceDetectAtapi (atapiIdentify dev p) p.capacity with
    | (r, none) => (r, st)
    | (r, some dev') => (r, { st with
        cdromNumber := st.cdromNumber + 1
        mounts := st.mounts ++ [atapiDeviceCreate (.cdrom st.cdromNumber) dev'] })
  else (0, st)

/-- Devices probed one after the other. -/
def detectAll (st : DetectState) (devs : List (AtaDevice × Probe)) : DetectState :=
  devs.foldl (fun st dp => (ataDeviceDetect st dp.1 dp.2).2) st

/-- A `static struct ata_device` as the program starts: `io_base` and `slave` set, every
other field zero. -/
def staticDevice (ioBase : Nat) (slave : Fin 2) : AtaDevice where
  ioBase := ioBase
  slave := slave
  isAtapi := false
  identity := ⟨0, 0, by norm_num, by norm_num⟩
  dmaPrdtPhys := 0
  bar4 := 0
  atapiLba := 0
  atapiSectorSize := 0
  atapiLba_lt := by norm_num
  atapiSectorSize_lt := by norm_num

/-- `ata_primary_master`, `ata_primary_slave`, `ata_secondary_master`,
`ata_secondary_slave`, in the order `ata_initialize` probes them. -/
def ataDevices : List AtaDevice :=
  [staticDevice 0x1F0 0, staticDevice 0x1F0 1, staticDevice 0x170 0, staticDevice 0x170 1]

/-- `ata_initialize`, where `probe ioBase slave` is what the hardware answers there. -/
def ataInitialize (probe : Nat → Fin 2 → Probe) : DetectState :=
  detectAll .init (ataDevices.map fun dev => (dev, probe dev.ioBase dev.slave))

/-! ## 2. One probe -/

/-- What one probe can do: mount nothing, mount a disk, or mount a CD drive that
`atapi_device_init` accepted. -/
theorem ataDeviceDetect_cases (st : DetectState) (dev : AtaDevice) (p : Probe) :
    (ataDeviceDetect st dev p).2 = st ∨
    (ataDeviceDetect st dev p).2 = { st with
      ataDriveChar := st.ataDriveChar + 1
      mounts := st.mounts ++
        [{ ataDeviceCreate (.hd st.ataDriveChar) dev with device := ataDeviceInit dev p }] } ∨
    ∃ r dev', ataDeviceDetectAtapi (atapiIdentify dev p) p.capacity = (r, some dev') ∧
      (ataDeviceDetect st dev p).2 = { st with
        cdromNumber := st.cdromNumber + 1
        mounts := st.mounts ++ [atapiDeviceCreate (.cdrom st.cdromNumber) dev'] } := by
  unfold ataDeviceDetect
  split_ifs
  · exact .inl rfl
  · exact .inr (.inl rfl)
  · rcases h : ataDeviceDetectAtapi (atapiIdentify dev p) p.capacity with ⟨r, _ | dev'⟩
    · exact .inl rfl
    · exact .inr (.inr ⟨r, dev', rfl, rfl⟩)
  · exact .inl rfl

/-- The node a probe of `dev` can have mounted. -/
def MountFrom (dev : AtaDevice) (p : Probe) (m : Mount) : Prop :=
  m = { ataDeviceCreate m.path dev with device := ataDeviceInit dev p } ∨
    ∃ r dev', ataDeviceDetectAtapi (atapiIdentify dev p) p.capacity = (r, some dev') ∧
      m = atapiDeviceCreate m.path dev'

/-- Every node mounted by a run of probes was there before or comes from one of them. -/
theorem mem_detectAll {m : Mount} :
    ∀ {devs : List (AtaDevice × Probe)} {st : DetectState}, m ∈ (detectAll st devs).mounts →
      m ∈ st.mounts ∨ ∃ dp ∈ devs, MountFrom dp.1 dp.2 m
  | [], _, h => .inl h
  | (dev, p) :: devs, st, h => by
    rcases @mem_detectAll m devs (ataDeviceDetect st dev p).2 h with h | ⟨dp, hdp, hm⟩
    · rcases ataDeviceDetect_cases st dev p with hs | hs | ⟨r, dev', hd, hs⟩ <;>
        rw [hs] at h
      · exact .inl h
      · rcases List.mem_append.1 h with h | h
        · exact .inl h
        · exact .inr ⟨(dev, p), List.mem_cons_self _ _, .inl (by obtain rfl := List.mem_singleton.1 h; rfl)⟩
      · rcases List.mem_append.1 h with h | h
        · exact .inl h
        · exact .inr ⟨(dev, p), List.mem_cons_self _ _,
            .inr ⟨r, dev', hd, by obtain rfl := List.mem_singleton.1 h; rfl⟩⟩
    · exact .inr ⟨dp, List.mem_cons_of_mem _ hdp, hm⟩

/-! ## 3. The paths -/

/-- The letters mounted are those from `a` below `ata_drive_char`, the numbers those below
`cdrom_number`, each in the order mounted. -/
structure DetectInv (st : DetectState) : Prop where
  base : 'a'.toNat ≤ st.ataDriveChar
  hd_chars : st.mounts.filterMap (·.path.hdChar) =
    List.range' 'a'.toNat (st.ataDriveChar - 'a'.toNat)
  cdrom_numbers : st.mounts.filterMap (·.path.cdromNumber) = List.range st.cdromNumber

theorem DetectInv.init : DetectInv .init := ⟨le_rfl, rfl, rfl⟩

theorem DetectInv.detect {st : DetectState} (hi : DetectInv st) (dev : AtaDevice) (p : Probe) :
    DetectInv (ataDeviceDetect st dev p).2 := by
  rcases ataDeviceDetect_cases st dev p with hs | hs | ⟨r, dev', -, hs⟩ <;> rw [hs]
  · exact hi
  · refine ⟨Nat.le_succ_of_le hi.base, ?_, ?_⟩
    · show _ = List.range' 'a'.toNat (st.ataDriveChar + 1 - 'a'.toNat)
      rw [List.filterMap_append, hi.hd_chars, Nat.sub_add_comm hi.base, List.range'_concat]
      simp only [ataDeviceCreate, DevPath.hdChar, List.filterMap_cons, List.filterMap_nil]
      have := hi.base
      congr 2
      omega
    · simpa [ataDeviceCreate, DevPath.cdromNumber] using hi.cdrom_numbers
  · refine ⟨hi.base, ?_, ?_⟩
    · simpa [atapiDeviceCreate, DevPath.hdChar] using hi.hd_chars
    · rw [List.filterMap_append, hi.cdrom_numbers, List.range_succ]
      rfl

theorem DetectInv.detectAll :
    ∀ (devs : List (AtaDevice × Probe)) {st : DetectState}, DetectInv st →
      DetectInv (detectAll st devs)
  | [], _, hi => hi
  | (dev, p) :: devs, _, hi => DetectInv.detectAll devs (hi.detect dev p)

/-- Paths with no letter and no number twice are all distinct. -/
theorem nodup_paths : ∀ ms : List Mount, (ms.filterMap (·.path.hdChar)).Nodup →
    (ms.filterMap (·.path.cdromNumber)).Nodup → (ms.map Mount.path).Nodup
  | [], _, _ => List.nodup_nil
  | m :: ms, h₁, h₂ => by
    rw [List.map_cons, List.nodup_cons]
    rcases hm : m.path with c | n <;>
      simp only [List.filterMap_cons, hm, DevPath.hdChar, DevPath.cdromNumber,
        List.nodup_cons] at h₁ h₂
    · refine ⟨fun h => h₁.1 ?_, nodup_paths ms h₁.2 h₂⟩
      obtain ⟨m', hm', hp⟩ := List.mem_map.1 h
      exact List.mem_filterMap.2 ⟨m', hm', by rw [hp]⟩
    · refine ⟨fun h => h₂.1 ?_, nodup_paths ms h₁ h₂.2⟩
      obtain ⟨m', hm', hp⟩ := List.mem_map.1 h
      exact List.mem_filterMap.2 ⟨m', hm', by rw [hp]⟩

/-- For every answer of the hardware, `ata_initialize` mounts no path twice: the disks get
the letters from `a` on and the CD drives the numbers from `0` on, each with no gap, in the
order the devices were found. -/
theorem ata_initialize_paths (probe : Nat → Fin 2 → Probe) :
    let st := ataInitialize probe
    (st.mounts.map Mount.path).Nodup ∧
      st.mounts.filterMap (·.path.hdChar) = List.range' 'a'.toNat (st.ataDriveChar - 'a'.toNat) ∧
      st.mounts.filterMap (·.path.cdromNumber) = List.range st.cdromNumber := by
  have hi := DetectInv.detectAll (ataDevices.map fun dev => (dev, probe dev.ioBase dev.slave))
    DetectInv.init
  refine ⟨nodup_paths _ ?_ ?_, hi.hd_chars, hi.cdrom_numbers⟩
  · rw [ataInitialize, hi.hd_chars]; exact List.nodup_range' _ _
  · rw [ataInitialize, hi.cdrom_numbers]; exact List.nodup_range _

/-! ## 4. The lengths -/

theorem mem_ataInitialize {probe : Nat → Fin 2 → Probe} {m : Mount}
    (h : m ∈ (ataInitialize probe).mounts) :
    ∃ dev ∈ ataDevices, MountFrom dev (probe dev.ioBase dev.slave) m := by
  rcases mem_detectAll h with h | ⟨dp, hdp, hm⟩
  · exact absurd h (List.not_mem_nil _)
  · obtain ⟨dev, hdev, rfl⟩ := List.mem_map.1 hdp
    exact ⟨dev, hdev, hm⟩

/-- For every answer of the hardware, every `/dev/hd` node `ata_initialize` mounts has
length `0`, while the descriptor its reads go through holds the IDENTIFY block that the
disk at that port returned. -/
theorem ata_initialize_disk_length_zero (probe : Nat → Fin 2 → Probe) :
    ∀ m ∈ (ataInitialize probe).mounts, m.kind = .ata →
      m.length = 0 ∧ m.device.identity = (probe m.device.ioBase m.device.slave).identify := by
  intro m hm hk
  obtain ⟨dev, hdev, hm | ⟨r, dev', -, hm⟩⟩ := mem_ataInitialize hm
  · have hzero : ataMaxOffset dev = 0 := by
      simp only [ataDevices, List.mem_cons, List.mem_singleton, List.not_mem_nil, or_false] at hdev
      rcases hdev with rfl | rfl | rfl | rfl <;> rfl
    rw [hm]
    exact ⟨hzero, rfl⟩
  · rw [hm] at hk
    cases hk

/-- A machine with a disk of 32 768 sectors as primary master, a
CD drive with the medium of `cdrom0Reply` as secondary master, nothing else. -/
def hdaCdromProbe (ioBase : Nat) (slave : Fin 2) : Probe :=
  if ioBase = 0x1F0 ∧ slave = 0 then ⟨0, 0, ⟨32768, 32768, by norm_num, by norm_num⟩, 0, 1, none⟩
  else if ioBase = 0x170 ∧ slave = 0 then
    ⟨0x14, 0xEB, ⟨0, 0, by norm_num, by norm_num⟩, 0, 0, some cdrom0Reply⟩
  else ⟨0xFF, 0xFF, ⟨0, 0, by norm_num, by norm_num⟩, 0, 0, none⟩

/-- The `/dev/hda` node of `hdaCdromProbe`. -/
def hdaMount : Mount := ⟨.hd 97, .ata, 0, ataDeviceInit (staticDevice 0x1F0 0) (hdaCdromProbe 0x1F0 0)⟩

theorem ata_initialize_disk_length_zero_hda :
    (hdaMount ∈ (ataInitialize hdaCdromProbe).mounts ∧ hdaMount.kind = .ata) ∧
      hdaMount.length = 0 ∧
      hdaMount.device.identity = (hdaCdromProbe hdaMount.device.ioBase hdaMount.device.slave).identify :=
  have h : hdaMount ∈ (ataInitialize hdaCdromProbe).mounts ∧ hdaMount.kind = .ata :=
    ⟨List.mem_cons_self _ _, rfl⟩
  ⟨h, ata_initialize_disk_length_zero hdaCdromProbe _ h.1 h.2⟩

/-- `atapiDeviceInit` keeps the port, the drive and `is_atapi`. -/
theorem atapiDeviceInit_port (dev : AtaDevice) (reply : Option CapacityReply) :
    (atapiDeviceInit dev reply).1.ioBase = dev.ioBase ∧
      (atapiDeviceInit dev reply).1.slave = dev.slave ∧
      (atapiDeviceInit dev reply).1.isAtapi = dev.isAtapi := by
  cases reply <;> exact ⟨rfl, rfl, rfl⟩

/-- For every answer of the hardware, every `/dev/cdrom` node `ata_initialize` mounts is
for a drive whose READ CAPACITY reply the descriptor holds, swapped, with a non-zero last
block, and has as length the capacity that reply gives, `(last block + 1) * block length`,
with no wrap. -/
theorem ata_initialize_cdrom_length (probe : Nat → Fin 2 → Probe) :
    ∀ m ∈ (ataInitialize probe).mounts, m.kind = .atapi →
      m.device.isAtapi ∧ ∃ data, (probe m.device.ioBase m.device.slave).capacity = some data ∧
        m.device.atapiLba = htonl (loadWord (data 0) (data 1)) ∧ m.device.atapiLba ≠ 0 ∧
        m.device.atapiSectorSize = htonl (loadWord (data 2) (data 3)) ∧
        m.length = (m.device.atapiLba + 1) * m.device.atapiSectorSize := by
  intro m hm hk
  obtain ⟨dev, -, hm | ⟨r, dev', hd, hm⟩⟩ := mem_ataInitialize hm
  · rw [hm] at hk
    cases hk
  · obtain ⟨data, hdata, hinit, hlba, hlba0, hsize⟩ := ataDeviceDetectAtapi_mounts hd
    have hport := atapiDeviceInit_port (atapiIdentify dev (probe dev.ioBase dev.slave))
      (probe dev.ioBase dev.slave).capacity
    rw [hinit] at hport
    obtain ⟨hio, hslave, hatapi⟩ :
      dev'.ioBase = dev.ioBase ∧ dev'.slave = dev.slave ∧ dev'.isAtapi = true := hport
    rw [hm]
    simp only [atapiDeviceCreate]
    refine ⟨hatapi, data, by rw [hio, hslave]; exact hdata, hlba, hlba0, hsize, ?_⟩
    rw [atapiMaxOffset_eq, if_neg hlba0]

/-- The `/dev/cdrom0` node of `hdaCdromProbe`. -/
def cdrom0Mount : Mount :=
  atapiDeviceCreate (.cdrom 0)
    (atapiDeviceInit (atapiIdentify (staticDevice 0x170 0) (hdaCdromProbe 0x170 0))
      (some cdrom0Reply)).1

theorem ata_initialize_cdrom_length_cdrom0 :
    (cdrom0Mount ∈ (ataInitialize hdaCdromProbe).mounts ∧ cdrom0Mount.kind = .atapi) ∧
      cdrom0Mount.device.isAtapi ∧ ∃ data,
        (hdaCdromProbe cdrom0Mount.device.ioBase cdrom0Mount.device.slave).capacity = some data ∧
        cdrom0Mount.device.atapiLba = htonl (loadWord (data 0) (data 1)) ∧
        cdrom0Mount.device.atapiLba ≠ 0 ∧
        cdrom0Mount.device.atapiSectorSize = htonl (loadWord (data 2) (data 3)) ∧
        cdrom0Mount.length = (cdrom0Mount.device.atapiLba + 1) * cdrom0Mount.device.atapiSectorSize :=
  have h : cdrom0Mount ∈ (ataInitialize hdaCdromProbe).mounts ∧ cdrom0Mount.kind = .atapi :=
    ⟨List.mem_cons_of_mem _ (List.mem_singleton_self _), rfl⟩
  ⟨h, ata_initialize_cdrom_length hdaCdromProbe _ h.1 h.2⟩

end Ata

/-! ## 5. The legacy driver's detection -/

namespace Legacy

open Ata

/-- `ata_device_init` of the legacy driver (`part_001`): the IDENTIFY block only. -/
def ataDeviceInit (dev : AtaDevice) (p : Probe) : AtaDevice := { dev with identity := p.identify }

/-- `ata_device_create` of the legacy driver: a node with the legacy `read_ata` and
`write_ata`, whose length is `ata_max_offset` of the descriptor as it stands. -/
def ataDeviceCreate (path : DevPath) (dev : AtaDevice) : Mount := ⟨path, .legacy, ataMaxOffset dev, dev⟩

/-- `ata_device_detect` of the legacy driver: the DMA driver's without the ATAPI branch, so
an ATAPI signature mounts nothing. The driver has no `cdrom_number`; the state's is never
touched. -/
def ataDeviceDetect (st : DetectState) (dev : AtaDevice) (p : Probe) : Nat × DetectState :=
  if p.cl = 0xFF ∧ p.ch = 0xFF then (0, st)
  else if (p.cl = 0x00 ∧ p.ch = 0x00) ∨ (p.cl = 0x3C ∧ p.ch = 0xC3) then
    (1, { st with
      ataDriveChar := st.ataDriveChar + 1
      mounts := st.mounts ++
        [{ ataDeviceCreate (.hd st.ataDriveChar) dev with device := ataDeviceInit dev p }] })
  else (0, st)

/-- `ata_initialize` of the legacy driver: the same four devices in the same order. -/
def ataInitialize (probe : Nat → Fin 2 → Probe) : DetectState :=
  (ataDevices.map fun dev => (dev, probe dev.ioBase dev.slave)).foldl
    (fun st dp => (ataDeviceDetect st dp.1 dp.2).2) .init

/-- What a node of either driver shows of itself that the two can share: its path and its
length. -/
def mountShown (m : Mount) : DevPath × Nat := (m.path, m.length)

/-- The legacy driver's state against the DMA driver's: the same next letter, its nodes
at the paths and with the lengths of the DMA driver's disk nodes, and each with the legacy
functions. -/
def Agrees (st st' : DetectState) : Prop :=
  st.ataDriveChar = st'.ataDriveChar ∧
    st.mounts.map mountShown = (st'.mounts.filter (·.kind = .ata)).map mountShown ∧
    ∀ m ∈ st.mounts, m.kind = .legacy

theorem Agrees.detect {st st' : DetectState} (h : Agrees st st') (dev : AtaDevice) (p : Probe) :
    Agrees (ataDeviceDetect st dev p).2 (Ata.ataDeviceDetect st' dev p).2 := by
  obtain ⟨hc, hm, hk⟩ := h
  unfold ataDeviceDetect Ata.ataDeviceDetect
  split_ifs
  · exact ⟨hc, hm, hk⟩
  · refine ⟨by simp only [hc], ?_, ?_⟩
    · simp only [List.filter_append, List.map_append, hm, hc]
      rfl
    · simp only [List.mem_append, List.mem_singleton]
      rintro m (hm | rfl)
      exacts [hk m hm, rfl]
  · split
    · exact ⟨hc, hm, hk⟩
    · refine ⟨hc, ?_, hk⟩
      simp only [List.filter_append, List.map_append, hm]
      simp [atapiDeviceCreate]
  · exact ⟨hc, hm, hk⟩

/-- For every answer of the hardware, the legacy driver mounts a node at exactly the paths
at which the DMA driver mounts its disk nodes, in the same order and with the same
lengths, so never one for a CD drive; and every node it mounts has the legacy driver's
own `read_ata` and `write_ata`. -/
theorem legacy_ata_initialize_disks (probe : Nat → Fin 2 → Probe) :
    (ataInitialize probe).mounts.map mountShown =
        ((Ata.ataInitialize probe).mounts.filter (·.kind = .ata)).map mountShown ∧
      ∀ m ∈ (ataInitialize probe).mounts, m.kind = .legacy := by
  suffices ∀ (devs : List (AtaDevice × Probe)) (st st' : DetectState), Agrees st st' →
      Agrees (devs.foldl (fun st dp => (ataDeviceDetect st dp.1 dp.2).2) st) (detectAll st' devs) from
    (this _ _ _ ⟨rfl, rfl, fun _ h => absurd h (List.not_mem_nil _)⟩).2
  intro devs
  induction devs with
  | nil => exact fun _ _ h => h
  | cons dp devs ih => exact fun st st' h => ih _ _ (h.detect dp.1 dp.2)

end Legacy
end Toaru
