import Toaru.Ata.Adapter

/-!
# The ATAPI capacity probe and the divisions of `read_atapi`

`atapi_device_init` (`execvp.c`) ends with a SCSI `READ CAPACITY`: it reads four 16-bit
words from the data port, copies them into two `uint32_t` (on little-endian x86), swaps
each with the file's `htonl` macro, and stores them as `atapi_lba` and
`atapi_sector_size`. The only check is `if (!lba) return 1;`: a reply with a last block
and a block length of zero is accepted, and `ata_device_detect` then mounts the
`/dev/cdrom` node whose reads are `read_atapi`.

`read_atapi` divides by `atapi_sector_size` as its first two statements
(`start_block`, `end_block`), before any capacity check, and again in the prefix and
postfix tests. Lean's `Nat` division by zero is zero, so `blockAdapter` alone cannot show
the fault. `atapiArith` runs the adapter's arithmetic statement by statement in a state
monad whose `/` and `%` (`logDiv`, `logMod`) log their divisor; it computes the loop
bounds `blockAdapter` computes (`atapiArith_fst`), and a division by zero is a zero in its
log (`adapterDivisors`).
-/

set_option autoImplicit false

namespace Toaru
namespace Ata

/-! ## 1. The `READ CAPACITY` reply -/

/-- `htonl` of `execvp.c`: the four bytes of a 32-bit word in the reverse order. -/
def htonl (l : Nat) : Nat :=
  ((l &&& 0xFF) <<< 24) ||| ((l &&& 0xFF00) <<< 8) ||| ((l &&& 0xFF0000) >>> 8) |||
    ((l &&& 0xFF000000) >>> 24)

theorem htonl_lt (l : Nat) : htonl l < 2 ^ 32 := by
  have h₁ : l &&& 0xFF ≤ 0xFF := Nat.and_le_right
  have h₂ : l &&& 0xFF00 ≤ 0xFF00 := Nat.and_le_right
  have h₃ : l &&& 0xFF0000 ≤ 0xFF0000 := Nat.and_le_right
  have h₄ : l &&& 0xFF000000 ≤ 0xFF000000 := Nat.and_le_right
  unfold htonl
  simp only [Nat.shiftLeft_eq, Nat.shiftRight_eq_div_pow]
  refine Nat.or_lt_two_pow (Nat.or_lt_two_pow (Nat.or_lt_two_pow ?_ ?_) ?_) ?_ <;> omega

/-- `memcpy(&l, &data[k], sizeof(uint32_t))` on little-endian x86: two consecutive words
of the reply, the first in the low half. -/
def loadWord (lo hi : UInt16) : Nat := lo.toNat + hi.toNat * 2 ^ 16

/-- The four words `data[0..3]` that `atapi_device_init` reads with `inports(bus)`. -/
abbrev CapacityReply := Fin 4 → UInt16

/-- `atapi_device_init` from its `READ CAPACITY` on: `none` is a status poll that saw
`ERR` (`goto atapi_error` or `atapi_error_read`), `some data` the reply words. Returns
the device with `atapi_lba` and `atapi_sector_size` as stored, and the C return value. -/
def atapiDeviceInit (dev : AtaDevice) : Option CapacityReply → AtaDevice × Nat
  | none => (dev, 1)
  | some data =>
    let lba := htonl (loadWord (data 0) (data 1))
    let blocks := htonl (loadWord (data 2) (data 3))
    ({ dev with atapiLba := lba, atapiSectorSize := blocks,
                atapiLba_lt := htonl_lt _, atapiSectorSize_lt := htonl_lt _ },
      if lba = 0 then 1 else 0)

/-- The ATAPI branch of `ata_device_detect` (signature `0x14 0xEB` or `0x69 0x96`): the
value returned, and the device behind the `/dev/cdrom` node that is mounted, if any. -/
def ataDeviceDetectAtapi (dev : AtaDevice) (reply : Option CapacityReply) :
    Nat × Option AtaDevice :=
  let (dev', r) := atapiDeviceInit dev reply
  if r ≠ 0 then (0, none) else (2, some dev')

/-- What detection mounts is what the probe stored: an accepted reply, and the node's
device carries the reply's two swapped words. -/
theorem ataDeviceDetectAtapi_mounts {dev dev' : AtaDevice} {reply : Option CapacityReply}
    {r : Nat} (h : ataDeviceDetectAtapi dev reply = (r, some dev')) :
    ∃ data, reply = some data ∧ atapiDeviceInit dev reply = (dev', 0) ∧
      dev'.atapiLba = htonl (loadWord (data 0) (data 1)) ∧ dev'.atapiLba ≠ 0 ∧
      dev'.atapiSectorSize = htonl (loadWord (data 2) (data 3)) := by
  cases reply with
  | none => simp [ataDeviceDetectAtapi, atapiDeviceInit] at h
  | some data =>
    by_cases hl : htonl (loadWord (data 0) (data 1)) = 0
    · simp [ataDeviceDetectAtapi, atapiDeviceInit, hl] at h
    · simp only [ataDeviceDetectAtapi, atapiDeviceInit, hl, if_false, ne_eq, not_true,
        Prod.mk.injEq, Option.some.injEq] at h
      obtain ⟨-, rfl⟩ := h
      exact ⟨data, rfl, by simp [atapiDeviceInit, hl], rfl, hl, rfl⟩

/-! ## 2. The divisions of the adapter -/

/-- `a / b` in the C code, with the divisor logged. -/
def logDiv (a b : Nat) : StateM (List Nat) Nat := modifyGet fun l => (a / b, l ++ [b])

/-- `a % b` in the C code, with the divisor logged. -/
def logMod (a b : Nat) : StateM (List Nat) Nat := modifyGet fun l => (a % b, l ++ [b])

/-- The prefix block's arithmetic: the test `offset % S` and, when it is taken,
`prefix_size = S - offset % S` and the `memcpy` source `tmp + offset % S`; the new
`start_block`. -/
def prefixArith (S offset startBlock : Nat) : StateM (List Nat) Nat := do
  if (← logMod offset S) ≠ 0 then
    let _ ← logMod offset S
    let _ ← logMod offset S
    return (startBlock + 1) % 2 ^ 64
  return startBlock

/-- The postfix block's arithmetic: the test `(offset + size) % S` and, when the block is
taken, `postfix_size`; the new `end_block`. -/
def postfixArith (S sum startBlock endBlock : Nat) : StateM (List Nat) Nat := do
  if (← logMod sum S) ≠ 0 ∧ startBlock ≤ endBlock then
    let _ ← logMod sum S
    return (endBlock + (2 ^ 64 - 1)) % 2 ^ 64
  return endBlock

/-- The arithmetic of `read_atapi` (sector size `S`, capacity `maxOffset`) before its body
loop, which divides by nothing: the bounds the loop starts from, or `none` past the
capacity. -/
def atapiArith (S maxOffset offset size : Nat) : StateM (List Nat) (Option (Nat × Nat)) := do
  let startBlock ← logDiv offset S
  let endBlock ← logDiv ((offset + size + (2 ^ 64 - 1)) % 2 ^ 64) S
  if offset > maxOffset then return none
  let size := clampedSize maxOffset offset size
  let startBlock ← prefixArith S offset startBlock
  let endBlock ← postfixArith S ((offset + size) % 2 ^ 64) startBlock endBlock
  return some (startBlock, endBlock)

/-- The divisor of every `/` and `%` that `read_atapi` evaluates, in order. -/
def adapterDivisors (S maxOffset offset size : Nat) : List Nat :=
  ((atapiArith S maxOffset offset size).run []).2

/-- The divisions of `read_atapi` on the device behind a `/dev/cdrom` node. -/
def readAtapiDivisors (dev : AtaDevice) (offset size : Nat) : List Nat :=
  adapterDivisors dev.atapiSectorSize (atapiMaxOffset dev) offset size

theorem logDiv_run (a b : Nat) (l : List Nat) : (logDiv a b).run l = (a / b, l ++ [b]) := rfl

theorem logMod_run (a b : Nat) (l : List Nat) : (logMod a b).run l = (a % b, l ++ [b]) := rfl

theorem prefixArith_run (S offset startBlock : Nat) (l : List Nat) :
    (prefixArith S offset startBlock).run l =
      ((prefixBlock S 64 offset startBlock).2.1, l ++ if offset % S ≠ 0 then [S, S, S] else [S]) := by
  unfold prefixArith prefixBlock
  by_cases h : offset % S = 0 <;> simp [h, logMod_run, StateT.run_bind]

theorem postfixArith_run (S sum size startBlock endBlock : Nat) (l : List Nat) :
    (postfixArith S sum startBlock endBlock).run l =
      ((postfixBlock S sum size startBlock endBlock).2,
        l ++ if sum % S ≠ 0 ∧ startBlock ≤ endBlock then [S, S] else [S]) := by
  unfold postfixArith postfixBlock
  by_cases h : sum % S ≠ 0 ∧ startBlock ≤ endBlock <;> simp [h, logMod_run, StateT.run_bind]

/-- The logged arithmetic is the adapter's: it starts the body loop from the bounds
`blockAdapter` starts it from. -/
theorem atapiArith_fst (S maxOffset offset size : Nat) :
    ((atapiArith S maxOffset offset size).run []).1 =
      if offset > maxOffset then none else
      let endBlock := (offset + size + (2 ^ 64 - 1)) % 2 ^ 64 / S
      let size := clampedSize maxOffset offset size
      let startBlock := (prefixBlock S 64 offset (offset / S)).2.1
      some (startBlock, (postfixBlock S ((offset + size) % 2 ^ 64) size startBlock endBlock).2) := by
  unfold atapiArith
  simp only [StateT.run_bind, logDiv_run, Id.bind_eq]
  split_ifs
  · rfl
  · simp only [StateT.run_bind, StateT.run_pure, prefixArith_run,
      postfixArith_run _ _ (clampedSize maxOffset offset size), Id.bind_eq, Id.pure_eq]

/-- Every division of the adapter is by the sector size, and there is at least one. -/
theorem mem_adapterDivisors {S maxOffset offset size d : Nat} :
    d ∈ adapterDivisors S maxOffset offset size ↔ d = S := by
  unfold adapterDivisors atapiArith
  simp only [StateT.run_bind, logDiv_run, Id.bind_eq, List.nil_append]
  split_ifs
  · simp
  · simp only [StateT.run_bind, StateT.run_pure, prefixArith_run, postfixArith_run _ _ 0,
      Id.bind_eq, Id.pure_eq]
    split_ifs <;> simp

/-- `read_atapi` divides by zero, whatever the offset and the size, exactly when the
device's block length is zero. -/
theorem zero_mem_readAtapiDivisors (dev : AtaDevice) (offset size : Nat) :
    0 ∈ readAtapiDivisors dev offset size ↔ dev.atapiSectorSize = 0 := by
  rw [readAtapiDivisors, mem_adapterDivisors, eq_comm]

/-! ## 3. A reply with a zero block length -/

/-- The reply `00 00 00 01 00 00 00 00`: last block 1, block length 0. -/
def zeroBlockReply : CapacityReply
  | 1 => 0x0100
  | _ => 0

/-- Detection accepts the reply and mounts the node, and every `read_atapi` on it then
divides by zero, whatever the device, the offset and the size. -/
theorem read_atapi_divides_by_zero (dev : AtaDevice) :
    ∃ dev', ataDeviceDetectAtapi dev (some zeroBlockReply) = (2, some dev') ∧
      ∀ offset size, 0 ∈ readAtapiDivisors dev' offset size := by
  refine ⟨_, rfl, fun offset size => ?_⟩
  rw [zero_mem_readAtapiDivisors]
  rfl

/-- The reply of a 700 MiB disc, `00 05 77 FF 00 00 08 00`: last block 358 399,
2048-byte blocks. -/
def cdrom0Reply : CapacityReply
  | 0 => 0x0500
  | 1 => 0xFF77
  | 2 => 0
  | 3 => 0x0008

end Ata
end Toaru
