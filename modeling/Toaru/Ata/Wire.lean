import Toaru.Ata.Atapi

/-!
# The driver's byte formats: ATAPI packets, the READ CAPACITY reply, `buffer_compare`

An ATAPI command is a twelve-byte SCSI packet that the driver builds in the
`atapi_command_t` union as `command_bytes` and sends as its six `command_words`: on
little-endian x86 word `i` holds bytes `2i` (low half) and `2i + 1`, and the drive takes
the bytes of each word low byte first. The multi-byte fields of SCSI packets and replies
are big-endian. This file checks the driver's side of both directions against that format,
for every value: the `READ (12)` packet of `ata_device_read_sector_atapi` names block
`lba mod 2^32` and a transfer of one block (`atapi_read_packet_fields`); and
`atapi_device_init`, reading a READ CAPACITY reply with `inports`, a `memcpy` of two words
into a `uint32_t` and the file's `htonl` macro, stores exactly the last block and the block
length the drive reported (`atapi_device_init_reads_capacity`).

The write path verifies each sector by reading it back and comparing with
`buffer_compare`, which asserts that `size` is a multiple of 4 and compares `uint32_t`
words while its byte counter is below `size`; it reports equality exactly when the two
buffers agree on the first `size` bytes (`buffer_compare_eq_zero_iff`), so on a 512-byte
sector it is the byte comparison that `Toaru/Ata/Concurrent.lean` models.
-/

set_option autoImplicit false

namespace Toaru
namespace Ata

/-! ## 1. Bytes and words -/

/-- A data-port word from its two bytes, the first in the low half: how the drive packs
the reply it sends, and how `command_words` overlays `command_bytes` on x86. -/
def wordOf (lo hi : Nat) : UInt16 := UInt16.ofNat (lo + hi * 2 ^ 8)

/-- A big-endian field of a SCSI packet or reply. -/
def bigEndian (bytes : List Nat) : Nat := bytes.foldl (fun acc b => acc * 2 ^ 8 + b) 0

theorem toNat_wordOf {lo hi : Nat} (hlo : lo < 2 ^ 8) (hhi : hi < 2 ^ 8) :
    (wordOf lo hi).toNat = lo + hi * 2 ^ 8 :=
  UInt16.toNat_ofNat_of_lt (by show _ < 2 ^ 16; omega)

theorem toNat_lt_two_pow_eight (b : UInt8) : b.toNat < 2 ^ 8 := b.toNat_lt_size

/-- `(x >> k) & 0xFF` stored in a `uint8_t`. -/
theorem toNat_ofNat_byte (x k : Nat) : (UInt8.ofNat ((x >>> k) &&& 0xFF)).toNat = x / 2 ^ k % 2 ^ 8 := by
  rw [Nat.shiftRight_eq_div_pow, show (0xFF : Nat) = 2 ^ 8 - 1 from rfl,
    Nat.and_pow_two_sub_one_eq_mod]
  exact UInt8.toNat_ofNat_of_lt (Nat.mod_lt _ (by norm_num))

/-- Four bytes in their places of a 32-bit word: the `|` of `htonl` is a sum. -/
theorem or_bytes {b₀ b₁ b₂ b₃ : Nat} (h₁ : b₁ < 2 ^ 8) (h₂ : b₂ < 2 ^ 8) (h₃ : b₃ < 2 ^ 8) :
    2 ^ 24 * b₀ ||| 2 ^ 16 * b₁ ||| 2 ^ 8 * b₂ ||| b₃ = 2 ^ 24 * b₀ + 2 ^ 16 * b₁ + 2 ^ 8 * b₂ + b₃ := by
  rw [@or_eq_add_of_lt (2 ^ 24 * b₀) (2 ^ 16 * b₁) 24 (by omega) (by omega),
    @or_eq_add_of_lt (2 ^ 24 * b₀ + 2 ^ 16 * b₁) (2 ^ 8 * b₂) 16 (by omega) (by omega),
    @or_eq_add_of_lt (2 ^ 24 * b₀ + 2 ^ 16 * b₁ + 2 ^ 8 * b₂) b₃ 8 (by omega) h₃]

/-- The four bytes of a value, most significant first, read back big-endian: its low 32 bits. -/
theorem bigEndian_bytes (x : Nat) :
    bigEndian [x / 2 ^ 24 % 2 ^ 8, x / 2 ^ 16 % 2 ^ 8, x / 2 ^ 8 % 2 ^ 8, x % 2 ^ 8] = x % 2 ^ 32 := by
  simp only [bigEndian, List.foldl]
  omega

/-- `htonl` reverses the four low bytes of its argument. -/
theorem htonl_eq (l : Nat) :
    htonl l = 2 ^ 24 * (l % 2 ^ 8) + 2 ^ 16 * (l / 2 ^ 8 % 2 ^ 8) + 2 ^ 8 * (l / 2 ^ 16 % 2 ^ 8) +
      l / 2 ^ 24 % 2 ^ 8 := by
  have h₀ : (l &&& 0xFF) <<< 24 = 2 ^ 24 * (l % 2 ^ 8) := by
    rw [Nat.shiftLeft_eq, Nat.mul_comm, show (0xFF : Nat) = 2 ^ 8 - 1 from rfl,
      Nat.and_pow_two_sub_one_eq_mod]
  have h₁ : (l &&& 0xFF00) <<< 8 = 2 ^ 16 * (l / 2 ^ 8 % 2 ^ 8) := by
    rw [land_eq_mul_div_mod l 0xFF00 8 8 rfl, Nat.shiftLeft_eq]
    omega
  have h₂ : (l &&& 0xFF0000) >>> 8 = 2 ^ 8 * (l / 2 ^ 16 % 2 ^ 8) := by
    rw [land_eq_mul_div_mod l 0xFF0000 16 8 rfl, Nat.shiftRight_eq_div_pow]
    omega
  have h₃ : (l &&& 0xFF000000) >>> 24 = l / 2 ^ 24 % 2 ^ 8 := land_shiftRight_eq_div_mod l _ 24 8 rfl
  unfold htonl
  rw [h₀, h₁, h₂, h₃]
  exact or_bytes (Nat.mod_lt _ (by norm_num)) (Nat.mod_lt _ (by norm_num)) (Nat.mod_lt _ (by norm_num))

/-! ## 2. Packets -/

/-- `command.command_words[i]`: bytes `2i` and `2i + 1` of `command_bytes`. -/
def commandWords (bytes : Fin 12 → UInt8) (i : Fin 6) : UInt16 :=
  wordOf (bytes ⟨2 * i, by omega⟩).toNat (bytes ⟨2 * i + 1, by omega⟩).toNat

/-- The packet as the drive reads it from the six words written to the data port, each
low byte first. -/
def packetBytes (words : Fin 6 → UInt16) (j : Fin 12) : Nat :=
  if j.val % 2 = 0 then (words ⟨j / 2, by omega⟩).toNat % 2 ^ 8
  else (words ⟨j / 2, by omega⟩).toNat / 2 ^ 8

/-- The drive reads the bytes the driver wrote into the union. -/
theorem packetBytes_commandWords (bytes : Fin 12 → UInt8) (j : Fin 12) :
    packetBytes (commandWords bytes) j = (bytes j).toNat := by
  have hlo := toNat_lt_two_pow_eight (bytes ⟨2 * (j / 2), by omega⟩)
  have hhi := toNat_lt_two_pow_eight (bytes ⟨2 * (j / 2) + 1, by omega⟩)
  unfold packetBytes commandWords
  rw [toNat_wordOf hlo hhi]
  split_ifs with h
  · rw [show (⟨2 * (j / 2), _⟩ : Fin 12) = j from Fin.ext (by simp only; omega)] at hlo ⊢
    omega
  · rw [show (⟨2 * (j / 2) + 1, _⟩ : Fin 12) = j from Fin.ext (by simp only; omega)] at hhi ⊢
    omega

/-- The `READ (12)` packet of `ata_device_read_sector_atapi` for block `lba`. -/
def readPacket (lba : Nat) : Fin 12 → UInt8
  | 0 => 0xA8
  | 2 => UInt8.ofNat ((lba >>> 0x18) &&& 0xFF)
  | 3 => UInt8.ofNat ((lba >>> 0x10) &&& 0xFF)
  | 4 => UInt8.ofNat ((lba >>> 0x08) &&& 0xFF)
  | 5 => UInt8.ofNat ((lba >>> 0x00) &&& 0xFF)
  | 9 => 1
  | _ => 0

/-- For every block, the drive reads from the packet the opcode `READ (12)`, the block
address `lba mod 2^32` (bytes 2–5) and a transfer length of one block (bytes 6–9). -/
theorem atapi_read_packet_fields (lba : Nat) :
    let cdb := packetBytes (commandWords (readPacket lba))
    cdb 0 = 0xA8 ∧ bigEndian [cdb 2, cdb 3, cdb 4, cdb 5] = lba % 2 ^ 32 ∧
      bigEndian [cdb 6, cdb 7, cdb 8, cdb 9] = 1 := by
  simp only [packetBytes_commandWords, readPacket, toNat_ofNat_byte, Nat.pow_zero, Nat.div_one,
    bigEndian_bytes]
  exact ⟨rfl, trivial, rfl⟩

/-! ## 3. The READ CAPACITY reply -/

/-- The eight bytes of a READ CAPACITY reply: the address of the last block and the block
length, each big-endian. -/
def capacityBytes (lastLba blockLen : Nat) : Fin 8 → Nat
  | 0 => lastLba / 2 ^ 24 % 2 ^ 8
  | 1 => lastLba / 2 ^ 16 % 2 ^ 8
  | 2 => lastLba / 2 ^ 8 % 2 ^ 8
  | 3 => lastLba % 2 ^ 8
  | 4 => blockLen / 2 ^ 24 % 2 ^ 8
  | 5 => blockLen / 2 ^ 16 % 2 ^ 8
  | 6 => blockLen / 2 ^ 8 % 2 ^ 8
  | 7 => blockLen % 2 ^ 8

/-- The words `data[0..3]` the driver reads for the reply, low byte first. -/
def capacityReply (lastLba blockLen : Nat) : CapacityReply := fun i =>
  wordOf (capacityBytes lastLba blockLen ⟨2 * i, by omega⟩)
    (capacityBytes lastLba blockLen ⟨2 * i + 1, by omega⟩)

/-- Two words read from the port into a `uint32_t` and swapped by `htonl`: the big-endian
value of their four bytes. -/
theorem htonl_loadWord_wordOf {b₀ b₁ b₂ b₃ : Nat} (h₀ : b₀ < 2 ^ 8) (h₁ : b₁ < 2 ^ 8)
    (h₂ : b₂ < 2 ^ 8) (h₃ : b₃ < 2 ^ 8) :
    htonl (loadWord (wordOf b₀ b₁) (wordOf b₂ b₃)) = bigEndian [b₀, b₁, b₂, b₃] := by
  rw [loadWord, toNat_wordOf h₀ h₁, toNat_wordOf h₂ h₃, htonl_eq]
  have e₀ : (b₀ + b₁ * 2 ^ 8 + (b₂ + b₃ * 2 ^ 8) * 2 ^ 16) % 2 ^ 8 = b₀ := by omega
  have e₁ : (b₀ + b₁ * 2 ^ 8 + (b₂ + b₃ * 2 ^ 8) * 2 ^ 16) / 2 ^ 8 % 2 ^ 8 = b₁ := by omega
  have e₂ : (b₀ + b₁ * 2 ^ 8 + (b₂ + b₃ * 2 ^ 8) * 2 ^ 16) / 2 ^ 16 % 2 ^ 8 = b₂ := by omega
  have e₃ : (b₀ + b₁ * 2 ^ 8 + (b₂ + b₃ * 2 ^ 8) * 2 ^ 16) / 2 ^ 24 % 2 ^ 8 = b₃ := by omega
  rw [e₀, e₁, e₂, e₃]
  simp only [bigEndian, List.foldl]
  omega

/-- A 32-bit value sent big-endian as two words and read back the driver's way. -/
theorem htonl_loadWord_bigEndian {x : Nat} (hx : x < 2 ^ 32) :
    htonl (loadWord (wordOf (x / 2 ^ 24 % 2 ^ 8) (x / 2 ^ 16 % 2 ^ 8))
      (wordOf (x / 2 ^ 8 % 2 ^ 8) (x % 2 ^ 8))) = x := by
  rw [htonl_loadWord_wordOf (Nat.mod_lt _ (by norm_num)) (Nat.mod_lt _ (by norm_num))
    (Nat.mod_lt _ (by norm_num)) (Nat.mod_lt _ (by norm_num)), bigEndian_bytes, Nat.mod_eq_of_lt hx]

/-- For every last block and block length that fit the reply's 32-bit fields, and every
device, `atapi_device_init` stores exactly the two values the drive sent, and fails exactly
when the last block is `0`. -/
theorem atapi_device_init_reads_capacity (dev : AtaDevice) {lastLba blockLen : Nat}
    (h₁ : lastLba < 2 ^ 32) (h₂ : blockLen < 2 ^ 32) :
    atapiDeviceInit dev (some (capacityReply lastLba blockLen)) =
      ({ dev with atapiLba := lastLba, atapiSectorSize := blockLen,
                  atapiLba_lt := h₁, atapiSectorSize_lt := h₂ }, if lastLba = 0 then 1 else 0) := by
  have hlba : htonl (loadWord (capacityReply lastLba blockLen 0)
      (capacityReply lastLba blockLen 1)) = lastLba := htonl_loadWord_bigEndian h₁
  have hlen : htonl (loadWord (capacityReply lastLba blockLen 2)
      (capacityReply lastLba blockLen 3)) = blockLen := htonl_loadWord_bigEndian h₂
  simp only [atapiDeviceInit, hlba, hlen]

theorem atapi_device_init_reads_capacity_cdrom0 :
    (358399 < 2 ^ 32 ∧ 2048 < 2 ^ 32) ∧
      atapiDeviceInit cdrom0 (some (capacityReply 358399 2048)) =
        ({ cdrom0 with atapiLba := 358399, atapiSectorSize := 2048,
                       atapiLba_lt := by norm_num, atapiSectorSize_lt := by norm_num },
          if 358399 = 0 then 1 else 0) :=
  have h : 358399 < 2 ^ 32 ∧ 2048 < 2 ^ 32 := by norm_num
  ⟨h, atapi_device_init_reads_capacity cdrom0 h.1 h.2⟩

/-! ## 4. `buffer_compare` -/

/-- `*ptr` for a `uint32_t *ptr` at byte `a`, on little-endian x86. -/
def load32 (m : Mem) (a : Nat) : Nat :=
  (m a).toNat + (m (a + 1)).toNat * 2 ^ 8 + (m (a + 2)).toNat * 2 ^ 16 + (m (a + 3)).toNat * 2 ^ 24

/-- `buffer_compare(ptr1, ptr2, size)` from byte `i` on: `1` at the first word that
differs while `i < size`, else `0`. -/
def bufferCompareFrom (p₁ p₂ : Mem) (size i : Nat) : Nat :=
  if i < size then
    if load32 p₁ i ≠ load32 p₂ i then 1 else bufferCompareFrom p₁ p₂ size (i + 4)
  else 0
termination_by size - i

/-- `buffer_compare(ptr1, ptr2, size)`: `none` when `assert(!(size % 4))` fails and the
kernel stops. -/
def bufferCompare (p₁ p₂ : Mem) (size : Nat) : Option Nat :=
  if size % 4 ≠ 0 then none else some (bufferCompareFrom p₁ p₂ size 0)

theorem uint8_eq_iff_toNat {x y : UInt8} : x = y ↔ x.toNat = y.toNat :=
  ⟨congrArg _, UInt8.toNat.inj⟩

/-- Two words are equal exactly when their four bytes are. -/
theorem load32_eq_iff (p₁ p₂ : Mem) (a : Nat) :
    load32 p₁ a = load32 p₂ a ↔ ∀ k < 4, p₁ (a + k) = p₂ (a + k) := by
  have four : (∀ k < 4, p₁ (a + k) = p₂ (a + k)) ↔
      p₁ a = p₂ a ∧ p₁ (a + 1) = p₂ (a + 1) ∧ p₁ (a + 2) = p₂ (a + 2) ∧ p₁ (a + 3) = p₂ (a + 3) :=
    ⟨fun h => ⟨h 0 (by norm_num), h 1 (by norm_num), h 2 (by norm_num), h 3 (by norm_num)⟩,
      fun ⟨h₀, h₁, h₂, h₃⟩ k hk => match k, hk with
        | 0, _ => h₀
        | 1, _ => h₁
        | 2, _ => h₂
        | 3, _ => h₃⟩
  have := toNat_lt_two_pow_eight (p₁ a)
  have := toNat_lt_two_pow_eight (p₁ (a + 1))
  have := toNat_lt_two_pow_eight (p₁ (a + 2))
  have := toNat_lt_two_pow_eight (p₁ (a + 3))
  have := toNat_lt_two_pow_eight (p₂ a)
  have := toNat_lt_two_pow_eight (p₂ (a + 1))
  have := toNat_lt_two_pow_eight (p₂ (a + 2))
  have := toNat_lt_two_pow_eight (p₂ (a + 3))
  rw [four, uint8_eq_iff_toNat, uint8_eq_iff_toNat, uint8_eq_iff_toNat, uint8_eq_iff_toNat, load32,
    load32]
  omega

/-- From byte `i` on, `buffer_compare` finds no difference exactly when the buffers agree
on the bytes from `i` up to the word boundary at or past `size`. -/
theorem bufferCompareFrom_eq_zero_iff (p₁ p₂ : Mem) (size i : Nat) :
    bufferCompareFrom p₁ p₂ size i = 0 ↔
      ∀ j, i ≤ j → j < i + (size - i + 3) / 4 * 4 → p₁ j = p₂ j := by
  induction i using bufferCompareFrom.induct p₁ p₂ size with
  | case1 i hi hne =>
    rw [bufferCompareFrom, if_pos hi, if_pos hne]
    obtain ⟨k, hk, hk'⟩ : ∃ k < 4, p₁ (i + k) ≠ p₂ (i + k) := by
      by_contra h
      push_neg at h
      exact hne ((load32_eq_iff _ _ _).2 h)
    exact iff_of_false one_ne_zero fun h => hk' (h (i + k) (by omega) (by omega))
  | case2 i hi heq ih =>
    rw [bufferCompareFrom, if_pos hi, if_neg heq, ih]
    have hw := (load32_eq_iff p₁ p₂ i).1 (not_not.1 heq)
    refine ⟨fun h j hj hj' => ?_, fun h j hj hj' => h j (by omega) (by omega)⟩
    by_cases hlt : j < i + 4
    · simpa only [Nat.add_sub_cancel' hj] using hw (j - i) (by omega)
    · exact h j (by omega) (by omega)
  | case3 i hi =>
    rw [bufferCompareFrom, if_neg hi]
    exact iff_of_true rfl fun j _ hj => absurd hj (by omega)

/-- For every two buffers and every size, `buffer_compare` stops the kernel when `size` is
not a multiple of 4, and otherwise reports the buffers equal exactly when they agree on
their first `size` bytes. -/
theorem buffer_compare_eq_zero_iff (p₁ p₂ : Mem) (size : Nat) :
    (bufferCompare p₁ p₂ size = none ↔ size % 4 ≠ 0) ∧
      (bufferCompare p₁ p₂ size = some 0 ↔ size % 4 = 0 ∧ ∀ j < size, p₁ j = p₂ j) := by
  unfold bufferCompare
  by_cases h : size % 4 = 0
  · have hw : (size + 3) / 4 * 4 = size := by omega
    simp [h, bufferCompareFrom_eq_zero_iff, hw]
  · simp [h]

end Ata
end Toaru
