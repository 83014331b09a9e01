import Toaru.Ata.Device

/-!
# The byte-range adapter of the DMA driver

`read_ata`, `write_ata` and `read_atapi` (`execvp.c`) share one piece of control flow:
from a byte offset and a size they compute a first and a last sector, return early past
the capacity, clamp the size at the capacity, handle a partial first sector (the
*prefix*), a partial last sector (the *postfix*), and loop over the whole sectors in
between. They differ only in the sector size `S`, the capacity, and what each sector call
does with the bytes. `blockAdapter` is that shared control flow, computing the list of
sector calls (`Xfer`) in the order they are made and the value returned; what a call does
to the buffer or the medium is `Toaru/Ata/Transfer.lean`.

The arithmetic is the C code's: `offset` is a 64-bit `koff_t`, `size` a 32-bit
`uint32_t`, and `start_block`, `end_block`, `x_offset` are `unsigned long long`, so sums
and decrements wrap at `2^64`. The wrap is not idle: `end_block--` on an `end_block` of
zero gives `2^64 - 1`, and the body loop `while (start_block <= end_block)` then never
exits (`blockLoop_diverges`).
-/

set_option autoImplicit false

namespace Toaru
namespace Ata

/-- One sector call of the adapter. `part lba secOff bufOff len` reads sector `lba` into a
scratch sector and moves `len` bytes between `tmp + secOff` and `buffer + bufOff` (for
`write_ata`, the scratch sector is then written back); `whole lba bufOff` transfers the
whole sector directly to or from `buffer + bufOff`. -/
inductive Xfer
  | part (lba secOff bufOff len : Nat)
  | whole (lba bufOff : Nat)
  deriving DecidableEq, Repr

namespace Xfer

/-- The sector index handed to the sector-level operation. -/
def lba : Xfer → Nat
  | part l .. => l
  | whole l _ => l

/-- Where in the caller's buffer the bytes go to or come from. -/
def bufOff : Xfer → Nat
  | part _ _ b _ => b
  | whole _ b => b

/-- Where in the sector the moved bytes start. -/
def secOff : Xfer → Nat
  | part _ s _ _ => s
  | whole .. => 0

/-- How many bytes move between buffer and sector, for sectors of `S` bytes. -/
def len (S : Nat) : Xfer → Nat
  | part _ _ _ n => n
  | whole .. => S

/-- A transfer through the scratch sector rather than directly to the buffer. -/
def isPart : Xfer → Bool
  | part .. => true
  | whole .. => false

@[simp] theorem lba_part (l s b n : Nat) : (part l s b n).lba = l := rfl
@[simp] theorem lba_whole (l b : Nat) : (whole l b).lba = l := rfl
@[simp] theorem bufOff_part (l s b n : Nat) : (part l s b n).bufOff = b := rfl
@[simp] theorem bufOff_whole (l b : Nat) : (whole l b).bufOff = b := rfl
@[simp] theorem secOff_part (l s b n : Nat) : (part l s b n).secOff = s := rfl
@[simp] theorem secOff_whole (l b : Nat) : (whole l b).secOff = 0 := rfl
@[simp] theorem len_part (S l s b n : Nat) : (part l s b n).len S = n := rfl
@[simp] theorem len_whole (S l b : Nat) : (whole l b).len S = S := rfl
@[simp] theorem isPart_part (l s b n : Nat) : (part l s b n).isPart = true := rfl
@[simp] theorem isPart_whole (l b : Nat) : (whole l b).isPart = false := rfl

end Xfer

/-! ## 1. The body loop -/

/-- `while (start_block <= end_block) { sector(start_block, buffer + (uint32_t)x_offset);
x_offset += S; start_block++; }`, with `w`-bit counters, for at most `fuel` iterations. -/
def blockLoop (S w : Nat) : (fuel startBlock endBlock xOffset : Nat) → Option (List Xfer)
  | 0, _, _, _ => none
  | fuel + 1, startBlock, endBlock, xOffset =>
    if startBlock ≤ endBlock then
      (blockLoop S w fuel ((startBlock + 1) % 2 ^ w) endBlock ((xOffset + S) % 2 ^ w)).map
        (Xfer.whole startBlock (xOffset % 2 ^ 32) :: ·)
    else some []

/-- The transfers of `count` iterations of the body loop from `startBlock`. -/
def wholeRun (S w : Nat) : (startBlock xOffset count : Nat) → List Xfer
  | _, _, 0 => []
  | startBlock, xOffset, count + 1 =>
    .whole startBlock (xOffset % 2 ^ 32) :: wholeRun S w (startBlock + 1) ((xOffset + S) % 2 ^ w) count

/-- When `end_block` is below the largest counter value, the loop exits after
`end_block + 1 - start_block` iterations. -/
theorem blockLoop_eq_wholeRun (S w : Nat) :
    ∀ (fuel startBlock endBlock xOffset : Nat), endBlock + 1 < 2 ^ w →
      startBlock ≤ endBlock + 1 → endBlock + 1 - startBlock < fuel →
      blockLoop S w fuel startBlock endBlock xOffset =
        some (wholeRun S w startBlock xOffset (endBlock + 1 - startBlock))
  | 0, _, _, _, _, _, hf => absurd hf (Nat.not_lt_zero _)
  | fuel + 1, sb, eb, x, hw, hs, hf => by
    unfold blockLoop
    split_ifs with h
    · have hsb : (sb + 1) % 2 ^ w = sb + 1 := Nat.mod_eq_of_lt (by omega)
      rw [hsb, blockLoop_eq_wholeRun S w fuel (sb + 1) eb _ hw (by omega) (by omega),
        show eb + 1 - sb = (eb + 1 - (sb + 1)) + 1 by omega]
      rfl
    · rw [show eb + 1 - sb = 0 by omega]
      rfl

/-- An `end_block` equal to the largest counter value is never passed: the loop does not
exit. -/
theorem blockLoop_diverges (S w : Nat) :
    ∀ (fuel startBlock endBlock xOffset : Nat), endBlock + 1 = 2 ^ w →
      startBlock < 2 ^ w → blockLoop S w fuel startBlock endBlock xOffset = none
  | 0, _, _, _, _, _ => rfl
  | fuel + 1, sb, eb, x, hw, hs => by
    unfold blockLoop
    rw [if_pos (by omega), blockLoop_diverges S w fuel _ eb _ hw (Nat.mod_lt _ (by positivity))]
    rfl

theorem mem_wholeRun {S w : Nat} :
    ∀ {startBlock xOffset count : Nat} {op : Xfer}, xOffset < 2 ^ w →
      (op ∈ wholeRun S w startBlock xOffset count ↔
        ∃ j < count, op = .whole (startBlock + j) ((xOffset + j * S) % 2 ^ w % 2 ^ 32))
  | _, _, 0, _, _ => by simp [wholeRun]
  | sb, x, count + 1, op, hx => by
    have step : ∀ j, Xfer.whole (sb + 1 + j) (((x + S) % 2 ^ w + j * S) % 2 ^ w % 2 ^ 32) =
        .whole (sb + (j + 1)) ((x + (j + 1) * S) % 2 ^ w % 2 ^ 32) := fun j => by
      rw [Nat.mod_add_mod, show x + S + j * S = x + (j + 1) * S by rw [Nat.add_one_mul]; omega,
        show sb + 1 + j = sb + (j + 1) by omega]
    simp only [wholeRun, List.mem_cons, mem_wholeRun (Nat.mod_lt _ (by positivity))]
    constructor
    · rintro (rfl | ⟨j, hj, rfl⟩)
      · exact ⟨0, by omega, by simp [Nat.mod_eq_of_lt hx]⟩
      · exact ⟨j + 1, by omega, step j⟩
    · rintro ⟨j, hj, rfl⟩
      cases j with
      | zero => exact .inl (by simp [Nat.mod_eq_of_lt hx])
      | succ j => exact .inr ⟨j, by omega, (step j).symm⟩

theorem length_wholeRun (S w : Nat) :
    ∀ (startBlock xOffset count : Nat), (wholeRun S w startBlock xOffset count).length = count
  | _, _, 0 => rfl
  | sb, x, count + 1 => by simp [wholeRun, length_wholeRun S w _ _ count]

/-! ## 2. The adapter -/

/-- The prefix block: `if (offset % S) { …; x_offset += prefix_size; start_block++; }`.
Returns the transfer it makes, the new `start_block` and the new `x_offset`. -/
def prefixBlock (S w offset startBlock : Nat) : List Xfer × Nat × Nat :=
  if offset % S ≠ 0 then
    ([.part startBlock (offset % S) 0 (S - offset % S)], (startBlock + 1) % 2 ^ w, S - offset % S)
  else ([], startBlock, 0)

/-- The postfix block of the DMA driver:
`if ((offset + size) % S && start_block <= end_block) { …; end_block--; }`, with the
sum `offset + size` already taken modulo `2^64`. Returns the transfer it makes and the
new `end_block`. -/
def postfixBlock (S sum size startBlock endBlock : Nat) : List Xfer × Nat :=
  if sum % S ≠ 0 ∧ startBlock ≤ endBlock then
    ([.part endBlock 0 (size - sum % S) (sum % S)], (endBlock + (2 ^ 64 - 1)) % 2 ^ 64)
  else ([], endBlock)

/-- The clamp: `if (offset + size > max) { unsigned int i = max - offset; size = i; }`. -/
def clampedSize (maxOffset offset size : Nat) : Nat :=
  if (offset + size) % 2 ^ 64 > maxOffset then (maxOffset - offset) % 2 ^ 32 else size

/-- The control flow shared by `read_ata`, `write_ata` (sector size 512, capacity
`ata_max_offset`) and `read_atapi` (sector size `atapi_sector_size`, capacity
`atapi_max_offset`): the sector calls, in order, and the value returned, or `none` when
the body loop has not exited within `fuel` iterations. -/
def blockAdapter (S maxOffset offset size : Nat) (fuel : Nat) : Option (List Xfer × Nat) :=
  let startBlock := offset / S
  let endBlock := (offset + size + (2 ^ 64 - 1)) % 2 ^ 64 / S
  if offset > maxOffset then some ([], 0) else
  let size := clampedSize maxOffset offset size
  let (pre, startBlock, xOffset) := prefixBlock S 64 offset startBlock
  let (post, endBlock) := postfixBlock S ((offset + size) % 2 ^ 64) size startBlock endBlock
  (blockLoop S 64 fuel startBlock endBlock xOffset).map fun body => (pre ++ post ++ body, size)

/-- Past the capacity nothing is transferred and zero is returned. -/
theorem blockAdapter_of_gt {S maxOffset offset size : Nat} (h : maxOffset < offset) (fuel : Nat) :
    blockAdapter S maxOffset offset size fuel = some ([], 0) := by
  simp only [blockAdapter, gt_iff_lt, if_pos h]

end Ata
end Toaru
