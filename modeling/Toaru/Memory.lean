import Mathlib.Data.Nat.Bitwise
import Mathlib.Tactic.NormNum

/-!
# Byte memory, `memcpy`, and runs that may not return

The drivers move bytes between three kinds of memory: the caller's buffer, a scratch
sector (`malloc(ATA_SECTOR_SIZE)`), and the medium. All three are modelled the same way,
as a function from an offset to a byte: `m i` is the byte at `base + i`. A buffer of
`size` bytes is such a function of which only `[0, size)` belongs to the caller, so a write
past the end is visible in the model as a change at an index `≥ size` — which is what the
frame statements of the adapters are about.

The adapters' sector loops are `while` loops over `unsigned` counters, and some inputs make
them run forever (an `end_block` that wraps to the largest value). A run is therefore a
function of a fuel bound, `Nat → Option α`, with `none` for "not finished within the
bound"; `Returns` and `Diverges` are the two readings of such a run.
-/

set_option autoImplicit false

namespace Toaru

/-- A byte-addressed memory seen from a base pointer. -/
abbrev Mem := Nat → UInt8

/-- `memcpy(dst + d, src + s, n)`: bytes `[d, d + n)` of `dst` become bytes
`[s, s + n)` of `src`; every other byte of `dst` is kept. -/
def memcpy (dst : Mem) (d : Nat) (src : Mem) (s n : Nat) : Mem :=
  fun i => if d ≤ i ∧ i < d + n then src (s + (i - d)) else dst i

theorem memcpy_of_mem {dst src : Mem} {d s n i : Nat} (h₁ : d ≤ i) (h₂ : i < d + n) :
    memcpy dst d src s n i = src (s + (i - d)) := if_pos ⟨h₁, h₂⟩

theorem memcpy_of_not_mem {dst src : Mem} {d s n i : Nat} (h : ¬ (d ≤ i ∧ i < d + n)) :
    memcpy dst d src s n i = dst i := if_neg h

theorem memcpy_of_lt {dst src : Mem} {d s n i : Nat} (h : i < d) :
    memcpy dst d src s n i = dst i := memcpy_of_not_mem (by omega)

theorem memcpy_of_ge {dst src : Mem} {d s n i : Nat} (h : d + n ≤ i) :
    memcpy dst d src s n i = dst i := memcpy_of_not_mem (by omega)

/-- A `memcpy` reads `src` only in `[s, s + n)`. -/
theorem memcpy_congr_src {dst src src' : Mem} {d s n : Nat}
    (h : ∀ j, s ≤ j → j < s + n → src j = src' j) :
    memcpy dst d src s n = memcpy dst d src' s n := by
  funext i
  unfold memcpy
  split_ifs with hi
  · exact h _ (by omega) (by omega)
  · rfl

/-! ## Runs bounded by fuel -/

/-- The run returns `a` once it is given enough fuel. -/
def Returns {α : Type} (run : Nat → Option α) (a : α) : Prop := ∃ fuel, run fuel = some a

/-- No fuel is enough: the loop never exits. -/
def Diverges {α : Type} (run : Nat → Option α) : Prop := ∀ fuel, run fuel = none

theorem Returns.map {α β : Type} {run : Nat → Option α} {a : α} (f : α → β)
    (h : Returns run a) : Returns (fun fuel => (run fuel).map f) (f a) :=
  let ⟨fuel, hf⟩ := h; ⟨fuel, by simp only [hf, Option.map_some']⟩

theorem Diverges.map {α β : Type} {run : Nat → Option α} (f : α → β)
    (h : Diverges run) : Diverges (fun fuel => (run fuel).map f) :=
  fun fuel => by simp only [h fuel, Option.map_none']

/-! ## `int` arithmetic

The drawing code computes in `int`. A sum or a product that leaves the range of `int` is
undefined in C; on x86 the code GCC emits keeps the low 32 bits, read as signed, and that
is what `wrap32` computes. Inside the range it changes nothing (`wrap32_of_isInt32`). -/

/-- A value of `int32_t`. -/
def IsInt32 (z : Int) : Prop := -2 ^ 31 ≤ z ∧ z < 2 ^ 31

instance (z : Int) : Decidable (IsInt32 z) := inferInstanceAs (Decidable (_ ∧ _))

/-- The `int` an x86 `int` operation leaves for the exact result `z`. -/
def wrap32 (z : Int) : Int := Int.bmod z (2 ^ 32)

theorem wrap32_of_isInt32 {z : Int} (h : IsInt32 z) : wrap32 z = z := by
  obtain ⟨h₁, h₂⟩ := h
  unfold wrap32 Int.bmod
  push_cast
  split_ifs <;> omega

/-! ## Bytes of an integer

The register writes of the sector commands take bytes out of the LBA with a mask and a
shift, `(lba & 0x0000ff00) >> 8`. Every such mask is `2^w - 1` shifted left by the amount
shifted right afterwards, and the pair is then a division and a remainder. -/

theorem land_shiftRight_eq_div_mod (x m k w : Nat) (hm : m = (2 ^ w - 1) <<< k) :
    (x &&& m) >>> k = x / 2 ^ k % 2 ^ w := by
  subst hm
  rw [← Nat.shiftRight_eq_div_pow]
  apply Nat.eq_of_testBit_eq
  intro i
  simp only [Nat.testBit_shiftRight, Nat.testBit_and, Nat.testBit_shiftLeft,
    Nat.testBit_mod_two_pow, Nat.testBit_two_pow_sub_one]
  by_cases h : i < w <;> simp [h]

/-- The same mask without the shift keeps the field in place. -/
theorem land_eq_mul_div_mod (x m k w : Nat) (hm : m = (2 ^ w - 1) <<< k) :
    x &&& m = 2 ^ k * (x / 2 ^ k % 2 ^ w) := by
  subst hm
  rw [← Nat.shiftRight_eq_div_pow, Nat.mul_comm, ← Nat.shiftLeft_eq]
  apply Nat.eq_of_testBit_eq
  intro i
  simp only [Nat.testBit_and, Nat.testBit_shiftLeft, Nat.testBit_shiftRight,
    Nat.testBit_mod_two_pow, Nat.testBit_two_pow_sub_one]
  by_cases h : k ≤ i
  · simp only [h, Nat.add_sub_cancel' h]
    cases x.testBit i <;> simp
  · simp [h]

/-- Bytes in disjoint places: an `|` is a `+`. -/
theorem or_eq_add_of_lt {a b k : Nat} (ha : a % 2 ^ k = 0) (hb : b < 2 ^ k) : a ||| b = a + b := by
  obtain ⟨c, rfl⟩ := Nat.dvd_of_mod_eq_zero ha
  exact (Nat.mul_add_lt_is_or hb c).symm

end Toaru
