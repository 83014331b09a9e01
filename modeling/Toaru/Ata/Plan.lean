import Toaru.Ata.Transfer

/-!
# The intended plan of a request

What a byte-range read or write on a sector device should do, stated without the C
code's three blocks and its counters: one call per sector of `[offset, offset + n)`,
through the scratch sector exactly for a sector the request does not cover whole.
`specPlan` is that plan, and `specPlan_spec` proves it meets the plan contract
`PlanSpec`.

The adapter of the code is then judged against this plan (`Toaru/Ata/Dma.lean`): where it
issues the same calls up to order, it meets the contract, because `PlanSpec` does not look
at the order (`PlanSpec.perm`).

Every fact about one planned call rests on the same two inequalities, that sector `k`
meets the request: `k * S < offset + n` and `offset < (k + 1) * S`.
-/

set_option autoImplicit false

namespace Toaru
namespace Ata

/-- The planned call for sector `k` of a request of `n` bytes at `offset`: the part
of the sector inside `[offset, offset + n)`, whole when that is all of it. -/
def specXfer (S offset n k : Nat) : Xfer :=
  let lo := max (k * S) offset
  let hi := min ((k + 1) * S) (offset + n)
  if offset ≤ k * S ∧ (k + 1) * S ≤ offset + n then .whole k (k * S - offset)
  else .part k (lo - k * S) (lo - offset) (hi - lo)

/-- One call per sector of `[offset, offset + n)`, in increasing order. -/
def specPlan (S offset n : Nat) : List Xfer :=
  if n = 0 then []
  else (List.range' (offset / S) ((offset + n - 1) / S + 1 - offset / S)).map (specXfer S offset n)

/-! ## 1. One planned call -/

section Call

variable {S offset n k : Nat}

@[simp] theorem specXfer_lba : (specXfer S offset n k).lba = k := by
  unfold specXfer; split_ifs <;> rfl

/-- The byte of the request where sector `k`'s part of it begins, clamped to the request. -/
def clampedStart (S offset n k : Nat) : Nat := min (max (k * S) offset) (offset + n)

theorem specXfer_aligned : (specXfer S offset n k).Aligned S offset := by
  simp only [specXfer, Xfer.Aligned, max_def, min_def]
  split_ifs <;> simp only [Xfer.lba_part, Xfer.lba_whole, Xfer.secOff_part, Xfer.secOff_whole,
    Xfer.bufOff_part, Xfer.bufOff_whole] <;> omega

theorem specXfer_inSector (hL : k * S < offset + n) (hR : offset < (k + 1) * S) :
    (specXfer S offset n k).secOff + (specXfer S offset n k).len S ≤ S := by
  simp only [specXfer, Nat.add_one_mul, max_def, min_def] at hR ⊢
  split_ifs <;> simp only [Xfer.secOff_part, Xfer.secOff_whole, Xfer.len_part, Xfer.len_whole] <;>
    omega

theorem specXfer_inBuffer (hL : k * S < offset + n) (hR : offset < (k + 1) * S) :
    (specXfer S offset n k).bufOff + (specXfer S offset n k).len S ≤ n := by
  simp only [specXfer, Nat.add_one_mul, max_def, min_def] at hR ⊢
  split_ifs <;> simp only [Xfer.bufOff_part, Xfer.bufOff_whole, Xfer.len_part, Xfer.len_whole] <;>
    omega

theorem specXfer_covers {i : Nat} (hL : k * S ≤ offset + i) (hR : offset + i < (k + 1) * S)
    (hi : i < n) : (specXfer S offset n k).Covers S i := by
  simp only [specXfer, Xfer.Covers, Nat.add_one_mul, max_def, min_def] at hR ⊢
  split_ifs <;> simp only [Xfer.bufOff_part, Xfer.bufOff_whole, Xfer.len_part, Xfer.len_whole] <;>
    omega

theorem specXfer_len (hL : k * S < offset + n) (hR : offset < (k + 1) * S) :
    (specXfer S offset n k).len S = clampedStart S offset n (k + 1) - clampedStart S offset n k := by
  simp only [specXfer, clampedStart, Nat.add_one_mul, max_def, min_def] at hR ⊢
  split_ifs <;> simp only [Xfer.len_part, Xfer.len_whole] <;> omega

/-- Only a sector the request does not cover whole goes through the scratch sector, and
only the first and the last sector can be such. -/
theorem specXfer_isPart (hS : 0 < S) (ha : offset / S ≤ k) (hb : k ≤ (offset + n - 1) / S)
    (h : (specXfer S offset n k).isPart) : k = offset / S ∨ k = (offset + n - 1) / S := by
  unfold specXfer at h
  split_ifs at h with hw
  · simp at h
  · rcases not_and_or.mp hw with h₁ | h₁
    · exact .inl (le_antisymm ((Nat.le_div_iff_mul_le hS).mpr (by omega)) ha)
    · have : offset + n - 1 < (k + 1) * S := by omega
      exact .inr (le_antisymm hb (Nat.lt_succ_iff.mp ((Nat.div_lt_iff_lt_mul hS).mpr this)))

/-- A sector the request covers whole is planned as a whole-sector call. -/
theorem specXfer_of_inside (h₁ : offset ≤ k * S) (h₂ : (k + 1) * S ≤ offset + n) :
    specXfer S offset n k = .whole k (k * S - offset) := by
  simp only [specXfer, if_pos (And.intro h₁ h₂)]

/-- A request that starts inside sector `offset / S` and runs past its end is planned there as
the copy of the sector's tail. -/
theorem specXfer_first (hr : offset % S ≠ 0) (hp : S ≤ offset % S + n) :
    specXfer S offset n (offset / S) = .part (offset / S) (offset % S) 0 (S - offset % S) := by
  have := Nat.div_add_mod offset S
  have hm : offset / S * S = S * (offset / S) := Nat.mul_comm _ _
  simp only [specXfer, Nat.add_one_mul, max_def, min_def]
  split_ifs <;> first | omega | (congr 1 <;> omega)

/-- A request that ends inside sector `(offset + n) / S`, having started at or before its
beginning, is planned there as the copy of the sector's head. -/
theorem specXfer_last (hS : 0 < S) (hlo : offset ≤ (offset + n) / S * S) :
    specXfer S offset n ((offset + n) / S) =
      .part ((offset + n) / S) 0 (n - (offset + n) % S) ((offset + n) % S) := by
  have := Nat.div_add_mod (offset + n) S; have := Nat.mod_lt (offset + n) hS
  have hm : (offset + n) / S * S = S * ((offset + n) / S) := Nat.mul_comm _ _
  simp only [specXfer, Nat.add_one_mul, max_def, min_def]
  split_ifs <;> first | omega | (congr 1 <;> omega)

end Call

/-! ## 2. The whole plan -/

/-- The quotient brackets the dividend: `x / S * S ≤ x < (x / S + 1) * S`. -/
theorem div_mul_bracket {S : Nat} (hS : 0 < S) (x : Nat) : x / S * S ≤ x ∧ x < (x / S + 1) * S :=
  ⟨Nat.div_mul_le_self x S, by
    have := Nat.div_add_mod x S; have := Nat.mod_lt x hS; rw [Nat.add_one_mul, Nat.mul_comm]; omega⟩

/-- Below a non-multiple of `S`, the last byte lies in the sector of the end. -/
theorem div_pred_eq {S E : Nat} (hS : 0 < S) (hq : E % S ≠ 0) : (E - 1) / S = E / S := by
  have := Nat.div_add_mod E S; have := Nat.mod_lt E hS
  apply Nat.div_eq_of_lt_le
  · rw [Nat.mul_comm]; omega
  · rw [Nat.mul_comm, Nat.mul_succ]; omega

/-- Below a positive multiple of `S`, the last byte lies in the sector just before the end. -/
theorem div_pred_add_one_mul {S E : Nat} (hS : 0 < S) (hE : 0 < E) (hq : E % S = 0) :
    ((E - 1) / S + 1) * S = E := by
  have h := Nat.div_add_mod E S
  have h₁ : 1 ≤ E / S := (Nat.le_div_iff_mul_le hS).mpr
    (by rw [Nat.one_mul]; exact Nat.le_of_dvd hE (Nat.dvd_of_mod_eq_zero hq))
  have h₂ : (E - 1) / S = E / S - 1 := by
    apply Nat.div_eq_of_lt_le
    · rw [Nat.mul_comm, Nat.mul_sub_one]; omega
    · rw [Nat.mul_comm, Nat.sub_add_cancel h₁]; omega
  rw [h₂, Nat.sub_add_cancel h₁, Nat.mul_comm]; omega

/-- Differences of consecutive values of a monotone sequence sum to the overall difference. -/
theorem sum_range'_sub (f : Nat → Nat) (hf : ∀ k, f k ≤ f (k + 1)) :
    ∀ a c, ((List.range' a c).map fun k => f (k + 1) - f k).sum = f (a + c) - f a
  | a, 0 => by simp
  | a, c + 1 => by
    have mono : ∀ d, f (a + 1) ≤ f (a + 1 + d) := fun d => by
      induction d with
      | zero => exact le_refl _
      | succ d ih => exact ih.trans (hf _)
    rw [List.range'_succ, List.map_cons, List.sum_cons, sum_range'_sub f hf (a + 1) c,
      show a + (c + 1) = a + 1 + c by omega]
    have := hf a; have := mono c; omega

theorem clampedStart_mono (S offset n k : Nat) :
    clampedStart S offset n k ≤ clampedStart S offset n (k + 1) := by
  simp only [clampedStart, Nat.add_one_mul, max_def, min_def]
  split_ifs <;> omega

/-- The intended plan meets the plan contract. -/
theorem specPlan_spec {S : Nat} (hS : 0 < S) (offset n : Nat) :
    PlanSpec S offset n (specPlan S offset n) := by
  unfold specPlan
  split_ifs with hn
  · subst hn
    exact ⟨List.nodup_nil, by simp, by simp, by simp, by simp, by simp, by simp, rfl⟩
  have hab : offset / S ≤ (offset + n - 1) / S := Nat.div_le_div_right (by omega)
  have meets : ∀ k, offset / S ≤ k → k ≤ (offset + n - 1) / S →
      k * S < offset + n ∧ offset < (k + 1) * S := fun k ha hb => by
    have h₁ := div_mul_bracket hS offset; have h₂ := div_mul_bracket hS (offset + n - 1)
    have := Nat.mul_le_mul_right S ha; have := Nat.mul_le_mul_right S hb
    have := Nat.mul_le_mul_right S (Nat.add_le_add_right ha 1)
    constructor <;> omega
  have mem : ∀ op, op ∈ (List.range' (offset / S) ((offset + n - 1) / S + 1 - offset / S)).map
      (specXfer S offset n) → ∃ k, offset / S ≤ k ∧ k ≤ (offset + n - 1) / S ∧ specXfer S offset n k = op :=
    fun op hop => by
      obtain ⟨k, hk, rfl⟩ := List.mem_map.mp hop
      rw [List.mem_range'_1] at hk
      exact ⟨k, hk.1, by omega, rfl⟩
  refine ⟨?nodup, ?mem_lba, ?aligned, ?inSector, ?inBuffer, ?covers, ?partEnds, ?sum⟩
  case nodup =>
    rw [List.map_map, show Xfer.lba ∘ specXfer S offset n = id from funext fun _ => specXfer_lba,
      List.map_id]
    exact List.nodup_range' _ _
  case mem_lba =>
    intro k
    rw [List.map_map, show Xfer.lba ∘ specXfer S offset n = id from funext fun _ => specXfer_lba,
      List.map_id, List.mem_range'_1]
    omega
  case aligned =>
    intro op hop
    obtain ⟨k, -, -, rfl⟩ := mem op hop
    exact specXfer_aligned
  case inSector =>
    intro op hop
    obtain ⟨k, ha, hb, rfl⟩ := mem op hop
    exact specXfer_inSector (meets k ha hb).1 (meets k ha hb).2
  case inBuffer =>
    intro op hop
    obtain ⟨k, ha, hb, rfl⟩ := mem op hop
    exact specXfer_inBuffer (meets k ha hb).1 (meets k ha hb).2
  case covers =>
    intro i hi
    have hk := div_mul_bracket hS (offset + i)
    refine ⟨specXfer S offset n ((offset + i) / S), List.mem_map.mpr ⟨_, ?_, rfl⟩,
      specXfer_covers hk.1 hk.2 hi⟩
    rw [List.mem_range'_1]
    have : offset / S ≤ (offset + i) / S := Nat.div_le_div_right (by omega)
    have : (offset + i) / S ≤ (offset + n - 1) / S := Nat.div_le_div_right (by omega)
    omega
  case partEnds =>
    intro op hop hp
    obtain ⟨k, ha, hb, rfl⟩ := mem op hop
    simpa using specXfer_isPart hS ha hb hp
  case sum =>
    have hlen : (List.range' (offset / S) ((offset + n - 1) / S + 1 - offset / S)).map
        (Xfer.len S ∘ specXfer S offset n) =
        (List.range' (offset / S) ((offset + n - 1) / S + 1 - offset / S)).map
        (fun k => clampedStart S offset n (k + 1) - clampedStart S offset n k) :=
      List.map_congr_left fun k hk => by
        rw [List.mem_range'_1] at hk
        exact specXfer_len (meets k hk.1 (by omega)).1 (meets k hk.1 (by omega)).2
    rw [List.map_map, hlen, sum_range'_sub _ (clampedStart_mono S offset n),
      show offset / S + ((offset + n - 1) / S + 1 - offset / S) = (offset + n - 1) / S + 1 by omega]
    have h₁ := div_mul_bracket hS offset; have h₂ := div_mul_bracket hS (offset + n - 1)
    simp only [clampedStart, max_def, min_def]
    split_ifs <;> omega

end Ata
end Toaru
