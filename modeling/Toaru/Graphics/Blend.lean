import Mathlib.Tactic.IntervalCases
import Mathlib.Logic.Function.Basic

/-!
# Blending one pixel: `alpha_blend_rgba` and the SSE2 lanes of `draw_sprite`

A pixel is a 32-bit `0xAARRGGBB` value; in memory its bytes are blue, green, red, alpha,
so channel `k` of a pixel is its byte `k` (`_BLU`, `_GRE`, `_RED`, `_ALP` for
`k = 0, 1, 2, 3`). Sprites with embedded alpha hold premultiplied colours: no colour
channel exceeds the pixel's alpha.

`alpha_blend_rgba(bottom, top)` puts a premultiplied `top` over `bottom`: every channel
becomes `top + bottom * (255 - a) / 255`, truncated, with `a` the top's alpha, after three
shortcuts (a transparent bottom gives the top, an opaque top gives the top, a transparent
top gives the bottom). The SSE2 loop of `draw_sprite` computes the same sum four pixels at a
time, one 16-bit lane per channel, but divides by 255 with the rounding
`(x + 128) * 257 >> 16` and takes no shortcut.

The two agree up to one unit per channel (`sseBlend_close`) when the bottom is not
transparent and the top is premultiplied, and no better: on `0xFF020202` under
`0x80000000` the scalar code gives `0xFF000000`, the lanes `0xFF010101`.
-/

set_option autoImplicit false

namespace Toaru
namespace Graphics

/-! ## 1. Channels -/

/-- Byte `k` of a pixel: `_BLU`, `_GRE`, `_RED`, `_ALP` for `k = 0, 1, 2, 3`. -/
def chan (k p : Nat) : Nat := p / 256 ^ k % 256

/-- `_ALP(p)`. -/
def alp (p : Nat) : Nat := chan 3 p

/-- `_RED(p)`. -/
def red (p : Nat) : Nat := chan 2 p

/-- `_GRE(p)`. -/
def gre (p : Nat) : Nat := chan 1 p

/-- `_BLU(p)`. -/
def blu (p : Nat) : Nat := chan 0 p

/-- `rgba(r, g, b, a)`: its parameters are `uint8_t`. -/
def rgba (r g b a : Nat) : Nat :=
  a % 256 * 0x1000000 + r % 256 * 0x10000 + g % 256 * 0x100 + b % 256

/-- `min16`: both parameters are `uint16_t`. -/
def min16 (a b : Nat) : Nat := min (a % 2 ^ 16) (b % 2 ^ 16)

/-- A sprite pixel with embedded alpha is premultiplied: no colour exceeds its alpha. -/
def Premultiplied (p : Nat) : Prop := red p ≤ alp p ∧ gre p ≤ alp p ∧ blu p ≤ alp p

instance (p : Nat) : Decidable (Premultiplied p) := inferInstanceAs (Decidable (_ ∧ _))

/-- Two pixels whose channels are each `u`'s or one above: the tolerance the SSE2 loop
keeps to. -/
def Close (u v : Nat) : Prop := ∀ k < 4, chan k u ≤ chan k v ∧ chan k v ≤ chan k u + 1

theorem Close.refl (u : Nat) : Close u u := fun _ _ => ⟨le_rfl, Nat.le_succ _⟩

theorem chan_lt (k p : Nat) : chan k p < 256 := Nat.mod_lt _ (by norm_num)

/-- Four channels packed into a pixel, blue first. -/
def pack (f : Nat → Nat) : Nat := f 0 + f 1 * 0x100 + f 2 * 0x10000 + f 3 * 0x1000000

theorem chan_pack {f : Nat → Nat} (hf : ∀ k < 4, f k < 256) {k : Nat} (hk : k < 4) :
    chan k (pack f) = f k := by
  have := hf 0 (by norm_num); have := hf 1 (by norm_num)
  have := hf 2 (by norm_num); have := hf 3 (by norm_num)
  interval_cases k <;> simp only [chan, pack] <;> omega

theorem chan_rgba (r g b a : Nat) {k : Nat} (hk : k < 4) :
    chan k (rgba r g b a) = [b % 256, g % 256, r % 256, a % 256].getD k 0 := by
  interval_cases k <;> simp only [chan, rgba, List.getD_cons_zero, List.getD_cons_succ] <;> omega

/-! ## 2. `alpha_blend_rgba` -/

/-- `alpha_blend_rgba(bottom, top)` with `DONT_USE_FLOAT_FOR_ALPHA`. -/
def alphaBlendRgba (bottom top : Nat) : Nat :=
  if alp bottom = 0 then top
  else if alp top = 255 then top
  else if alp top = 0 then bottom
  else
    let a := alp top
    let c := 255 - a
    let b := alp bottom * c / 255
    let alp' := min16 (a + b) 255
    let red' := min16 ((red bottom * c + red top * 255) / 255) 255
    let gre' := min16 ((gre bottom * c + gre top * 255) / 255) 255
    let blu' := min16 ((blu bottom * c + blu top * 255) / 255) 255
    rgba red' gre' blu' alp'

/-- Off the shortcuts, every channel of `alpha_blend_rgba` is the top's plus the bottom's
scaled by `255 - a` and truncated, saturated at 255. -/
theorem chan_alphaBlendRgba {d s : Nat} (hd : alp d ≠ 0) (h0 : alp s ≠ 0) (h1 : alp s ≠ 255)
    {k : Nat} (hk : k < 4) :
    chan k (alphaBlendRgba d s) = min (chan k s + chan k d * (255 - alp s) / 255) 255 := by
  -- the colours: `(d * c + s * 255) / 255` is `s + d * c / 255`, and nothing wraps
  have hcol : ∀ k, min16 ((chan k d * (255 - alp s) + chan k s * 255) / 255) 255 % 256 =
      min (chan k s + chan k d * (255 - alp s) / 255) 255 := fun k => by
    have := chan_lt k s
    have : chan k d * (255 - alp s) ≤ 255 * 255 :=
      Nat.mul_le_mul (Nat.le_of_lt_succ (chan_lt k d)) (Nat.sub_le _ _)
    simp only [min16]; omega
  have halp : min16 (alp s + alp d * (255 - alp s) / 255) 255 % 256 =
      min (alp s + alp d * (255 - alp s) / 255) 255 := by
    have : alp s < 256 := chan_lt 3 s
    have : alp d * (255 - alp s) ≤ 255 * 255 :=
      Nat.mul_le_mul (Nat.le_of_lt_succ (chan_lt 3 d)) (Nat.sub_le _ _)
    simp only [min16]; omega
  simp only [alphaBlendRgba, if_neg hd, if_neg h0, if_neg h1, chan_rgba _ _ _ _ hk]
  interval_cases k
  exacts [hcol 0, hcol 1, hcol 2, halp]

/-! ## 3. The SSE2 lanes -/

/-- `_mm_mullo_epi16` on one lane: the low 16 bits of the product. -/
def mulloEpi16 (a b : Nat) : Nat := a * b % 2 ^ 16

/-- `_mm_adds_epu16` on one lane: unsigned saturating sum. -/
def addsEpu16 (a b : Nat) : Nat := min (a + b) 0xFFFF

/-- `_mm_mulhi_epu16` on one lane: the high 16 bits of the product. -/
def mulhiEpu16 (a b : Nat) : Nat := a * b / 2 ^ 16

/-- `_mm_adds_epu8` on one 16-bit lane: each of its two bytes is a saturating sum. -/
def addsEpu8 (a b : Nat) : Nat :=
  min (a % 256 + b % 256) 255 + 256 * min (a / 256 % 256 + b / 256 % 256) 255

/-- `_mm_packus_epi16` on one lane: the signed 16-bit value saturated to `0 ‥ 255`. -/
def packusEpi16 (a : Nat) : Nat := if 2 ^ 15 ≤ a then 0 else min a 255

/-- One channel through the loop: destination lane `d`, source lane `s`, source alpha `a`
(broadcast by the two shuffles), `t = a ^ mask00ff`, then
`packus(adds_epu8(s, mulhi(adds_epu16(mullo(d, t), mask0080), mask0101)))`. -/
def sseChannel (d s a : Nat) : Nat :=
  packusEpi16 (addsEpu8 s (mulhiEpu16 (addsEpu16 (mulloEpi16 d (a ^^^ 0x00FF)) 0x0080) 0x0101))

/-- One pixel of the SSE2 block: the unpacks give each channel its own lane. -/
def sseBlend (d s : Nat) : Nat := pack fun k => sseChannel (chan k d) (chan k s) (alp s)

theorem xor_mask00ff {a : Nat} (h : a < 256) : a ^^^ 0x00FF = 255 - a := by
  interval_cases a <;> rfl

theorem addsEpu8_of_lt {a b : Nat} (ha : a < 256) (hb : b < 256) :
    addsEpu8 a b = min (a + b) 255 := by
  simp only [addsEpu8, Nat.mod_eq_of_lt ha, Nat.mod_eq_of_lt hb, Nat.div_eq_of_lt ha,
    Nat.div_eq_of_lt hb, Nat.zero_mod, Nat.add_zero, Nat.zero_le, min_eq_left, Nat.mul_zero]

theorem packusEpi16_of_le {a : Nat} (h : a ≤ 255) : packusEpi16 a = a := by
  rw [packusEpi16, if_neg (by omega), min_eq_left h]

/-- The lane arithmetic is `min (s + round ((d * (255 - a)) / 255)) 255`, with the
rounding `(x + 128) * 257 >> 16`: no lane wraps or saturates on the way. -/
theorem sseChannel_eq {d s a : Nat} (hd : d < 256) (hs : s < 256) (ha : a < 256) :
    sseChannel d s a = min (s + (d * (255 - a) + 128) * 257 / 65536) 255 := by
  have hx : d * (255 - a) ≤ 255 * 255 := Nat.mul_le_mul (by omega) (Nat.sub_le _ _)
  have hlo : mulloEpi16 d (a ^^^ 0x00FF) = d * (255 - a) := by
    rw [mulloEpi16, xor_mask00ff ha]; exact Nat.mod_eq_of_lt (by omega)
  have hadd : addsEpu16 (d * (255 - a)) 0x0080 = d * (255 - a) + 128 := min_eq_left (by omega)
  have hv : (d * (255 - a) + 128) * 257 / 65536 < 256 := by omega
  rw [sseChannel, hlo, hadd, mulhiEpu16, show (2 : Nat) ^ 16 = 65536 from rfl, addsEpu8_of_lt hs hv, packusEpi16_of_le (min_le_right _ _)]

theorem chan_sseBlend (d s : Nat) {k : Nat} (hk : k < 4) :
    chan k (sseBlend d s) = min (chan k s + (chan k d * (255 - alp s) + 128) * 257 / 65536) 255 := by
  have hlane : ∀ k, sseChannel (chan k d) (chan k s) (alp s) =
      min (chan k s + (chan k d * (255 - alp s) + 128) * 257 / 65536) 255 := fun k =>
    sseChannel_eq (chan_lt k d) (chan_lt k s) (chan_lt 3 s)
  rw [sseBlend, chan_pack (fun k _ => by rw [hlane]; omega) hk, hlane]

/-- The rounded quotient is the truncated one or one above it. -/
theorem div255_round {x : Nat} (h : x ≤ 255 * 255) :
    x / 255 ≤ (x + 128) * 257 / 65536 ∧ (x + 128) * 257 / 65536 ≤ x / 255 + 1 := by
  omega

/-- Off its shortcuts' cases the lanes are exact: over a bottom pixel that is not
transparent, a premultiplied top pixel that is transparent or opaque blends in the lanes to
the scalar code's channels. -/
theorem sseBlend_exact {d s : Nat} (hd : alp d ≠ 0) (hs : Premultiplied s)
    (hbin : alp s = 0 ∨ alp s = 255) {k : Nat} (hk : k < 4) :
    chan k (sseBlend d s) = chan k (alphaBlendRgba d s) := by
  rw [chan_sseBlend d s hk]
  have hck := chan_lt k d
  rcases hbin with h0 | h1
  · -- a transparent top: the lanes add nothing but the bottom
    have hsk : chan k s = 0 := by
      obtain ⟨hr, hg, hb⟩ := hs
      simp only [red, gre, blu, alp] at hr hg hb h0
      interval_cases k <;> omega
    have hblend : alphaBlendRgba d s = d := by simp [alphaBlendRgba, hd, h0]
    rw [hblend, hsk, h0]
    omega
  · -- an opaque top: the lanes add nothing of the bottom
    have hsk := chan_lt k s
    simp only [alphaBlendRgba, if_neg hd, h1, if_true]
    omega

/-- **The SSE2 lanes are `alpha_blend_rgba` up to rounding.** Over a bottom pixel that is not
transparent, a premultiplied top pixel blends in the lanes to a pixel whose every channel is
the scalar code's or one above it. -/
theorem sseBlend_close {d s : Nat} (hd : alp d ≠ 0) (hs : Premultiplied s) :
    Close (alphaBlendRgba d s) (sseBlend d s) := by
  intro k hk
  by_cases hbin : alp s = 0 ∨ alp s = 255
  · rw [sseBlend_exact hd hs hbin hk]; exact ⟨le_rfl, Nat.le_succ _⟩
  push_neg at hbin
  rw [chan_sseBlend d s hk, chan_alphaBlendRgba hd hbin.1 hbin.2 hk]
  have hx : chan k d * (255 - alp s) ≤ 255 * 255 :=
    Nat.mul_le_mul (Nat.le_of_lt_succ (chan_lt k d)) (Nat.sub_le _ _)
  have := div255_round hx
  omega

/-- An opaque bottom stays opaque under `alpha_blend_rgba`. -/
theorem alp_alphaBlendRgba {d s : Nat} (hd : alp d = 255) : alp (alphaBlendRgba d s) = 255 := by
  by_cases h1 : alp s = 255
  · simp [alphaBlendRgba, hd, h1]
  by_cases h0 : alp s = 0
  · simp [alphaBlendRgba, hd, h0]
  have := chan_lt 3 s
  rw [alp, chan_alphaBlendRgba (by omega) h0 h1 (by norm_num), show chan 3 d = alp d from rfl, show chan 3 s = alp s from rfl, hd]
  omega

/-- An opaque bottom stays opaque in the lanes: `255 * (255 - a)` divides by 255 exactly. -/
theorem alp_sseBlend {d s : Nat} (hd : alp d = 255) : alp (sseBlend d s) = 255 := by
  have := chan_lt 3 s
  rw [alp, chan_sseBlend d s (by norm_num), show chan 3 d = alp d from rfl, show chan 3 s = alp s from rfl, hd]
  omega

/-- The rounding shows: the scalar code truncates `2 * 127 / 255` to 0, the lanes round it
to 1. -/
example :
    alphaBlendRgba 0xFF020202 0x80000000 = 0xFF000000 ∧ sseBlend 0xFF020202 0x80000000 = 0xFF010101 := by
  decide

end Graphics
end Toaru
