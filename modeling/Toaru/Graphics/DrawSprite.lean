import Toaru.Graphics.Sprite

/-!
# `draw_sprite` in every alpha mode

`draw_sprite(ctx, sprite, x, y)` (`unixpipe.c`) picks one of five loops by
`sprite->alpha`. `ALPHA_EMBEDDED` is the SSE2 loop of `Graphics/Sprite.lean`; the other four
share one shape, the scalar loop: for each row `_y` that `_is_in_clip` lets through and each
column `_x`, a pixel inside the clipped rectangle gets the mode's body over its old value.
The bodies are `alpha_blend` with the mask bitmap's red channel (`ALPHA_MASK`), the sprite
pixel made opaque unless it is the `blank` colour (`ALPHA_INDEXED`), `alpha_blend_rgba`
(`ALPHA_FORCE_SLOW_EMBEDDED`), and the sprite pixel made opaque (any other value).

In every mode but `ALPHA_EMBEDDED` the loops compute exactly the pixel map their bodies
describe, for every context, sprite, position and clip list (`draw_sprite_scalar_modes`):
each pixel of the sprite that lies in the rectangle on a row the clip list draws is the
body applied to the old pixel, and every other pixel of the backbuffer is kept. Two sprite
pixels in the rectangle never land on one backbuffer index, because the rectangle keeps the
column within `[0, ctx->width)`; so no pixel is written twice, whatever the position.

Left out: the values of the `ALPHA_*` macros (the header is missing; the modes are named
by their macros), and `sprite->bitmap` and `sprite->masks` past the sprite (they are
functions of the index).
-/

set_option autoImplicit false

namespace Toaru
namespace Graphics

/-! ## 1. The model -/

/-- `sprite->alpha`: the four values `draw_sprite` tests, and every other value. -/
inductive AlphaMode
  | mask
  | embedded
  | indexed
  | forceSlowEmbedded
  | solid
  deriving DecidableEq, Repr

/-- The fields of `sprite_t` that `draw_sprite` reads in all its modes. -/
structure SpriteT extends Sprite where
  masks : Nat → Nat
  blank : Nat
  alpha : AlphaMode

/-- `SMASKS(sprite, x, y)`. -/
def SpriteT.maskPx (spr : SpriteT) (sx sy : Nat) : Nat := spr.masks (spr.width * sy + sx)

/-- `alpha_blend(bottom, top, mask)`: the mask's red channel `a` weighs `top` against
`bottom` in each colour, and the alphas add, saturated at 255. -/
def alphaBlend (bottom top mask : Nat) : Nat :=
  let a := red mask
  rgba ((red bottom * (255 - a) + red top * a) / 255) ((gre bottom * (255 - a) + gre top * a) / 255)
    ((blu bottom * (255 - a) + blu top * a) / 255) (if a + alp bottom > 255 then 255 else a + alp bottom)

/-- The scalar body of the sprite's mode at sprite pixel `(sx, sy)` over the old pixel `v`. -/
def modePixel (spr : SpriteT) (sx sy v : Nat) : Nat :=
  match spr.alpha with
  | .mask => alphaBlend v (spr.px sx sy) (spr.maskPx sx sy)
  | .indexed => if spr.px sx sy ≠ spr.blank then spr.px sx sy ||| 0xFF000000 else v
  | .embedded | .forceSlowEmbedded => alphaBlendRgba v (spr.px sx sy)
  | .solid => spr.px sx sy ||| 0xFF000000

/-- Row `_y` of a scalar loop: the body at `_x = 0 … width - 1` unless the pixel is outside
the rectangle. -/
def modeRow (ctx : Ctx) (spr : SpriteT) (x y : Int) (sy : Nat) (fb : Int → Nat) : Int → Nat :=
  (List.range spr.width).foldl (fun fb (sx : Nat) =>
    if (clipRect ctx spr.toSprite x y).Outside (x + sx) (y + sy) then fb
    else Function.update fb (cell ctx x y sy sx) (modePixel spr sx sy (fb (cell ctx x y sy sx)))) fb

/-- `draw_sprite(ctx, sprite, x, y)`. -/
def drawSprite (ctx : Ctx) (spr : SpriteT) (x y : Int) (fb : Int → Nat) : Int → Nat :=
  match spr.alpha with
  | .embedded => drawSpriteEmbedded ctx spr.toSprite x y fb
  | .forceSlowEmbedded => drawSpriteSlow ctx spr.toSprite x y fb
  | _ => forRows ctx y spr.height (modeRow ctx spr x y) fb

/-- The slow loop of `Graphics/Sprite.lean` is the scalar loop with `alpha_blend_rgba`. -/
theorem drawSprite_of_ne_embedded {spr : SpriteT} (h : spr.alpha ≠ .embedded) (ctx : Ctx)
    (x y : Int) (fb : Int → Nat) :
    drawSprite ctx spr x y fb = forRows ctx y spr.height (modeRow ctx spr x y) fb := by
  unfold drawSprite
  split
  · contradiction
  · next hslow =>
    have hrow : slowRow ctx spr.toSprite x y = modeRow ctx spr x y := by
      funext sy fb'
      simp only [modeRow, slowRow, modePixel, hslow]
      rfl
    rw [drawSpriteSlow, hrow]
  · rfl

/-! ## 2. Folds of pointwise steps -/

section Pointwise

variable {κ : Type} (A : κ → Int → Prop) (g : κ → Int → Nat → Nat)
  {f : (Int → Nat) → κ → Int → Nat}

/-- Steps that keep every pixel outside their set keep a pixel outside all of them. -/
theorem foldl_of_not_mem (hf : ∀ fb k i, ¬A k i → f fb k i = fb i) :
    ∀ (l : List κ) (fb : Int → Nat) (i : Int), (∀ k ∈ l, ¬A k i) → l.foldl f fb i = fb i
  | [], _, _, _ => rfl
  | k :: l, fb, i, h => by
    rw [List.foldl_cons, foldl_of_not_mem hf l _ i fun k' hk' => h k' (List.mem_cons_of_mem _ hk'),
      hf fb k i (h k (List.mem_cons_self _ _))]

/-- Steps with disjoint sets, each mapping the pixels of its set by `g`: a pixel in one
step's set ends as that step's `g` of its old value. -/
theorem foldl_of_mem (hf : ∀ fb k i, ¬A k i → f fb k i = fb i)
    (hg : ∀ fb k i, A k i → f fb k i = g k i (fb i)) (hdisj : ∀ k₁ k₂ i, A k₁ i → A k₂ i → k₁ = k₂) :
    ∀ (l : List κ), l.Nodup → ∀ (fb : Int → Nat) (i : Int) (k : κ), k ∈ l → A k i →
      l.foldl f fb i = g k i (fb i)
  | [], _, _, _, _, hk, _ => absurd hk (List.not_mem_nil _)
  | a :: l, hnd, fb, i, k, hk, hA => by
    rw [List.nodup_cons] at hnd
    rw [List.foldl_cons]
    by_cases hak : a = k
    · subst hak
      rw [foldl_of_not_mem A hf l _ i fun k' hk' hA' => hnd.1 (hdisj k' a i hA' hA ▸ hk'), hg fb a i hA]
    · rw [foldl_of_mem hf hg hdisj l hnd.2 _ i k ((List.mem_cons.1 hk).resolve_left (Ne.symm hak)) hA,
        hf fb a i fun hA' => hak (hdisj a k i hA' hA)]

end Pointwise

/-! ## 3. The scalar loops -/

section Scalar

variable {ctx : Ctx} {spr : SpriteT} {x y : Int}

/-- The pixels row `sy` writes: the cells of its columns inside the rectangle. -/
def RowWrites (ctx : Ctx) (spr : SpriteT) (x y : Int) (sy : Nat) (i : Int) : Prop :=
  ∃ sx < spr.width, ¬(clipRect ctx spr.toSprite x y).Outside (x + sx) (y + sy) ∧ i = cell ctx x y sy sx

/-- A pixel inside the rectangle lies within the screen's width. -/
theorem column_of_inside {sx sy : Nat}
    (h : ¬(clipRect ctx spr.toSprite x y).Outside (x + sx) (y + sy)) :
    0 ≤ x + sx ∧ x + sx < ctx.width := by
  simp only [Rect.Outside, clipRect, not_or, not_lt] at h
  omega

/-- Two pixels inside the rectangle at one index are on one row. -/
theorem row_eq_of_cell_eq {sx₁ sy₁ sx₂ sy₂ : Nat}
    (h₁ : ¬(clipRect ctx spr.toSprite x y).Outside (x + sx₁) (y + sy₁))
    (h₂ : ¬(clipRect ctx spr.toSprite x y).Outside (x + sx₂) (y + sy₂))
    (he : cell ctx x y sy₁ sx₁ = cell ctx x y sy₂ sx₂) : sy₁ = sy₂ := by
  have c₁ := column_of_inside h₁
  have c₂ := column_of_inside h₂
  simp only [cell, Ctx.index] at he
  have gap : ∀ a b : Nat, a < b → (ctx.width : Int) * (y + a) + ctx.width ≤ ctx.width * (y + b) :=
    fun a b hab => by
      rw [← mul_add_one]
      exact mul_le_mul_of_nonneg_left (by omega) (by positivity)
  rcases lt_trichotomy sy₁ sy₂ with hlt | heq | hgt
  · have := gap _ _ hlt
    omega
  · exact heq
  · have := gap _ _ hgt
    omega

/-- Row `sy` maps each pixel it writes by the body of that pixel's column, and keeps the
rest. -/
theorem modeRow_of_writes {sy sx : Nat} {i : Int} (fb : Int → Nat) (hsx : sx < spr.width)
    (hin : ¬(clipRect ctx spr.toSprite x y).Outside (x + sx) (y + sy)) (hi : i = cell ctx x y sy sx) :
    modeRow ctx spr x y sy fb i = modePixel spr sx sy (fb i) := by
  refine foldl_of_mem (fun (sx : Nat) i => ¬(clipRect ctx spr.toSprite x y).Outside (x + sx) (y + sy) ∧
      i = cell ctx x y sy sx) (fun (sx : Nat) _ v => modePixel spr sx sy v) ?_ ?_ ?_ _ (List.nodup_range _) fb
    i sx (List.mem_range.2 hsx) ⟨hin, hi⟩
  · intro fb sx' i h
    split_ifs with ho
    · rfl
    · exact Function.update_noteq (fun he => h ⟨ho, he⟩) _ _
  · rintro fb sx' i ⟨ho, rfl⟩
    rw [if_neg ho, Function.update_same]
  · rintro sx₁ sx₂ i ⟨-, rfl⟩ ⟨-, he⟩
    simp only [cell_eq] at he
    omega

theorem modeRow_of_not_writes {sy : Nat} {i : Int} (fb : Int → Nat) (h : ¬RowWrites ctx spr x y sy i) :
    modeRow ctx spr x y sy fb i = fb i := by
  refine foldl_of_not_mem (fun (sx : Nat) i => ¬(clipRect ctx spr.toSprite x y).Outside (x + sx) (y + sy) ∧
      i = cell ctx x y sy sx) ?_ _ fb i fun sx hsx hA => h ⟨sx, List.mem_range.1 hsx, hA⟩
  intro fb sx' i h'
  split_ifs with ho
  · rfl
  · exact Function.update_noteq (fun he => h' ⟨ho, he⟩) _ _

/-- In every mode but `ALPHA_EMBEDDED`, for every context, clip list, sprite and position,
`draw_sprite` sets each pixel of the sprite that lies in the clipped rectangle on a row the
clip list draws to the mode's body over its old value, and keeps every other pixel of the
backbuffer. -/
theorem draw_sprite_scalar_modes (ctx : Ctx) (spr : SpriteT) (x y : Int) (fb : Int → Nat)
    (hmode : spr.alpha ≠ .embedded) :
    (∀ sy < spr.height, ∀ sx < spr.width, isInClip ctx (y + sy) →
        ¬(clipRect ctx spr.toSprite x y).Outside (x + sx) (y + sy) →
        drawSprite ctx spr x y fb (cell ctx x y sy sx) = modePixel spr sx sy (fb (cell ctx x y sy sx))) ∧
      ∀ i, (∀ sy < spr.height, ∀ sx < spr.width, isInClip ctx (y + sy) →
          ¬(clipRect ctx spr.toSprite x y).Outside (x + sx) (y + sy) → i ≠ cell ctx x y sy sx) →
        drawSprite ctx spr x y fb i = fb i := by
  rw [drawSprite_of_ne_embedded hmode]
  have hf : ∀ fb (sy : Nat) i, ¬(isInClip ctx (y + sy) ∧ RowWrites ctx spr x y sy i) →
      (if isInClip ctx (y + sy) then modeRow ctx spr x y sy fb else fb) i = fb i := fun fb sy i h => by
    split_ifs with hc
    · exact modeRow_of_not_writes fb fun hw => h ⟨hc, hw⟩
    · rfl
  refine ⟨fun sy hsy sx hsx hc hin => ?_, fun i hi => ?_⟩
  · refine foldl_of_mem (fun (sy : Nat) i => isInClip ctx (y + sy) ∧ RowWrites ctx spr x y sy i)
      (fun (sy : Nat) i v => modePixel spr (i - rowBase ctx x y sy).toNat sy v) hf ?_ ?_ _ (List.nodup_range _) fb
      _ sy (List.mem_range.2 hsy) ⟨hc, sx, hsx, hin, rfl⟩ |>.trans ?_
    · rintro fb sy' i ⟨hc', sx', hsx', hin', rfl⟩
      rw [if_pos hc', modeRow_of_writes fb hsx' hin' rfl, cell_eq]
      simp
    · rintro sy₁ sy₂ i ⟨-, sx₁, -, h₁, rfl⟩ ⟨-, sx₂, -, h₂, he⟩
      exact row_eq_of_cell_eq h₁ h₂ he
    · rw [cell_eq]
      simp
  · refine foldl_of_not_mem (fun (sy : Nat) i => isInClip ctx (y + sy) ∧ RowWrites ctx spr x y sy i) hf _ fb i ?_
    rintro sy hsy ⟨hc, sx, hsx, hin, rfl⟩
    exact hi sy (List.mem_range.1 hsy) sx hsx hc hin rfl

/-- A two-pixel solid sprite at `(1, 0)` on a 4×2 screen: its second pixel lands on index 2,
made opaque. -/
theorem draw_sprite_scalar_modes_solid :
    (⟨⟨2, 1, fun _ => 0x336699⟩, fun _ => 0, 0, .solid⟩ : SpriteT).alpha ≠ .embedded ∧
      drawSprite ⟨4, 2, 0, none, 0⟩ ⟨⟨2, 1, fun _ => 0x336699⟩, fun _ => 0, 0, .solid⟩ 1 0 (fun _ => 0) 2 =
        0xFF336699 :=
  have h : (⟨⟨2, 1, fun _ => 0x336699⟩, fun _ => 0, 0, .solid⟩ : SpriteT).alpha ≠ .embedded := by decide
  ⟨h, (draw_sprite_scalar_modes _ _ 1 0 (fun _ => 0) h).1 0 (by decide) 1 (by decide) rfl (by decide)⟩

end Scalar

end Graphics
end Toaru
