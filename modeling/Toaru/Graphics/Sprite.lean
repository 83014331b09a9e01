import Toaru.Graphics.Blend
import Mathlib.Tactic.Linarith

/-!
# `draw_sprite` with embedded alpha: the SSE2 loop against the scalar one

`draw_sprite(ctx, sprite, x, y)` clips the sprite's rectangle to the screen and, on each
row the clip list lets through, blends every sprite pixel whose screen position lies in
the clipped rectangle into the backbuffer. With `ALPHA_FORCE_SLOW_EMBEDDED` it does so one
pixel at a time with `alpha_blend_rgba` (`drawSpriteSlow`). With `ALPHA_EMBEDDED`
(`drawSpriteEmbedded`) each row runs three loops: scalar pixels until the backbuffer
address is 16-byte aligned, then blocks of four pixels through the SSE2 lanes of
`Graphics/Blend.lean`, then scalar pixels to the end of the row. A block is skipped whole
when one of its four pixels is outside the rectangle, and left alone when its four sprite
pixels are all zero.

So the two paths do not agree: the lanes round where the scalar code truncates, and a
block that crosses the rectangle's right edge is dropped, pixels inside the rectangle
included (`draw_sprite_embedded_diverges`). They agree up to one unit per channel
(`draw_sprite_embedded_close`) for a sprite that lies across the screen's width, with
premultiplied pixels, over a backbuffer without transparent pixels; and channel for channel
if, moreover, each sprite pixel is transparent or opaque
(`draw_sprite_embedded_exact_binary_alpha`).
The proof follows each row's loops column by column (`Done`): a step rewrites only its own
pixels, each from its own old value, so a whole row, and then the whole sprite, is a map
over the old pixels (`drawSprite_rel`). The same column-by-column view gives what holds for
every placement: the SSE2 path writes only inside the clipped rectangle
(`draw_sprite_embedded_writes_in_rect`), and both paths keep an opaque backbuffer opaque
(`draw_sprite_keeps_opaque`).

The layout of `gfx_context_t` and `sprite_t` is not in the source: the backbuffer is taken
as rows of `ctx->width` 32-bit pixels (`GFX(ctx, X, Y)` at index `ctx->width * Y + X`) and
the sprite's bitmap as rows of `sprite->width` pixels.
-/

set_option autoImplicit false

namespace Toaru
namespace Graphics

/-! ## 1. The context, the sprite and the clipped rectangle -/

/-- The fields of `gfx_context_t` that `draw_sprite` reads. -/
structure Ctx where
  width : Nat
  height : Nat
  /-- `(uintptr_t)ctx->backbuffer`. -/
  base : Nat
  /-- `ctx->clips`, `none` for `NULL`. -/
  clips : Option (Nat → Bool)
  clipsSize : Nat

/-- The backbuffer index of `GFX(ctx, X, Y)`. -/
def Ctx.index (ctx : Ctx) (X Y : Int) : Int := ctx.width * Y + X

/-- `_is_in_clip(ctx, y)`. -/
def isInClip (ctx : Ctx) (y : Int) : Bool :=
  match ctx.clips with
  | none => true
  | some clips => if y < 0 ∨ y ≥ ctx.clipsSize then true else clips y.toNat

/-- The fields of `sprite_t` that `draw_sprite` reads with embedded alpha. -/
structure Sprite where
  width : Nat
  height : Nat
  bitmap : Nat → Nat

/-- `SPRITE(sprite, x, y)`. -/
def Sprite.px (spr : Sprite) (sx sy : Nat) : Nat := spr.bitmap (spr.width * sy + sx)

/-- `_left`, `_top`, `_right`, `_bottom`. -/
structure Rect where
  left : Int
  top : Int
  right : Int
  bottom : Int

/-- The clipped rectangle `draw_sprite` computes first. -/
def clipRect (ctx : Ctx) (spr : Sprite) (x y : Int) : Rect :=
  ⟨max x 0, max y 0, min (x + spr.width) (ctx.width - 1), min (y + spr.height) (ctx.height - 1)⟩

/-- The scalar loops' test `x + _x < _left || x + _x > _right || y + _y < _top || y + _y > _bottom`. -/
def Rect.Outside (r : Rect) (X Y : Int) : Prop := X < r.left ∨ X > r.right ∨ Y < r.top ∨ Y > r.bottom

/-- The block loop's test: `x + _x + 3 > _right` in place of `x + _x > _right`. -/
def Rect.BlockOutside (r : Rect) (X Y : Int) : Prop :=
  X < r.left ∨ X + 3 > r.right ∨ Y < r.top ∨ Y > r.bottom

instance (r : Rect) (X Y : Int) : Decidable (r.Outside X Y) :=
  inferInstanceAs (Decidable (_ ∨ _))

instance (r : Rect) (X Y : Int) : Decidable (r.BlockOutside X Y) :=
  inferInstanceAs (Decidable (_ ∨ _))

/-- For a sprite across the screen's width, only the row decides whether a pixel, or a
block of four, is outside. -/
theorem outside_iff {ctx : Ctx} {spr : Sprite} {x y : Int} (hx : 0 ≤ x)
    (hw : x + spr.width ≤ ctx.width) {j : Nat} (hj : j < spr.width) (Y : Int) :
    (clipRect ctx spr x y).Outside (x + j) Y ↔ Y < max y 0 ∨ Y > min (y + spr.height) (ctx.height - 1) := by
  simp only [Rect.Outside, clipRect]; omega

theorem blockOutside_iff {ctx : Ctx} {spr : Sprite} {x y : Int} (hx : 0 ≤ x)
    (hw : x + spr.width ≤ ctx.width) {j : Nat} (hj : j + 4 ≤ spr.width) (Y : Int) :
    (clipRect ctx spr x y).BlockOutside (x + j) Y ↔
      Y < max y 0 ∨ Y > min (y + spr.height) (ctx.height - 1) := by
  simp only [Rect.BlockOutside, clipRect]; omega

/-! ## 2. One row: the loop bodies and the three loops -/

section Row

variable (ctx : Ctx) (spr : Sprite) (x y : Int) (sy : Nat)

/-- The backbuffer index of sprite column 0 of row `sy`. -/
def rowBase : Int := ctx.index x (y + sy)

/-- The backbuffer index of sprite column `sx` of row `sy`. -/
def cell (sx : Nat) : Int := ctx.index (x + sx) (y + sy)

theorem cell_eq (sx : Nat) : cell ctx x y sy sx = rowBase ctx x y sy + sx := by
  simp only [cell, rowBase, Ctx.index, Int.add_assoc]

/-- What the scalar body leaves at column `sx` over the old pixel `v`. -/
def pixelResult (sx v : Nat) : Nat :=
  if (clipRect ctx spr x y).Outside (x + sx) (y + sy) then v else alphaBlendRgba v (spr.px sx sy)

/-- The scalar body at column `sx`:
`GFX(ctx, x + _x, y + _y) = alpha_blend_rgba(GFX(ctx, x + _x, y + _y), SPRITE(sprite, _x, _y))`
unless the pixel is outside the rectangle. -/
def blendPixel (fb : Int → Nat) (sx : Nat) : Int → Nat :=
  if (clipRect ctx spr x y).Outside (x + sx) (y + sy) then fb
  else Function.update fb (cell ctx x y sy sx) (alphaBlendRgba (fb (cell ctx x y sy sx)) (spr.px sx sy))

/-- `_mm_storeu_si128`: four pixels `v 0 … v 3` from index `i` on. -/
def store4 (fb : Int → Nat) (i : Int) (v : Nat → Nat) (j : Int) : Nat :=
  if i ≤ j ∧ j < i + 4 then v (j - i).toNat else fb j

/-- The block `_mm_movemask_epi8(_mm_cmpeq_epi8(s, _mm_setzero_si128())) == 0xFFFF` skips:
all sixteen bytes of its sprite pixels are zero. -/
def Clear (sx : Nat) : Prop := ∀ l < 4, ∀ k < 4, chan k (spr.px (sx + l) sy) = 0

instance (sx : Nat) : Decidable (Clear spr sy sx) := inferInstanceAs (Decidable (∀ _ < 4, _))

/-- The block the test
`(_mm_movemask_epi8(_mm_cmpeq_epi8(s, _mm_cmpeq_epi8(s,s))) & 0x8888) == 0x8888` finds
opaque: the alpha bytes of its four sprite pixels are all 0xFF. -/
def FullAlpha (sx : Nat) : Prop := ∀ l < 4, alp (spr.px (sx + l) sy) = 255

instance (sx : Nat) : Decidable (FullAlpha spr sy sx) := inferInstanceAs (Decidable (∀ _ < 4, _))

/-- What the block body at `sx` leaves at column `j` over the old pixel `v`. -/
def blockResult (sx j v : Nat) : Nat :=
  if (clipRect ctx spr x y).BlockOutside (x + sx) (y + sy) ∨ Clear spr sy sx then v
  else sseBlend v (spr.px j sy)

/-- The block body at `sx`: skip a block that is not wholly inside or is clear; store an
opaque block as it is; then store the lanes' blend of the block over the destination
loaded before. -/
def blendBlock (fb : Int → Nat) (sx : Nat) : Int → Nat :=
  if (clipRect ctx spr x y).BlockOutside (x + sx) (y + sy) then fb
  else
    let d := fun l : Nat => fb (cell ctx x y sy (sx + l))
    let s := fun l : Nat => spr.px (sx + l) sy
    if Clear spr sy sx then fb
    else
      let fb := if FullAlpha spr sy sx then store4 fb (cell ctx x y sy sx) s else fb
      store4 fb (cell ctx x y sy sx) fun l => sseBlend (d l) (s l)

/-- `for (; _x < sprite->width && ((uintptr_t)&GFX(ctx, x + _x, y + _y) & 15); ++_x)`,
at most `n` more times; it returns the backbuffer and the `_x` it stops at. -/
def alignLoop : Nat → Nat → (Int → Nat) → (Int → Nat) × Nat
  | 0, sx, fb => (fb, sx)
  | n + 1, sx, fb =>
    if sx < spr.width ∧ (ctx.base + 4 * cell ctx x y sy sx) % 16 ≠ 0 then
      alignLoop n (sx + 1) (blendPixel ctx spr x y sy fb sx)
    else (fb, sx)

/-- `for (; _x < sprite->width - 3; _x += 4)`, at most `n` more times. -/
def blockLoop : Nat → Nat → (Int → Nat) → (Int → Nat) × Nat
  | 0, sx, fb => (fb, sx)
  | n + 1, sx, fb =>
    if (sx : Int) < spr.width - 3 then blockLoop n (sx + 4) (blendBlock ctx spr x y sy fb sx)
    else (fb, sx)

/-- `for (; _x < sprite->width; ++_x)`, at most `n` more times. -/
def tailLoop : Nat → Nat → (Int → Nat) → Int → Nat
  | 0, _, fb => fb
  | n + 1, sx, fb =>
    if sx < spr.width then tailLoop n (sx + 1) (blendPixel ctx spr x y sy fb sx) else fb

/-- Row `_y` under `ALPHA_EMBEDDED`: the three loops from `_x = 0`. Each runs at most
`sprite->width` times, since each pass moves `_x` on and none passes `sprite->width`. -/
def embeddedRow (fb : Int → Nat) : Int → Nat :=
  let (fb, sx) := alignLoop ctx spr x y sy spr.width 0 fb
  let (fb, sx) := blockLoop ctx spr x y sy spr.width sx fb
  tailLoop ctx spr x y sy spr.width sx fb

/-- Row `_y` under `ALPHA_FORCE_SLOW_EMBEDDED`: the scalar body for `_x = 0 … width - 1`. -/
def slowRow (fb : Int → Nat) : Int → Nat :=
  (List.range spr.width).foldl (blendPixel ctx spr x y sy) fb

end Row

/-- `for (uint16_t _y = 0; _y < sprite->height; ++_y) { if (!_is_in_clip(ctx, y + _y)) continue; … }`. -/
def forRows (ctx : Ctx) (y : Int) (height : Nat) (row : Nat → (Int → Nat) → Int → Nat)
    (fb : Int → Nat) : Int → Nat :=
  (List.range height).foldl (fun fb (sy : Nat) => if isInClip ctx (y + sy) then row sy fb else fb) fb

/-- `draw_sprite` with `sprite->alpha == ALPHA_EMBEDDED`. -/
def drawSpriteEmbedded (ctx : Ctx) (spr : Sprite) (x y : Int) (fb : Int → Nat) : Int → Nat :=
  forRows ctx y spr.height (embeddedRow ctx spr x y) fb

/-- `draw_sprite` with `sprite->alpha == ALPHA_FORCE_SLOW_EMBEDDED`. -/
def drawSpriteSlow (ctx : Ctx) (spr : Sprite) (x y : Int) (fb : Int → Nat) : Int → Nat :=
  forRows ctx y spr.height (slowRow ctx spr x y) fb

/-! ## 3. Column by column -/

/-- The columns below `k` of the row whose column 0 is at index `rb` are done: each has
gone from its old value to one that `R` allows, and every other index keeps its value. -/
def Done (R : Nat → Nat → Nat → Prop) (rb : Int) (fb₀ fb : Int → Nat) (k : Nat) : Prop :=
  (∀ i, (i < rb ∨ rb + k ≤ i) → fb i = fb₀ i) ∧ ∀ j < k, R j (fb₀ (rb + j)) (fb (rb + j))

section Done

variable {R : Nat → Nat → Nat → Prop} {rb : Int} {fb₀ : Int → Nat}

theorem Done.start : Done R rb fb₀ fb₀ 0 := ⟨fun _ _ => rfl, fun _ h => absurd h (Nat.not_lt_zero _)⟩

/-- A step that maps each of the `w` pixels from column `k` on by a function of its old
value, which `R` allows, and leaves the rest, takes the row from `k` done to `k + w` done. -/
theorem Done.step {fb fb' : Int → Nat} {k w : Nat} {g : Nat → Nat → Nat}
    (h : ∀ i, fb' i = if rb + k ≤ i ∧ i < rb + k + w then g (i - rb).toNat (fb i) else fb i)
    (hR : ∀ j, k ≤ j → j < k + w → ∀ v, R j v (g j v)) (hd : Done R rb fb₀ fb k) :
    Done R rb fb₀ fb' (k + w) := by
  refine ⟨fun i hi => ?_, fun j hj => ?_⟩
  · rw [h, if_neg (by omega)]; exact hd.1 i (by omega)
  · rw [h]
    by_cases hjk : j < k
    · rw [if_neg (by omega)]; exact hd.2 j hjk
    · have hj' : (rb + j - rb).toNat = j := by simp
      rw [if_pos (by omega), hj', hd.1 _ (by omega)]
      exact hR j (by omega) hj _

end Done

section RowDone

variable {ctx : Ctx} {spr : Sprite} {x y : Int} {sy : Nat} {R : Nat → Nat → Nat → Prop}
  {fb₀ : Int → Nat}

theorem blendPixel_apply (fb : Int → Nat) (sx : Nat) (i : Int) :
    blendPixel ctx spr x y sy fb sx i =
      if rowBase ctx x y sy + sx ≤ i ∧ i < rowBase ctx x y sy + sx + 1 then
        pixelResult ctx spr x y sy (i - rowBase ctx x y sy).toNat (fb i)
      else fb i := by
  simp only [blendPixel, pixelResult, cell_eq]
  by_cases hi : i = rowBase ctx x y sy + sx
  · subst hi
    by_cases ho : (clipRect ctx spr x y).Outside (x + sx) (y + sy) <;> simp [ho]
  · rw [if_neg (show ¬(rowBase ctx x y sy + sx ≤ i ∧ i < rowBase ctx x y sy + sx + 1) by omega)]
    split_ifs <;> simp [Function.update_noteq hi]

theorem blendBlock_apply (fb : Int → Nat) (sx : Nat) (i : Int) :
    blendBlock ctx spr x y sy fb sx i =
      if rowBase ctx x y sy + sx ≤ i ∧ i < rowBase ctx x y sy + sx + 4 then
        blockResult ctx spr x y sy sx (i - rowBase ctx x y sy).toNat (fb i)
      else fb i := by
  simp only [blendBlock, blockResult, cell_eq]
  by_cases hin : rowBase ctx x y sy + sx ≤ i ∧ i < rowBase ctx x y sy + sx + 4
  · have e1 : sx + (i - (rowBase ctx x y sy + sx)).toNat = (i - rowBase ctx x y sy).toNat := by
      omega
    have e2 : rowBase ctx x y sy + ((i - rowBase ctx x y sy).toNat : Nat) = i := by omega
    rw [if_pos hin]
    by_cases hb : (clipRect ctx spr x y).BlockOutside (x + sx) (y + sy)
    · rw [if_pos hb, if_pos (.inl hb)]
    by_cases hc : Clear spr sy sx
    · rw [if_neg hb, if_pos hc, if_pos (.inr hc)]
    rw [if_neg hb, if_neg hc, if_neg (not_or.mpr ⟨hb, hc⟩)]
    split_ifs <;> simp only [store4, if_pos hin, e1, e2]
  · rw [if_neg hin]
    split_ifs <;> first | rfl | simp only [store4, if_neg hin]

/-- The scalar loop runs columns until it stops, at most at the row's end. -/
theorem alignLoop_done (hR : ∀ j < spr.width, ∀ v, R j v (pixelResult ctx spr x y sy j v)) :
    ∀ n sx fb, Done R (rowBase ctx x y sy) fb₀ fb sx → sx ≤ spr.width →
      Done R (rowBase ctx x y sy) fb₀ (alignLoop ctx spr x y sy n sx fb).1
        (alignLoop ctx spr x y sy n sx fb).2 ∧ (alignLoop ctx spr x y sy n sx fb).2 ≤ spr.width
  | 0, _, _, hd, hle => ⟨hd, hle⟩
  | n + 1, sx, fb, hd, hle => by
    rw [alignLoop]
    split_ifs with h
    · exact alignLoop_done hR n (sx + 1) _
        (hd.step (blendPixel_apply fb sx) (fun j h1 h2 v => hR j (by omega) v)) h.1
    · exact ⟨hd, hle⟩

theorem blockLoop_done
    (hR : ∀ sx, sx + 4 ≤ spr.width → ∀ j, sx ≤ j → j < sx + 4 → ∀ v,
      R j v (blockResult ctx spr x y sy sx j v)) :
    ∀ n sx fb, Done R (rowBase ctx x y sy) fb₀ fb sx → sx ≤ spr.width →
      Done R (rowBase ctx x y sy) fb₀ (blockLoop ctx spr x y sy n sx fb).1
        (blockLoop ctx spr x y sy n sx fb).2 ∧ (blockLoop ctx spr x y sy n sx fb).2 ≤ spr.width
  | 0, _, _, hd, hle => ⟨hd, hle⟩
  | n + 1, sx, fb, hd, hle => by
    rw [blockLoop]
    split_ifs with h
    · exact blockLoop_done hR n (sx + 4) _
        (hd.step (blendBlock_apply fb sx) (hR sx (by omega))) (by omega)
    · exact ⟨hd, hle⟩

theorem tailLoop_done (hR : ∀ j < spr.width, ∀ v, R j v (pixelResult ctx spr x y sy j v)) :
    ∀ n sx fb, Done R (rowBase ctx x y sy) fb₀ fb sx → sx ≤ spr.width → spr.width ≤ sx + n →
      Done R (rowBase ctx x y sy) fb₀ (tailLoop ctx spr x y sy n sx fb) spr.width
  | 0, sx, _, hd, hle, hn => by rw [show sx = spr.width by omega] at hd; exact hd
  | n + 1, sx, fb, hd, hle, hn => by
    rw [tailLoop]
    split_ifs with h
    · exact tailLoop_done hR n (sx + 1) _
        (hd.step (blendPixel_apply fb sx) (fun j h1 h2 v => hR j (by omega) v)) h (by omega)
    · rw [show sx = spr.width by omega] at hd; exact hd

/-- **A row under `ALPHA_EMBEDDED`**: each column holds what the scalar body or the block
body made of its old value, and the rest of the backbuffer is as it was. -/
theorem embeddedRow_done (hpx : ∀ j < spr.width, ∀ v, R j v (pixelResult ctx spr x y sy j v))
    (hblk : ∀ sx, sx + 4 ≤ spr.width → ∀ j, sx ≤ j → j < sx + 4 → ∀ v,
      R j v (blockResult ctx spr x y sy sx j v)) :
    Done R (rowBase ctx x y sy) fb₀ (embeddedRow ctx spr x y sy fb₀) spr.width := by
  obtain ⟨h1, hle1⟩ := alignLoop_done hpx spr.width 0 fb₀ Done.start (Nat.zero_le _)
  obtain ⟨h2, hle2⟩ := blockLoop_done hblk spr.width _ _ h1 hle1
  exact tailLoop_done hpx spr.width _ _ h2 hle2 (by omega)

/-- **A row under `ALPHA_FORCE_SLOW_EMBEDDED`**: each column holds what the scalar body
made of its old value. -/
theorem slowRow_done :
    Done (fun j v v' => v' = pixelResult ctx spr x y sy j v) (rowBase ctx x y sy) fb₀
      (slowRow ctx spr x y sy fb₀) spr.width := by
  have : ∀ n ≤ spr.width, Done (fun j v v' => v' = pixelResult ctx spr x y sy j v)
      (rowBase ctx x y sy) fb₀ ((List.range n).foldl (blendPixel ctx spr x y sy) fb₀) n := by
    intro n
    induction n with
    | zero => intro _; exact Done.start
    | succ n ih =>
      intro hn
      rw [List.range_succ, List.foldl_append, List.foldl_cons, List.foldl_nil]
      exact (ih (by omega)).step (blendPixel_apply _ n) fun j h1 h2 v => rfl
  exact this _ le_rfl

end RowDone

/-! ## 4. Row by row -/

/-- **The rows of a sprite.** When each row maps its own columns and the rows' columns do
not meet, every pixel of a row that the clip list lets through ends as its row's `R` allows
from its value before the sprite was drawn, and every other pixel keeps its value. -/
theorem forRows_done {ctx : Ctx} {y : Int} {w : Nat} {row : Nat → (Int → Nat) → Int → Nat}
    {R : Nat → Nat → Nat → Nat → Prop} {rb : Nat → Int}
    (hrow : ∀ (sy : Nat) fb, Done (R sy) (rb sy) fb (row sy fb) w)
    (hsep : ∀ sy sy' : Nat, sy < sy' → rb sy + w ≤ rb sy') (fb₀ : Int → Nat) :
    ∀ n : Nat, (∀ i, (∀ sy : Nat, sy < n → isInClip ctx (y + sy) → i < rb sy ∨ rb sy + w ≤ i) →
        forRows ctx y n row fb₀ i = fb₀ i) ∧
      ∀ sy : Nat, sy < n → isInClip ctx (y + sy) → ∀ j < w,
        R sy j (fb₀ (rb sy + j)) (forRows ctx y n row fb₀ (rb sy + j)) := by
  intro n
  induction n with
  | zero => exact ⟨fun _ _ => rfl, fun _ h => absurd h (Nat.not_lt_zero _)⟩
  | succ n ih =>
    have hstep : forRows ctx y (n + 1) row fb₀ =
        if isInClip ctx (y + n) then row n (forRows ctx y n row fb₀) else forRows ctx y n row fb₀ := by
      simp only [forRows, List.range_succ, List.foldl_append, List.foldl_cons, List.foldl_nil]
    have hframe : ∀ i, (i < rb n ∨ rb n + w ≤ i) →
        forRows ctx y (n + 1) row fb₀ i = forRows ctx y n row fb₀ i := fun i hi => by
      rw [hstep]; split_ifs
      · exact (hrow n _).1 i hi
      · rfl
    refine ⟨fun i hi => ?_, fun sy hsy hc j hj => ?_⟩
    · by_cases hc : isInClip ctx (y + n)
      · rw [hframe i (hi n (Nat.lt_succ_self n) hc)]
        exact ih.1 i fun sy h => hi sy (by omega)
      · rw [hstep, if_neg hc]; exact ih.1 i fun sy h => hi sy (by omega)
    · rcases Nat.lt_succ_iff_lt_or_eq.mp hsy with hlt | rfl
      · rw [hframe _ (.inl (by have := hsep sy n hlt; omega))]
        exact ih.2 sy hlt hc j hj
      · have hold : forRows ctx y sy row fb₀ (rb sy + j) = fb₀ (rb sy + j) :=
          ih.1 _ fun sy' h _ => .inr (by have := hsep sy' sy h; omega)
        rw [hstep, if_pos hc, ← hold]
        exact (hrow sy _).2 j hj

/-- Rows of the backbuffer follow each other `ctx->width` pixels apart. -/
theorem rowBase_sep {ctx : Ctx} {spr : Sprite} {x y : Int} (hw : x + spr.width ≤ ctx.width)
    (hx : 0 ≤ x) {sy sy' : Nat} (h : sy < sy') :
    rowBase ctx x y sy + spr.width ≤ rowBase ctx x y sy' := by
  have hgap : (ctx.width : Int) * (y + sy) + ctx.width ≤ ctx.width * (y + sy') := by
    have : ((sy : Int) + 1) ≤ sy' := by omega
    nlinarith [Int.ofNat_nonneg ctx.width]
  simp only [rowBase, Ctx.index]; omega

/-! ## 5. The two paths -/

/-- Within a block wholly inside the rectangle, the block body is the scalar body with the
lanes in place of `alpha_blend_rgba`: a block outside the rectangle is skipped as its pixels
are, and a clear block is what the scalar body makes of a transparent pixel, the old one. So
any reflexive relation between the lanes and `alpha_blend_rgba` holds between the two bodies. -/
theorem blockResult_rel {P : Nat → Nat → Prop} (hP : ∀ v, P v v) {ctx : Ctx} {spr : Sprite}
    {x y : Int} (hx : 0 ≤ x) (hw : x + spr.width ≤ ctx.width) (sy : Nat)
    (hpix : ∀ j v, alp v ≠ 0 → P (alphaBlendRgba v (spr.px j sy)) (sseBlend v (spr.px j sy))) :
    ∀ sx, sx + 4 ≤ spr.width → ∀ j, sx ≤ j → j < sx + 4 → ∀ v,
      alp v ≠ 0 → P (pixelResult ctx spr x y sy j v) (blockResult ctx spr x y sy sx j v) := by
  intro sx hsx j hj1 hj2 v hv
  have hout : (clipRect ctx spr x y).Outside (x + j) (y + sy) ↔
      (clipRect ctx spr x y).BlockOutside (x + sx) (y + sy) := by
    rw [outside_iff hx hw (by omega), blockOutside_iff hx hw hsx]
  simp only [pixelResult, blockResult, hout]
  by_cases hb : (clipRect ctx spr x y).BlockOutside (x + sx) (y + sy)
  · rw [if_pos hb, if_pos (.inl hb)]; exact hP v
  rw [if_neg hb]
  by_cases hc : Clear spr sy sx
  · have h0 : alp (spr.px j sy) = 0 := by
      have := hc (j - sx) (by omega) 3 (by norm_num)
      rwa [show sx + (j - sx) = j by omega] at this
    rw [if_pos (.inr hc), show alphaBlendRgba v (spr.px j sy) = v by simp [alphaBlendRgba, hv, h0]]
    exact hP v
  · rw [if_neg (by tauto)]; exact hpix j v hv

/-- **The two paths, pixel by pixel.** For a sprite that lies across the screen's width,
drawn over a backbuffer without transparent pixels: whatever reflexive relation holds between
the lanes and `alpha_blend_rgba` on each sprite pixel holds, at every pixel of the
backbuffer, between what `ALPHA_FORCE_SLOW_EMBEDDED` and `ALPHA_EMBEDDED` leave. -/
theorem drawSprite_rel {P : Nat → Nat → Prop} (hP : ∀ v, P v v) (ctx : Ctx) (spr : Sprite)
    {x y : Int} (hx : 0 ≤ x) (hw : x + spr.width ≤ ctx.width)
    (hpix : ∀ sx sy v, alp v ≠ 0 → P (alphaBlendRgba v (spr.px sx sy)) (sseBlend v (spr.px sx sy)))
    (fb : Int → Nat) (hfb : ∀ i, alp (fb i) ≠ 0) (i : Int) :
    P (drawSpriteSlow ctx spr x y fb i) (drawSpriteEmbedded ctx spr x y fb i) := by
  have hsep := fun sy sy' (h : sy < sy') => @rowBase_sep ctx spr x y hw hx sy sy' h
  have hslow := @forRows_done ctx y spr.width (slowRow ctx spr x y)
    (fun sy j v v' => v' = pixelResult ctx spr x y sy j v) (rowBase ctx x y)
    (fun _ _ => slowRow_done) hsep fb spr.height
  have hfast := @forRows_done ctx y spr.width (embeddedRow ctx spr x y)
    (fun sy j v v' => alp v ≠ 0 → P (pixelResult ctx spr x y sy j v) v') (rowBase ctx x y)
    (fun sy _ => embeddedRow_done (fun _ _ _ _ => hP _)
      (blockResult_rel hP hx hw sy fun j v => hpix j sy v))
    hsep fb spr.height
  rw [drawSpriteSlow, drawSpriteEmbedded]
  by_cases hi : ∃ sy : Nat, sy < spr.height ∧ isInClip ctx (y + sy) ∧ rowBase ctx x y sy ≤ i ∧
      i < rowBase ctx x y sy + spr.width
  · obtain ⟨sy, hsy, hc, h1, h2⟩ := hi
    obtain ⟨j, rfl⟩ : ∃ j : Nat, i = rowBase ctx x y sy + j := ⟨(i - rowBase ctx x y sy).toNat, by omega⟩
    rw [hslow.2 sy hsy hc j (by omega)]
    exact hfast.2 sy hsy hc j (by omega) (hfb _)
  · push_neg at hi
    have hout : ∀ sy : Nat, sy < spr.height → isInClip ctx (y + sy) →
        i < rowBase ctx x y sy ∨ rowBase ctx x y sy + spr.width ≤ i := fun sy h hc =>
      (lt_or_le i _).imp_right (hi sy h hc)
    rw [hslow.1 i hout, hfast.1 i hout]
    exact hP _

/-- **The SSE2 path is the scalar one up to rounding.** For a sprite that lies across the
screen's width (`0 ≤ x`, `x + width ≤ ctx->width`), whose pixels are premultiplied, drawn
over a backbuffer without transparent pixels, every pixel `draw_sprite` leaves with
`ALPHA_EMBEDDED` has each channel equal to what `ALPHA_FORCE_SLOW_EMBEDDED` leaves, or one
above it. -/
theorem draw_sprite_embedded_close (ctx : Ctx) (spr : Sprite) {x y : Int} (hx : 0 ≤ x)
    (hw : x + spr.width ≤ ctx.width) (hspr : ∀ n, Premultiplied (spr.bitmap n))
    (fb : Int → Nat) (hfb : ∀ i, alp (fb i) ≠ 0) (i : Int) :
    Close (drawSpriteSlow ctx spr x y fb i) (drawSpriteEmbedded ctx spr x y fb i) :=
  drawSprite_rel Close.refl ctx spr hx hw (fun _ _ _ hv => sseBlend_close hv (hspr _)) fb hfb i

theorem draw_sprite_embedded_close_demo :
    (0 ≤ (0 : Int) ∧ (0 : Int) + (4 : Nat) ≤ (8 : Nat) ∧ (∀ _ : Nat, Premultiplied 0x80000000) ∧
      ∀ _ : Int, alp 0xFF020202 ≠ 0) ∧
      Close (drawSpriteSlow ⟨8, 2, 0, none, 0⟩ ⟨4, 1, fun _ => 0x80000000⟩ 0 0 (fun _ => 0xFF020202) 0)
        (drawSpriteEmbedded ⟨8, 2, 0, none, 0⟩ ⟨4, 1, fun _ => 0x80000000⟩ 0 0 (fun _ => 0xFF020202) 0) :=
  have hp : Premultiplied 0x80000000 := by decide
  have ha : alp 0xFF020202 ≠ 0 := by decide
  ⟨⟨le_rfl, by decide, fun _ => hp, fun _ => ha⟩,
    draw_sprite_embedded_close _ _ le_rfl (by decide) (fun _ => hp) _ (fun _ => ha) 0⟩

/-- **With binary transparency the SSE2 path is exact.** For a sprite across the screen's
width whose pixels are premultiplied and each transparent or opaque, drawn over a backbuffer
without transparent pixels, the two paths leave every pixel with the same channels: the
rounding of the lanes only shows on partly transparent pixels. -/
theorem draw_sprite_embedded_exact_binary_alpha (ctx : Ctx) (spr : Sprite) {x y : Int}
    (hx : 0 ≤ x) (hw : x + spr.width ≤ ctx.width)
    (hspr : ∀ n, Premultiplied (spr.bitmap n) ∧ (alp (spr.bitmap n) = 0 ∨ alp (spr.bitmap n) = 255))
    (fb : Int → Nat) (hfb : ∀ i, alp (fb i) ≠ 0) (i : Int) {k : Nat} (hk : k < 4) :
    chan k (drawSpriteSlow ctx spr x y fb i) = chan k (drawSpriteEmbedded ctx spr x y fb i) :=
  @drawSprite_rel (fun u v => ∀ k < 4, chan k u = chan k v) (fun _ _ _ => rfl) ctx spr x y hx hw
    (fun _ _ _ hv _ hk => (sseBlend_exact hv (hspr _).1 (hspr _).2 hk).symm) fb hfb i k hk

theorem draw_sprite_embedded_exact_binary_alpha_demo :
    (0 ≤ (0 : Int) ∧ (0 : Int) + (4 : Nat) ≤ (8 : Nat) ∧
      (∀ _ : Nat, Premultiplied 0xFF0000FF ∧ (alp 0xFF0000FF = 0 ∨ alp 0xFF0000FF = 255)) ∧
      (∀ _ : Int, alp 0xFF020202 ≠ 0) ∧ 2 < 4) ∧
      chan 2 (drawSpriteSlow ⟨8, 2, 0, none, 0⟩ ⟨4, 1, fun _ => 0xFF0000FF⟩ 0 0 (fun _ => 0xFF020202) 0) =
        chan 2 (drawSpriteEmbedded ⟨8, 2, 0, none, 0⟩ ⟨4, 1, fun _ => 0xFF0000FF⟩ 0 0
          (fun _ => 0xFF020202) 0) :=
  have hp : Premultiplied 0xFF0000FF ∧ (alp 0xFF0000FF = 0 ∨ alp 0xFF0000FF = 255) := by decide
  have ha : alp 0xFF020202 ≠ 0 := by decide
  ⟨⟨le_rfl, by decide, fun _ => hp, fun _ => ha, by decide⟩,
    draw_sprite_embedded_exact_binary_alpha _ _ le_rfl (by decide) (fun _ => hp) _ (fun _ => ha) 0
      (by decide)⟩

/-- **The SSE2 path does not reproduce the scalar one.** An 8×1 sprite of half-transparent
black (`0x80000000`) drawn at `(4, 0)` on a 10×1 screen of `0xFF020202`, whose rectangle is
columns 4 to 9. In the first block (columns 4 to 7) the lanes round `2 * 127 / 255` up to 1
where `alpha_blend_rgba` truncates it to 0. The second block (columns 8 to 11) crosses
`_right = 9`, so the loop skips it whole and the epilogue starts past it: columns 8 and 9,
inside the rectangle, keep their old pixel. -/
theorem draw_sprite_embedded_diverges :
    (drawSpriteSlow ⟨10, 1, 0, none, 0⟩ ⟨8, 1, fun _ => 0x80000000⟩ 4 0 (fun _ => 0xFF020202) 4 =
        0xFF000000 ∧
      drawSpriteEmbedded ⟨10, 1, 0, none, 0⟩ ⟨8, 1, fun _ => 0x80000000⟩ 4 0 (fun _ => 0xFF020202) 4 =
        0xFF010101) ∧
    (drawSpriteSlow ⟨10, 1, 0, none, 0⟩ ⟨8, 1, fun _ => 0x80000000⟩ 4 0 (fun _ => 0xFF020202) 8 =
        0xFF000000 ∧
      drawSpriteEmbedded ⟨10, 1, 0, none, 0⟩ ⟨8, 1, fun _ => 0x80000000⟩ 4 0 (fun _ => 0xFF020202) 8 =
        0xFF020202) := by
  decide

/-! ## 6. Where the SSE2 path writes -/

/-- A pixel outside the rectangle is never in a block the loop blends. -/
theorem blockResult_outside {ctx : Ctx} {spr : Sprite} {x y : Int} {sy sx j : Nat}
    (hj1 : sx ≤ j) (hj2 : j < sx + 4) (v : Nat)
    (h : (clipRect ctx spr x y).Outside (x + j) (y + sy)) : blockResult ctx spr x y sy sx j v = v := by
  have : (clipRect ctx spr x y).BlockOutside (x + sx) (y + sy) := by
    simp only [Rect.Outside, Rect.BlockOutside] at h ⊢; omega
  rw [blockResult, if_pos (.inl this)]

/-- **`draw_sprite` with `ALPHA_EMBEDDED` writes only inside the clipped rectangle.** Every
pixel it changes is `GFX(ctx, X, Y)` for a row `Y` the clip list lets through and a position
with `_left ≤ X ≤ _right` and `_top ≤ Y ≤ _bottom`: the SSE2 stores, four pixels wide, stay
on the screen as the scalar ones do. -/
theorem draw_sprite_embedded_writes_in_rect (ctx : Ctx) (spr : Sprite) (x y : Int)
    (fb : Int → Nat) (i : Int) :
    drawSpriteEmbedded ctx spr x y fb i = fb i ∨
      ∃ X Y : Int, i = ctx.index X Y ∧ isInClip ctx Y ∧ ¬(clipRect ctx spr x y).Outside X Y := by
  have hrow : ∀ (sy : Nat) (fb' : Int → Nat), embeddedRow ctx spr x y sy fb' i = fb' i ∨
      ∃ j < spr.width, i = ctx.index (x + j) (y + sy) ∧
        ¬(clipRect ctx spr x y).Outside (x + j) (y + sy) := fun sy fb' => by
    have hd := @embeddedRow_done ctx spr x y sy
      (fun j v v' => (clipRect ctx spr x y).Outside (x + j) (y + sy) → v' = v) fb'
      (fun j _ v h => by rw [pixelResult, if_pos h])
      (fun sx _ j hj1 hj2 v h => blockResult_outside hj1 hj2 v h)
    by_cases hi : i < rowBase ctx x y sy ∨ rowBase ctx x y sy + spr.width ≤ i
    · exact .inl (hd.1 i hi)
    obtain ⟨j, rfl⟩ : ∃ j : Nat, i = rowBase ctx x y sy + j := ⟨(i - rowBase ctx x y sy).toNat, by omega⟩
    by_cases ho : (clipRect ctx spr x y).Outside (x + j) (y + sy)
    · exact .inl (hd.2 j (by omega) ho)
    · exact .inr ⟨j, by omega, (cell_eq ctx x y sy j).symm, ho⟩
  have hall : ∀ n, forRows ctx y n (embeddedRow ctx spr x y) fb i = fb i ∨
      ∃ X Y : Int, i = ctx.index X Y ∧ isInClip ctx Y ∧ ¬(clipRect ctx spr x y).Outside X Y := by
    intro n
    induction n with
    | zero => exact .inl rfl
    | succ n ih =>
      simp only [forRows, List.range_succ, List.foldl_append, List.foldl_cons, List.foldl_nil]
      split_ifs with hc
      · rcases hrow n (forRows ctx y n (embeddedRow ctx spr x y) fb) with h | ⟨j, -, hij, ho⟩
        · exact h ▸ ih
        · exact .inr ⟨_, _, hij, hc, ho⟩
      · exact ih
  exact hall spr.height

/-! ## 7. An opaque backbuffer stays opaque -/

theorem Done.mono {R R' : Nat → Nat → Nat → Prop} {rb : Int} {fb₀ fb : Int → Nat} {k : Nat}
    (h : ∀ j v v', R j v v' → R' j v v') (hd : Done R rb fb₀ fb k) : Done R' rb fb₀ fb k :=
  ⟨hd.1, fun j hj => h _ _ _ (hd.2 j hj)⟩

/-- A row whose every column keeps a property of pixels keeps it of the whole backbuffer. -/
theorem Done.preserves {Q : Nat → Prop} {rb : Int} {fb₀ fb : Int → Nat} {k : Nat}
    (hd : Done (fun _ v v' => Q v → Q v') rb fb₀ fb k) (h₀ : ∀ i, Q (fb₀ i)) (i : Int) : Q (fb i) := by
  by_cases hi : i < rb ∨ rb + k ≤ i
  · rw [hd.1 i hi]; exact h₀ i
  · obtain ⟨j, rfl⟩ : ∃ j : Nat, i = rb + j := ⟨(i - rb).toNat, by omega⟩
    exact hd.2 j (by omega) (h₀ _)

/-- Rows that each keep a property of every pixel keep it over the whole sprite. -/
theorem forRows_preserves {Q : Nat → Prop} {ctx : Ctx} {y : Int}
    {row : Nat → (Int → Nat) → Int → Nat}
    (hrow : ∀ sy fb, (∀ i, Q (fb i)) → ∀ i, Q (row sy fb i)) {fb : Int → Nat}
    (h : ∀ i, Q (fb i)) : ∀ n i, Q (forRows ctx y n row fb i) := by
  intro n
  induction n with
  | zero => exact h
  | succ n ih =>
    simp only [forRows, List.range_succ, List.foldl_append, List.foldl_cons, List.foldl_nil]
    split_ifs
    · exact hrow n _ ih
    · exact ih

/-- **Drawing a sprite keeps an opaque backbuffer opaque**, on both paths, for every
context, sprite and position: `alpha_blend_rgba` over an opaque pixel returns an opaque one,
and so do the lanes, whose `255 * (255 - a)` divides by 255 without rounding. -/
theorem draw_sprite_keeps_opaque (ctx : Ctx) (spr : Sprite) (x y : Int) (fb : Int → Nat)
    (hfb : ∀ i, alp (fb i) = 255) :
    (∀ i, alp (drawSpriteEmbedded ctx spr x y fb i) = 255) ∧
      ∀ i, alp (drawSpriteSlow ctx spr x y fb i) = 255 := by
  have hpx : ∀ sy j v, alp v = 255 → alp (pixelResult ctx spr x y sy j v) = 255 := fun _ _ _ hv => by
    unfold pixelResult; split_ifs
    exacts [hv, alp_alphaBlendRgba hv]
  have hblk : ∀ sy sx j v, alp v = 255 → alp (blockResult ctx spr x y sy sx j v) = 255 :=
    fun _ _ _ _ hv => by
      unfold blockResult; split_ifs
      exacts [hv, alp_sseBlend hv]
  exact ⟨forRows_preserves (fun sy _ h => (embeddedRow_done (fun j _ v => hpx sy j v)
      (fun sx _ j _ _ v => hblk sy sx j v)).preserves h) hfb _,
    forRows_preserves (fun sy _ h => (slowRow_done.mono fun j v v' h' hv => h' ▸ hpx sy j v hv).preserves h)
      hfb _⟩

theorem draw_sprite_keeps_opaque_demo :
    (∀ _ : Int, alp 0xFF020202 = 255) ∧
      (∀ i, alp (drawSpriteEmbedded ⟨10, 1, 0, none, 0⟩ ⟨8, 1, fun _ => 0x80000000⟩ 4 0
        (fun _ => 0xFF020202) i) = 255) ∧
      ∀ i, alp (drawSpriteSlow ⟨10, 1, 0, none, 0⟩ ⟨8, 1, fun _ => 0x80000000⟩ 4 0
        (fun _ => 0xFF020202) i) = 255 :=
  have ha : alp 0xFF020202 = 255 := by decide
  ⟨fun _ => ha, draw_sprite_keeps_opaque _ _ _ _ _ fun _ => ha⟩

end Graphics
end Toaru
