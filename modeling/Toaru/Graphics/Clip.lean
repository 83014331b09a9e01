import Toaru.Graphics.Sprite
import Toaru.Memory

/-!
# The clip list: `gfx_add_clip`, `gfx_clear_clip` and `flip`

A context may carry a clip list (`ctx->clips`), one flag per screen row, which every
drawing function consults through `_is_in_clip` before it touches a row, and which `flip`
consults to copy only the rows it lets through from the backbuffer to the framebuffer.
`gfx_add_clip(ctx, x, y, w, h)` allocates the list on first use, one zeroed flag per row of
the screen, and marks the rows `y` to `y + h - 1` that lie on it; `gfx_clear_clip` zeroes
the flags but keeps the list; `reinit_graphics_fullscreen` frees the list when the screen's
height has changed. `_is_in_clip` lets every row through without a list, and every row
outside the list's range with one.

What the list is for is said by `ClipSpec`: the rectangles added since the last clear, or
no clipping at all. `ClipRel` relates a context to it, every operation keeps the relation
(`ClipRel.add`, `ClipRel.clear`, `ClipRel.reinit`), and so, over every sequence of
operations, `_is_in_clip` lets a row through exactly when the row lies in one of those
rectangles' row spans or off the screen, whatever the rectangles' `x` and `w`
(`is_in_clip_after_clip_ops`): the clipping is by rows only. `flip` after such a run copies
exactly the bytes of those rows (`flip_after_clip_ops`). Both hold for calls whose `y + h`
is an `int` (`ClipOp.NoWrap`): the sum is computed in `int`, and a rectangle that reaches
past `INT_MAX` wraps to a negative end and marks no row.

The context is the `Ctx` of `Graphics/Sprite.lean`; its layout is not in the source, and
the framebuffer is taken as rows of `4 * ctx->width` bytes, as `flip`'s row copies assume.
-/

set_option autoImplicit false

namespace Toaru
namespace Graphics

/-! ## 1. The operations -/

/-- `for (int i = lo; i < hi; ++i) ctx->clips[i] = 1;` for `lo ≥ 0`. -/
def markRows (clips : Nat → Bool) (lo hi : Int) : Nat → Bool :=
  (List.range (hi - lo).toNat).foldl (fun c (k : Nat) => Function.update c (lo + k).toNat true)
    clips

/-- `gfx_add_clip(ctx, x, y, w, h)`: without a list, `malloc(ctx->height)` zeroed and
`clips_size = ctx->height`; then the rows from `max(y, 0)` below `min(y + h, clips_size)`
are marked, `y + h` computed in `int`. `x` and `w` are not read. -/
def gfxAddClip (ctx : Ctx) (_x y _w h : Int) : Ctx :=
  let ctx := if ctx.clips.isNone then
      { ctx with clips := some (fun _ => false), clipsSize := ctx.height }
    else ctx
  { ctx with clips := ctx.clips.map fun c => markRows c (max y 0) (min (wrap32 (y + h)) ctx.clipsSize) }

/-- `gfx_clear_clip(ctx)`: `memset(ctx->clips, 0, ctx->clips_size)` when there is a list. -/
def gfxClearClip (ctx : Ctx) : Ctx :=
  { ctx with clips := ctx.clips.map fun c i => if i < ctx.clipsSize then false else c i }

/-- The clip part of `reinit_graphics_fullscreen(out)`: the new `width` and `height` from
the framebuffer, and a list whose size is not the new height freed. -/
def reinitGraphicsFullscreen (ctx : Ctx) (width height : Nat) : Ctx :=
  let ctx := { ctx with width, height }
  if ctx.clips.isSome ∧ ctx.clipsSize ≠ ctx.height then { ctx with clips := none, clipsSize := 0 }
  else ctx

/-- A call that changes the clip list. -/
inductive ClipOp
  | add (x y w h : Int)
  | clear
  | reinit (width height : Nat)
  deriving DecidableEq, Repr

/-- The call on a context. -/
def ClipOp.run : ClipOp → Ctx → Ctx
  | .add x y w h, ctx => gfxAddClip ctx x y w h
  | .clear, ctx => gfxClearClip ctx
  | .reinit width height, ctx => reinitGraphicsFullscreen ctx width height

/-- The call's `int` arithmetic does not wrap: `y + h` of a `gfx_add_clip` is an `int`. -/
def ClipOp.NoWrap : ClipOp → Prop
  | .add _ y _ h => IsInt32 (y + h)
  | .clear => True
  | .reinit .. => True

instance : (op : ClipOp) → Decidable op.NoWrap
  | .add _ y _ h => inferInstanceAs (Decidable (IsInt32 (y + h)))
  | .clear => isTrue trivial
  | .reinit .. => isTrue trivial

/-- The calls one after the other. -/
def runClipOps (ops : List ClipOp) (ctx : Ctx) : Ctx := ops.foldl (fun ctx op => op.run ctx) ctx

/-- `flip(ctx)` with `ctx->size` bytes of framebuffer: with a list, the `4 * ctx->width`
bytes of each row below `ctx->height` that `_is_in_clip` lets through, else the first
`size` bytes, copied from the backbuffer to the framebuffer. -/
def flip (ctx : Ctx) (size : Nat) (buffer backbuffer : Mem) : Mem :=
  match ctx.clips with
  | some _ => (List.range ctx.height).foldl (fun buf (i : Nat) =>
      if isInClip ctx i then memcpy buf (i * ctx.width * 4) backbuffer (i * ctx.width * 4)
        (4 * ctx.width) else buf) buffer
  | none => memcpy buffer 0 backbuffer 0 size

/-! ## 2. The loops -/

theorem markRows_apply (clips : Nat → Bool) {lo : Int} (hlo : 0 ≤ lo) (hi : Int) (i : Nat) :
    markRows clips lo hi i = (clips i || decide (lo ≤ i ∧ (i : Int) < hi)) := by
  unfold markRows
  suffices ∀ n : Nat, (List.range n).foldl (fun c (k : Nat) => Function.update c (lo + k).toNat true)
      clips i = (clips i || decide (lo ≤ i ∧ (i : Int) < lo + n)) by
    rw [this]; congr 2; apply propext; omega
  intro n
  induction n with
  | zero => simp
  | succ n ih =>
    rw [List.range_succ, List.foldl_append, List.foldl_cons, List.foldl_nil]
    by_cases hi : i = (lo + n).toNat
    · subst hi
      rw [Function.update_same]
      simp; omega
    · rw [Function.update_noteq hi, ih]
      congr 2; apply propext; omega

/-- The rows of `flip` with a list, the first `n` of them: a byte of a row it lets through
comes from the backbuffer, every other byte is kept. -/
theorem flip_rows (ctx : Ctx) (buffer backbuffer : Mem) (a : Nat) :
    ∀ n : Nat, (List.range n).foldl (fun buf (i : Nat) =>
        if isInClip ctx i then memcpy buf (i * ctx.width * 4) backbuffer (i * ctx.width * 4)
          (4 * ctx.width) else buf) buffer a =
      if ∃ Y < n, isInClip ctx Y ∧ Y * ctx.width * 4 ≤ a ∧ a < Y * ctx.width * 4 + 4 * ctx.width
      then backbuffer a else buffer a
  | 0 => by simp
  | n + 1 => by
    rw [List.range_succ, List.foldl_append, List.foldl_cons, List.foldl_nil]
    by_cases hc : isInClip ctx n
    · rw [if_pos hc]
      by_cases hin : n * ctx.width * 4 ≤ a ∧ a < n * ctx.width * 4 + 4 * ctx.width
      · rw [memcpy_of_mem hin.1 hin.2, if_pos (Nat.exists_lt_succ.2 (.inr ⟨hc, hin⟩)),
          Nat.add_sub_cancel' hin.1]
      · rw [memcpy_of_not_mem hin, flip_rows ctx buffer backbuffer a n]
        exact if_congr (by simp [Nat.exists_lt_succ, hin]) rfl rfl
    · rw [if_neg hc, flip_rows ctx buffer backbuffer a n]
      exact if_congr (by simp [Nat.exists_lt_succ, hc]) rfl rfl

/-! ## 3. What the list is for -/

/-- A rectangle passed to `gfx_add_clip`. -/
structure ClipRect where
  x : Int
  y : Int
  w : Int
  h : Int
  deriving DecidableEq, Repr

/-- Row `Y` is one of the rectangle's rows. -/
def ClipRect.HasRow (r : ClipRect) (Y : Int) : Prop := r.y ≤ Y ∧ Y < r.y + r.h

instance (r : ClipRect) (Y : Int) : Decidable (r.HasRow Y) := inferInstanceAs (Decidable (_ ∧ _))

/-- The screen and the clipping asked for: `none` for none at all, or the rectangles added
since the list was last cleared. -/
structure ClipSpec where
  width : Nat
  height : Nat
  rects : Option (List ClipRect)
  deriving DecidableEq, Repr

/-- A row is drawn: there is no clipping, or the row is off the screen, or it is a row of
one of the rectangles. -/
def ClipSpec.Passes (s : ClipSpec) (Y : Int) : Prop :=
  ∀ rs ∈ s.rects, Y < 0 ∨ s.height ≤ Y ∨ ∃ r ∈ rs, r.HasRow Y

instance (s : ClipSpec) (Y : Int) : Decidable (s.Passes Y) :=
  inferInstanceAs (Decidable (∀ rs ∈ s.rects, _))

/-- What each call asks for: `add` adds its rectangle (the first one turns clipping on),
`clear` drops the rectangles and keeps the clipping on, and a new screen height drops the
clipping. -/
def ClipOp.spec : ClipOp → ClipSpec → ClipSpec
  | .add x y w h, s => { s with rects := some (s.rects.getD [] ++ [⟨x, y, w, h⟩]) }
  | .clear, s => { s with rects := s.rects.map fun _ => [] }
  | .reinit width height, s => if height = s.height then { s with width } else ⟨width, height, none⟩

/-- The calls one after the other, on the abstract clipping. -/
def runClipSpec (ops : List ClipOp) (s : ClipSpec) : ClipSpec :=
  ops.foldl (fun s op => op.spec s) s

/-- A fresh context (`init_graphics_fullscreen`, `init_graphics_sprite`: `clips = NULL`). -/
def ClipSpec.init (ctx : Ctx) : ClipSpec := ⟨ctx.width, ctx.height, none⟩

/-- The bytes `flip` should copy: the first `size` without clipping, else the rows of the
screen that are drawn. -/
def ClipSpec.Copies (s : ClipSpec) (size a : Nat) : Prop :=
  if s.rects = none then a < size
  else ∃ Y < s.height, s.Passes Y ∧ Y * s.width * 4 ≤ a ∧ a < Y * s.width * 4 + 4 * s.width

instance (s : ClipSpec) (size a : Nat) : Decidable (s.Copies size a) :=
  inferInstanceAs (Decidable (if _ then _ else _))

/-! ## 4. The list refines the abstract clipping -/

/-- The context has the abstract screen, a list exactly when there is clipping, one flag per
screen row, and a row's flag set exactly when the row is one of a rectangle's. -/
structure ClipRel (ctx : Ctx) (s : ClipSpec) : Prop where
  width_eq : ctx.width = s.width
  height_eq : ctx.height = s.height
  isSome_eq : ctx.clips.isSome = s.rects.isSome
  size_eq : ctx.clips.isSome → ctx.clipsSize = ctx.height
  rows : ∀ c rs, ctx.clips = some c → s.rects = some rs → ∀ i : Nat, i < ctx.clipsSize →
    (c i = true ↔ ∃ r ∈ rs, r.HasRow i)

theorem ClipRel.init {ctx : Ctx} (h : ctx.clips = none) : ClipRel ctx (ClipSpec.init ctx) :=
  ⟨rfl, rfl, by simp [h, ClipSpec.init], by simp [h], by simp [h]⟩

theorem ClipRel.rects_eq_none {ctx : Ctx} {s : ClipSpec} (hr : ClipRel ctx s) (hc : ctx.clips = none) :
    s.rects = none := by
  simpa [hc] using hr.isSome_eq.symm

theorem ClipRel.exists_rects {ctx : Ctx} {s : ClipSpec} {c : Nat → Bool} (hr : ClipRel ctx s)
    (hc : ctx.clips = some c) : ∃ rs, s.rects = some rs :=
  Option.isSome_iff_exists.1 (by simpa [hc] using hr.isSome_eq.symm)

/-- The flags of the list, none set without one, are the rows of the abstract rectangles. -/
theorem ClipRel.getD_rows {ctx : Ctx} {s : ClipSpec} (hr : ClipRel ctx s) {i : Nat}
    (hi : i < ctx.height) :
    (ctx.clips.getD fun _ => false) i = true ↔ ∃ r ∈ s.rects.getD [], r.HasRow i := by
  cases hc : ctx.clips with
  | none => simp [hr.rects_eq_none hc]
  | some c =>
    obtain ⟨rs, hrs⟩ := hr.exists_rects hc
    rw [hrs, Option.getD_some, Option.getD_some]
    exact hr.rows c rs hc hrs i (by rw [hr.size_eq (by simp [hc])]; exact hi)

/-- `gfx_add_clip` on a list of one flag per row, or none. -/
theorem gfxAddClip_of_size {ctx : Ctx} (hs : ctx.clips.isSome → ctx.clipsSize = ctx.height)
    (x y w h : Int) : gfxAddClip ctx x y w h = { ctx with
      clips := some (markRows (ctx.clips.getD fun _ => false) (max y 0)
        (min (wrap32 (y + h)) ctx.height)),
      clipsSize := ctx.height } := by
  cases hc : ctx.clips with
  | none => simp [gfxAddClip, hc]
  | some c => simp [gfxAddClip, hc, ← hs (by simp [hc])]

/-- `gfx_add_clip(ctx, 0, 1, 100, INT_MAX)` on a fresh 4-row screen: `1 + INT_MAX` wraps to
`INT_MIN`, and row 2, a row of the rectangle, is not marked. -/
example : isInClip (gfxAddClip ⟨4, 4, 0, none, 0⟩ 0 1 100 (2 ^ 31 - 1)) 2 = false := by decide

theorem ClipRel.add {ctx : Ctx} {s : ClipSpec} (hr : ClipRel ctx s) (x y w h : Int)
    (hyh : IsInt32 (y + h)) :
    ClipRel (gfxAddClip ctx x y w h) ((ClipOp.add x y w h).spec s) := by
  rw [gfxAddClip_of_size hr.size_eq, wrap32_of_isInt32 hyh]
  refine ⟨hr.width_eq, hr.height_eq, rfl, fun _ => rfl, ?_⟩
  rintro c rs ⟨⟩ ⟨⟩ i (hi : i < ctx.height)
  rw [markRows_apply _ (le_max_right y 0), Bool.or_eq_true, hr.getD_rows hi]
  simp only [List.mem_append, List.mem_singleton, or_and_right, exists_or, exists_eq_left,
    decide_eq_true_eq]
  refine or_congr_right ?_
  simp only [ClipRect.HasRow]
  omega

theorem ClipRel.clear {ctx : Ctx} {s : ClipSpec} (hr : ClipRel ctx s) :
    ClipRel (gfxClearClip ctx) (ClipOp.clear.spec s) := by
  refine ⟨hr.width_eq, hr.height_eq, by simpa [gfxClearClip, ClipOp.spec] using hr.isSome_eq,
    by simpa [gfxClearClip] using hr.size_eq, ?_⟩
  intro c rs hc hrs i hi
  obtain ⟨c₀, -, rfl⟩ := Option.map_eq_some'.1 hc
  obtain ⟨rs₀, -, rfl⟩ := Option.map_eq_some'.1 hrs
  simp only [gfxClearClip] at hi
  simp [hi]

theorem ClipRel.reinit {ctx : Ctx} {s : ClipSpec} (hr : ClipRel ctx s) (width height : Nat) :
    ClipRel (reinitGraphicsFullscreen ctx width height) ((ClipOp.reinit width height).spec s) := by
  simp only [reinitGraphicsFullscreen, ClipOp.spec]
  by_cases hh : height = s.height
  · have hsize : ctx.clips.isSome → ctx.clipsSize = height := fun h => by
      rw [hr.size_eq h, hr.height_eq, hh]
    rw [if_neg (fun h => h.2 (hsize h.1)), if_pos hh]
    exact ⟨rfl, hh, hr.isSome_eq, hsize, hr.rows⟩
  · have hfree : ctx.clips.isSome → ctx.clipsSize ≠ height := fun h h' =>
      hh (by rw [← h', hr.size_eq h, hr.height_eq])
    rw [if_neg hh]
    split_ifs with hc
    · exact ⟨rfl, rfl, rfl, by simp, by simp⟩
    · have : ctx.clips = none := Option.not_isSome_iff_eq_none.1 fun h => hc ⟨h, hfree h⟩
      exact ⟨rfl, rfl, by simp [this], by simp [this], by simp [this]⟩

theorem ClipRel.run {ctx : Ctx} {s : ClipSpec} (hr : ClipRel ctx s) :
    ∀ op : ClipOp, op.NoWrap → ClipRel (op.run ctx) (op.spec s)
  | .add x y w h, hop => hr.add x y w h hop
  | .clear, _ => hr.clear
  | .reinit width height, _ => hr.reinit width height

theorem ClipRel.runClipOps : ∀ (ops : List ClipOp) {ctx : Ctx} {s : ClipSpec}, ClipRel ctx s →
    (∀ op ∈ ops, op.NoWrap) → ClipRel (runClipOps ops ctx) (runClipSpec ops s)
  | [], _, _, hr, _ => hr
  | op :: ops, _, _, hr, hops =>
    ClipRel.runClipOps ops (hr.run op (hops op (List.mem_cons_self _ _)))
      fun o ho => hops o (List.mem_cons_of_mem _ ho)

/-! ## 5. What the drawing functions and `flip` see -/

/-- `_is_in_clip` under the relation is the abstract test. -/
theorem ClipRel.isInClip_iff {ctx : Ctx} {s : ClipSpec} (hr : ClipRel ctx s) (Y : Int) :
    isInClip ctx Y = true ↔ s.Passes Y := by
  unfold isInClip ClipSpec.Passes
  cases hc : ctx.clips with
  | none => simp [hr.rects_eq_none hc]
  | some c =>
    obtain ⟨rs, hrs⟩ := hr.exists_rects hc
    have hsize := hr.size_eq (by simp [hc])
    simp only [hrs, Option.mem_def, Option.some.injEq, forall_eq', ← hr.height_eq, ← hsize]
    split_ifs with hY
    · exact iff_of_true rfl (hY.imp_right .inl)
    · push_neg at hY
      have hY' : ((Y.toNat : Nat) : Int) = Y := Int.toNat_of_nonneg hY.1
      rw [hr.rows c rs hc hrs Y.toNat (by omega), hY']
      exact ⟨fun h => .inr (.inr h), fun h => (h.resolve_left (by omega)).resolve_left (by omega)⟩

/-- `memcpy(buffer, backbuffer, size)`, byte by byte. -/
theorem memcpy_zero_apply (buffer backbuffer : Mem) (size a : Nat) :
    memcpy buffer 0 backbuffer 0 size a = if a < size then backbuffer a else buffer a := by
  simp [memcpy]

/-- `flip` under the relation copies the bytes the abstract clipping says. -/
theorem ClipRel.flip_apply {ctx : Ctx} {s : ClipSpec} (hr : ClipRel ctx s) (size : Nat)
    (buffer backbuffer : Mem) (a : Nat) :
    flip ctx size buffer backbuffer a = if s.Copies size a then backbuffer a else buffer a := by
  unfold flip
  cases hc : ctx.clips with
  | none =>
    simp only [memcpy_zero_apply]
    exact if_congr (by simp [ClipSpec.Copies, hr.rects_eq_none hc]) rfl rfl
  | some c =>
    obtain ⟨rs, hrs⟩ := hr.exists_rects hc
    simp only [flip_rows]
    exact if_congr (by simp [ClipSpec.Copies, hrs, hr.isInClip_iff, hr.width_eq, hr.height_eq]) rfl rfl

/-- The rows of `k` bytes below row `h` are the first `h * k` bytes. -/
theorem exists_row_iff (k h a : Nat) : (∃ Y < h, Y * k ≤ a ∧ a < Y * k + k) ↔ a < h * k := by
  rcases Nat.eq_zero_or_pos k with rfl | hk
  · simp
  constructor
  · rintro ⟨Y, hY, -, ha⟩
    have := Nat.mul_le_mul_right k (Nat.succ_le_of_lt hY)
    rw [Nat.succ_mul] at this
    omega
  · exact fun ha => ⟨a / k, (Nat.div_lt_iff_lt_mul hk).2 ha, Nat.div_mul_le_self a k,
      Nat.lt_div_mul_add hk⟩

/-- With a list that lets every row of the screen through, `flip` copies what it copies
without a list for a frame of `ctx->size = height * width * 4` bytes. -/
theorem flip_eq_unclipped_of_all_rows (ctx : Ctx) (size : Nat) (buffer backbuffer : Mem)
    (hc : ctx.clips.isSome) (hall : ∀ Y : Nat, Y < ctx.height → isInClip ctx Y = true) :
    flip ctx size buffer backbuffer =
      flip { ctx with clips := none } (ctx.height * ctx.width * 4) buffer backbuffer := by
  funext a
  obtain ⟨c, hc⟩ := Option.isSome_iff_exists.1 hc
  simp only [flip, hc, flip_rows, memcpy_zero_apply]
  refine if_congr ?_ rfl rfl
  have hrows := exists_row_iff (ctx.width * 4) ctx.height a
  simp only [← Nat.mul_assoc, Nat.mul_comm 4 ctx.width] at hrows ⊢
  rw [← hrows]
  exact exists_congr fun Y => and_congr_right fun hY => by simp [hall Y hY]

theorem flip_eq_unclipped_of_all_rows_full :
    ((⟨2, 2, 0, some fun _ => true, 2⟩ : Ctx).clips.isSome ∧
      ∀ Y : Nat, Y < 2 → isInClip ⟨2, 2, 0, some fun _ => true, 2⟩ Y = true) ∧
    flip ⟨2, 2, 0, some fun _ => true, 2⟩ 0 (fun _ => 0) (fun _ => 1) =
      flip ⟨2, 2, 0, none, 2⟩ (2 * 2 * 4) (fun _ => 0) (fun _ => 1) :=
  have h : (⟨2, 2, 0, some fun _ => true, 2⟩ : Ctx).clips.isSome ∧
      ∀ Y : Nat, Y < 2 → isInClip ⟨2, 2, 0, some fun _ => true, 2⟩ Y = true := by decide
  ⟨h, flip_eq_unclipped_of_all_rows _ 0 _ _ h.1 h.2⟩

/-- Over every sequence of `gfx_add_clip`, `gfx_clear_clip` and `reinit_graphics_fullscreen`
calls on a fresh context whose `y + h` are `int`s, `_is_in_clip` lets a row through exactly
when the abstract clipping draws it: without clipping, off the screen, or in the row span of
a rectangle added since the last clear, whatever the rectangles' `x` and `w`. -/
theorem is_in_clip_after_clip_ops (ctx : Ctx) (hfresh : ctx.clips = none) (ops : List ClipOp)
    (hops : ∀ op ∈ ops, op.NoWrap) (Y : Int) :
    isInClip (runClipOps ops ctx) Y = true ↔ (runClipSpec ops (ClipSpec.init ctx)).Passes Y :=
  ((ClipRel.init hfresh).runClipOps ops hops).isInClip_iff Y

theorem is_in_clip_after_clip_ops_clear_add :
    ((⟨4, 4, 0, none, 0⟩ : Ctx).clips = none ∧
      ∀ op ∈ ([.add 0 1 4 2, .clear, .add 7 2 1 1] : List ClipOp), op.NoWrap) ∧
      (isInClip (runClipOps [.add 0 1 4 2, .clear, .add 7 2 1 1] ⟨4, 4, 0, none, 0⟩) 1 = true ↔
        (runClipSpec [.add 0 1 4 2, .clear, .add 7 2 1 1] (ClipSpec.init ⟨4, 4, 0, none, 0⟩)).Passes
          1) :=
  have h : (⟨4, 4, 0, none, 0⟩ : Ctx).clips = none ∧
      ∀ op ∈ ([.add 0 1 4 2, .clear, .add 7 2 1 1] : List ClipOp), op.NoWrap := ⟨rfl, by decide⟩
  ⟨h, is_in_clip_after_clip_ops _ h.1 _ h.2 1⟩

/-- A cleared list draws no row of the screen until the next `gfx_add_clip`. -/
example : isInClip (runClipOps [.add 0 1 4 2, .clear] ⟨4, 4, 0, none, 0⟩) 1 = false := by decide

/-- Over every such sequence, `flip` copies from the backbuffer exactly the bytes the
abstract clipping says: the first `ctx->size` without clipping, else the rows of the screen
it draws. -/
theorem flip_after_clip_ops (ctx : Ctx) (hfresh : ctx.clips = none) (ops : List ClipOp)
    (hops : ∀ op ∈ ops, op.NoWrap) (size : Nat) (buffer backbuffer : Mem) (a : Nat) :
    flip (runClipOps ops ctx) size buffer backbuffer a =
      if (runClipSpec ops (ClipSpec.init ctx)).Copies size a then backbuffer a else buffer a :=
  ((ClipRel.init hfresh).runClipOps ops hops).flip_apply size buffer backbuffer a

theorem flip_after_clip_ops_clear :
    ((⟨4, 4, 0, none, 0⟩ : Ctx).clips = none ∧
      ∀ op ∈ ([.add 0 1 4 2, .clear] : List ClipOp), op.NoWrap) ∧
      flip (runClipOps [.add 0 1 4 2, .clear] ⟨4, 4, 0, none, 0⟩) 64 (fun _ => 0) (fun _ => 1) 20 =
        if (runClipSpec [.add 0 1 4 2, .clear] (ClipSpec.init ⟨4, 4, 0, none, 0⟩)).Copies 64 20
        then 1 else 0 :=
  have h : (⟨4, 4, 0, none, 0⟩ : Ctx).clips = none ∧
      ∀ op ∈ ([.add 0 1 4 2, .clear] : List ClipOp), op.NoWrap := ⟨rfl, by decide⟩
  ⟨h, flip_after_clip_ops _ h.1 _ h.2 64 _ _ 20⟩

end Graphics
end Toaru
