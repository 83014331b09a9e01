import Toaru.Graphics.Line

/-!
# `draw_line_thick`: a square at every point, counted with `char`

`draw_line_thick(ctx, x0, x1, y0, y1, color, thickness)` (`unixpipe.c`) is `draw_line`'s
walk with the single pixel replaced by a square:

    for (char j = -thickness; j <= thickness; ++j)
      for (char i = -thickness; i <= thickness; ++i)
        if (x0 + i >= 0 && x0 + i < ctx->width && y0 + j >= 0 && y0 + j < ctx->height)
          GFX(ctx, x0 + i, y0 + j) = color;

The counters and the bound are `char`, signed and eight bits on x86. `++i` stores `i + 1`
back into the `char`, so a counter never exceeds 127 and `i <= thickness` never fails when
`thickness` is 127: the square, and so the call, never ends
(`draw_line_thick_diverges`). At the other end `-thickness` is 128 for a thickness of
-128, which the `char` stores as -128, so that thickness paints one pixel, at
`(x0 - 128, y0 - 128)`, where every other negative thickness paints nothing. For every
other thickness the call ends and paints the squares of half-side `thickness` around the
points `draw_line` visits (`draw_line_thick_paints`), on endpoints for which `draw_line`'s
`int` arithmetic does not wrap and `x0 + i`, `y0 + j` stay inside `int` (`IsInt32Inner`).
-/

set_option autoImplicit false

namespace Toaru
namespace Graphics

/-! ## 1. `char` counters -/

/-- The value an `int` has once stored in a `char`: GCC keeps the low byte, read as
signed. -/
def toChar (z : Int) : Int := (z + 128) % 256 - 128

theorem toChar_of_mem {z : Int} (h₁ : -128 ≤ z) (h₂ : z ≤ 127) : toChar z = z := by
  unfold toChar; omega

theorem toChar_le (z : Int) : toChar z ≤ 127 := by
  unfold toChar; omega

theorem toChar_ge (z : Int) : -128 ≤ toChar z := by
  unfold toChar; omega

/-- An `int32_t` whose sum with every `char` is an `int`. -/
def IsInt32Inner (z : Int) : Prop := -2 ^ 31 + 128 ≤ z ∧ z < 2 ^ 31 - 128

instance (z : Int) : Decidable (IsInt32Inner z) := inferInstanceAs (Decidable (_ ∧ _))

/-- `for (char i = start; i <= t; ++i) body`, for at most `fuel` iterations. -/
def charFor {σ : Type} (t : Int) (body : Int → σ → Option σ) : Nat → Int → σ → Option σ
  | 0, _, _ => none
  | fuel + 1, i, s =>
    if i ≤ t then (body i s).bind (charFor t body fuel (toChar (i + 1))) else some s

/-- The body of `draw_line_thick`'s walk at `(x0, y0)`: the two `char` loops, each given at
most `fuel` iterations. The bounds test is `InBounds`, its four comparisons reordered, on
`x0 + i` and `y0 + j` computed in `int`. -/
def thickPlot (ctx : Ctx) (color : Nat) (thickness : Int) (fuel : Nat) (x0 y0 : Int)
    (fb : Int → Nat) : Option (Int → Nat) :=
  charFor thickness
    (fun j fb => charFor thickness
      (fun i fb => some (plot ctx color (wrap32 (x0 + i)) (wrap32 (y0 + j)) fb))
      fuel (toChar (-thickness)) fb)
    fuel (toChar (-thickness)) fb

/-- `draw_line_thick(ctx, x0, x1, y0, y1, color, thickness)`: the backbuffer after the call.
One fuel bounds every loop. -/
def drawLineThick (ctx : Ctx) (x0 x1 y0 y1 : Int) (color : Nat) (thickness : Int)
    (fb : Int → Nat) (fuel : Nat) : Option (Int → Nat) :=
  lineWith (thickPlot ctx color thickness fuel) x0 x1 y0 y1 fb fuel

/-! ## 2. A thickness of 127 -/

/-- A `char` counter bounded by 127 never leaves its loop. -/
theorem charFor_127 {σ : Type} (body : Int → σ → Option σ) :
    ∀ (fuel : Nat) (i : Int) (s : σ), i ≤ 127 → charFor 127 body fuel i s = none
  | 0, _, _, _ => rfl
  | fuel + 1, i, s, hi => by
    rw [charFor, if_pos hi]
    cases body i s with
    | none => rfl
    | some s' => exact charFor_127 body fuel _ s' (toChar_le _)

theorem draw_line_thick_diverges (ctx : Ctx) (x0 x1 y0 y1 : Int) (color : Nat)
    (fb : Int → Nat) : Diverges (drawLineThick ctx x0 x1 y0 y1 color 127 fb)
  | 0 => rfl
  | fuel + 1 => by
    simp only [drawLineThick, lineWith, lineLoop, thickPlot]
    rw [charFor_127 _ _ _ _ (toChar_le _)]
    rfl

/-! ## 3. Every other thickness -/

/-- `n` consecutive integers from `a`. -/
def upFrom (a : Int) : Nat → List Int
  | 0 => []
  | n + 1 => a :: upFrom (a + 1) n

theorem mem_upFrom {b : Int} : ∀ {a : Int} {n : Nat}, b ∈ upFrom a n ↔ a ≤ b ∧ b < a + n
  | _, 0 => by simp [upFrom]
  | a, n + 1 => by rw [upFrom, List.mem_cons, mem_upFrom]; omega

/-- Below 127, the loop runs its body on each value from `a` to `t`, once given more
iterations than there are values. -/
theorem charFor_eq {σ : Type} {t : Int} (ht : t < 127) (body : Int → σ → Option σ) :
    ∀ (n fuel : Nat) (a : Int) (s : σ), -128 ≤ a → n = (t + 1 - a).toNat → n < fuel →
      charFor t body fuel a s = (upFrom a n).foldlM (fun s i => body i s) s
  | _, 0, _, _, _, _, hf => absurd hf (Nat.not_lt_zero _)
  | 0, fuel + 1, a, s, _, hn, _ => by
    rw [charFor, if_neg (by omega)]; rfl
  | n + 1, fuel + 1, a, s, ha, hn, hf => by
    rw [charFor, if_pos (by omega), upFrom, List.foldlM_cons, toChar_of_mem (by omega) (by omega)]
    cases body a s with
    | none => rfl
    | some s' => exact charFor_eq ht body n fuel (a + 1) s' (by omega) (by omega) (by omega)

/-- The loop runs its body on `char` values only. -/
theorem charFor_congr {σ : Type} {t : Int} {body body' : Int → σ → Option σ}
    (h : ∀ i, -128 ≤ i → i ≤ 127 → body i = body' i) :
    ∀ (fuel : Nat) (a : Int) (s : σ), -128 ≤ a → a ≤ 127 →
      charFor t body fuel a s = charFor t body' fuel a s
  | 0, _, _, _, _ => rfl
  | fuel + 1, a, s, h₁, h₂ => by
    rw [charFor, charFor, h a h₁ h₂]
    split_ifs
    · cases body' a s with
      | none => rfl
      | some s' => exact charFor_congr h fuel _ s' (toChar_ge _) (toChar_le _)
    · rfl

/-- The values the counters take for a thickness below 127: from `(char)(-t)` to `t`. -/
def charOffsets (t : Int) : List Int := upFrom (toChar (-t)) (t + 1 - toChar (-t)).toNat

theorem mem_charOffsets {t a : Int} (h₁ : -128 ≤ t) (h₂ : t < 127) :
    a ∈ charOffsets t ↔ (-t ≤ a ∧ a ≤ t) ∨ (t = -128 ∧ a = -128) := by
  unfold charOffsets toChar
  rw [mem_upFrom]
  omega

/-- The square of pixels the body paints around `(x0, y0)`, row by row. -/
def square (offs : List Int) (p : Int × Int) : List (Int × Int) :=
  offs.flatMap fun j => offs.map fun i => (p.1 + i, p.2 + j)

theorem painted_append (ctx : Ctx) (color : Nat) (l₁ l₂ : List (Int × Int)) :
    ∀ fb : Int → Nat,
      painted ctx color (l₁ ++ l₂) fb = painted ctx color l₂ (painted ctx color l₁ fb) := by
  induction l₁ with
  | nil => intro fb; rw [List.nil_append, painted_nil]
  | cons p l₁ ih => intro fb; rw [List.cons_append, painted_cons, painted_cons, ih]

theorem foldlM_painted (ctx : Ctx) (color : Nat) {α : Type} (f : α → List (Int × Int)) :
    ∀ (l : List α) (fb : Int → Nat),
      l.foldlM (fun fb a => some (painted ctx color (f a) fb)) fb =
        some (painted ctx color (l.flatMap f) fb)
  | [], fb => by rw [List.flatMap_nil, painted_nil]; rfl
  | a :: l, fb => by
    rw [List.flatMap_cons, painted_append, ← foldlM_painted ctx color f l]; rfl

theorem plot_eq_painted (ctx : Ctx) (color : Nat) (x y : Int) (fb : Int → Nat) :
    plot ctx color x y fb = painted ctx color [(x, y)] fb := by
  rw [painted_cons, painted_nil]

/-- Below 127, the body of the walk at a point whose sums with a `char` stay inside `int`
paints the square and ends, once given 257 iterations per loop. -/
theorem thickPlot_eq (ctx : Ctx) (color : Nat) {t : Int} (h₁ : -128 ≤ t) (h₂ : t < 127)
    {fuel : Nat} (hf : 257 ≤ fuel) {x0 y0 : Int} (hx : IsInt32Inner x0) (hy : IsInt32Inner y0)
    (fb : Int → Nat) :
    thickPlot ctx color t fuel x0 y0 fb =
      some (painted ctx color (square (charOffsets t) (x0, y0)) fb) := by
  have w : ∀ z i : Int, IsInt32Inner z → -128 ≤ i → i ≤ 127 → wrap32 (z + i) = z + i :=
    fun z i hz hi₁ hi₂ => wrap32_of_isInt32 (by unfold IsInt32Inner at hz; unfold IsInt32; omega)
  have hloop : ∀ (body : Int → (Int → Nat) → Option (Int → Nat)) (fb : Int → Nat),
      charFor t body fuel (toChar (-t)) fb = (charOffsets t).foldlM (fun s i => body i s) fb :=
    fun body fb => charFor_eq h₂ body _ fuel _ fb (by unfold toChar; omega) rfl
      (by unfold toChar; omega)
  unfold thickPlot
  rw [charFor_congr (fun j hj₁ hj₂ => funext fun fb => charFor_congr
      (fun i hi₁ hi₂ => by rw [w x0 i hx hi₁ hi₂, w y0 j hy hj₁ hj₂]) fuel _ fb (toChar_ge _)
      (toChar_le _)) fuel _ fb (toChar_ge _) (toChar_le _)]
  simp only [hloop, plot_eq_painted, foldlM_painted, square, List.map_eq_flatMap]

/-- The walk's bodies over points whose sums with a `char` stay inside `int`: the squares
around them, painted one after the other. -/
theorem foldlM_thickPlot (ctx : Ctx) (color : Nat) {t : Int} (h₁ : -128 ≤ t) (h₂ : t < 127)
    {fuel : Nat} (hf : 257 ≤ fuel) :
    ∀ (pts : List (Int × Int)) (fb : Int → Nat), (∀ p ∈ pts, IsInt32Inner p.1 ∧ IsInt32Inner p.2) →
      pts.foldlM (fun fb q => thickPlot ctx color t fuel q.1 q.2 fb) fb =
        some (painted ctx color (pts.flatMap (square (charOffsets t))) fb)
  | [], fb, _ => by rw [List.flatMap_nil, painted_nil]; rfl
  | p :: pts, fb, h => by
    have hp := h p (List.mem_cons_self _ _)
    rw [List.foldlM_cons, thickPlot_eq ctx color h₁ h₂ hf hp.1 hp.2, List.flatMap_cons,
      painted_append, ← foldlM_thickPlot ctx color h₁ h₂ hf pts _ fun q hq => h q (List.mem_cons_of_mem _ hq)]
    rfl

theorem draw_line_thick_paints (ctx : Ctx) (x0 x1 y0 y1 : Int) (color : Nat) (t : Int)
    (fb : Int → Nat) (hx0 : IsInt32Inner x0) (hx1 : IsInt32Inner x1) (hy0 : IsInt32Inner y0)
    (hy1 : IsInt32Inner y1) (hdx : (x1 - x0).natAbs < 2 ^ 29) (hdy : (y1 - y0).natAbs < 2 ^ 29)
    (h₁ : -128 ≤ t) (h₂ : t < 127) :
    ∃ pts, Returns (linePoints x0 x1 y0 y1) pts ∧
      Returns (drawLineThick ctx x0 x1 y0 y1 color t fb)
        (painted ctx color (pts.flatMap (square (charOffsets t))) fb) ∧
      ∀ a, a ∈ charOffsets t ↔ (-t ≤ a ∧ a ≤ t) ∨ (t = -128 ∧ a = -128) := by
  have hint : ∀ z, IsInt32Inner z → IsInt32 z := fun z hz => by
    unfold IsInt32Inner at hz; unfold IsInt32; omega
  obtain ⟨pts, hp, -, -, -, -, hbox⟩ :=
    linePoints_run (hint _ hx0) (hint _ hx1) (hint _ hy0) (hint _ hy1) hdx hdy
  have hin : ∀ p ∈ pts, IsInt32Inner p.1 ∧ IsInt32Inner p.2 := fun p hp' => by
    obtain ⟨u, hu, v, hv, rfl⟩ := hbox p hp'
    unfold IsInt32Inner stepOf at *
    constructor <;> split_ifs <;> omega
  refine ⟨pts, ⟨_, hp⟩, ⟨max (x1 - x0).natAbs (y1 - y0).natAbs + 1 + 257, ?_⟩,
    fun a => mem_charOffsets h₁ h₂⟩
  unfold linePoints at hp
  unfold drawLineThick lineWith
  rw [lineLoop_eq, linePath_add _ _ _ _ _ _ 257 hp, Option.some_bind]
  exact foldlM_thickPlot ctx color h₁ h₂ (Nat.le_add_left 257 _) pts fb hin

theorem draw_line_thick_paints_demo :
    (IsInt32Inner 0 ∧ IsInt32Inner 3 ∧ IsInt32Inner 0 ∧ IsInt32Inner 1 ∧
      (3 - 0 : Int).natAbs < 2 ^ 29 ∧ (1 - 0 : Int).natAbs < 2 ^ 29 ∧
      -128 ≤ (1 : Int) ∧ (1 : Int) < 127) ∧
    ∃ pts, Returns (linePoints 0 3 0 1) pts ∧
      Returns (drawLineThick screen4 0 3 0 1 0xFFFFFFFF 1 fun _ => 0)
        (painted screen4 0xFFFFFFFF (pts.flatMap (square (charOffsets 1))) fun _ => 0) ∧
      ∀ a, a ∈ charOffsets 1 ↔ (-1 ≤ a ∧ a ≤ 1) ∨ ((1 : Int) = -128 ∧ a = -128) :=
  have h : IsInt32Inner 0 ∧ IsInt32Inner 3 ∧ IsInt32Inner 0 ∧ IsInt32Inner 1 ∧
      (3 - 0 : Int).natAbs < 2 ^ 29 ∧ (1 - 0 : Int).natAbs < 2 ^ 29 ∧
      -128 ≤ (1 : Int) ∧ (1 : Int) < 127 := by decide
  ⟨h, draw_line_thick_paints screen4 0 3 0 1 0xFFFFFFFF 1 (fun _ => 0) h.1 h.2.1 h.2.2.1 h.2.2.2.1
    h.2.2.2.2.1 h.2.2.2.2.2.1 h.2.2.2.2.2.2.1 h.2.2.2.2.2.2.2⟩

end Graphics
end Toaru
