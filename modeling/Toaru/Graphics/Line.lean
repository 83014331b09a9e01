import Toaru.Memory
import Toaru.Graphics.Sprite
import Mathlib.Tactic.Ring

/-!
# `draw_line`: the Bresenham walk

`draw_line(ctx, x0, x1, y0, y1, color)` (`unixpipe.c`) walks from `(x0, y0)` to
`(x1, y1)` with one integer error term and plots every point it visits that lies on the
screen. Its loop has no counter: it stops when the pen is exactly on the endpoint, so
that it stops at all, after how many points, and that the pen never overshoots, all rest
on the error term. `draw_line_thick` runs the same loop with a square of pixels in place of
one pixel (`Toaru/Graphics/LineThick.lean`), so the loop is modelled once, as `lineLoop`,
with the body as a parameter.

The proof looks at the walk from its start (`Quad`): `u` steps taken along `x`, `v` along
`y`, and the error, which stays `deltax - deltay + v * deltax - u * deltay`. On the longer
axis the pen advances at every step and the error stays in a band (`Quad.Inv`) that keeps
the shorter axis within half a pixel of the ideal line; at the corner of the box the band
forces the other coordinate home (`corner_u`, `corner_v`). So the walk visits exactly
`max deltax deltay + 1` points and ends on the endpoint (`linePath_quad`).

The code computes in `int`, and the model computes as x86 does (`wrap32`): `2 * error`
wraps for endpoints `2^30` apart, and then the walk need not end. For `int32_t` endpoints
less than `2^29` apart on each axis, the band keeps `2 * error` inside `int` and the box
keeps the pen between the endpoints, so no operation wraps (`lineStep_pen`).
-/

set_option autoImplicit false

namespace Toaru
namespace Graphics

/-! ## 1. The loop -/

/-- The loop variables `x0`, `y0` and `error`. -/
structure Pen where
  x : Int
  y : Int
  error : Int
  deriving DecidableEq, Repr

/-- The end of one iteration, after the exit test:
`int e2 = 2 * error; if (e2 > -deltay) { error -= deltay; x0 += sx; }
if (e2 < deltax) { error += deltax; y0 += sy; }`, each `int` operation wrapped. Both
tests read the `e2` of the old error. -/
def lineStep (deltax deltay sx sy : Int) (p : Pen) : Pen :=
  let e2 := wrap32 (2 * p.error)
  let p := if e2 > wrap32 (-deltay) then ⟨wrap32 (p.x + sx), p.y, wrap32 (p.error - deltay)⟩ else p
  if e2 < deltax then ⟨p.x, wrap32 (p.y + sy), wrap32 (p.error + deltax)⟩ else p

/-- `while (1) { body; if (x0 == x1 && y0 == y1) break; step }` with `act` the body on the
current point, for at most `fuel` iterations. -/
def lineLoop {σ : Type} (act : Int → Int → σ → Option σ) (x1 y1 deltax deltay sx sy : Int) :
    Nat → Pen → σ → Option σ
  | 0, _, _ => none
  | fuel + 1, p, s => (act p.x p.y s).bind fun s =>
    if p.x = x1 ∧ p.y = y1 then some s
    else lineLoop act x1 y1 deltax deltay sx sy fuel (lineStep deltax deltay sx sy p) s

/-- `deltax = abs(x1 - x0)`, the difference and `abs` in `int`. -/
def deltaOf (a b : Int) : Int := wrap32 (wrap32 (b - a)).natAbs

/-- `sx = (x0 < x1) ? 1 : -1`. -/
def stepOf (a b : Int) : Int := if a < b then 1 else -1

/-- The set-up of `draw_line` and `draw_line_thick`, then the loop with body `act`, from
state `s`. -/
def lineWith {σ : Type} (act : Int → Int → σ → Option σ) (x0 x1 y0 y1 : Int) (s : σ)
    (fuel : Nat) : Option σ :=
  lineLoop act x1 y1 (deltaOf x0 x1) (deltaOf y0 y1) (stepOf x0 x1) (stepOf y0 y1) fuel
    ⟨x0, y0, wrap32 (deltaOf x0 x1 - deltaOf y0 y1)⟩ s

/-- The bounds test `x0 >= 0 && y0 >= 0 && x0 < ctx->width && y0 < ctx->height`. -/
def InBounds (ctx : Ctx) (x y : Int) : Prop := 0 ≤ x ∧ 0 ≤ y ∧ x < ctx.width ∧ y < ctx.height

instance (ctx : Ctx) (x y : Int) : Decidable (InBounds ctx x y) :=
  inferInstanceAs (Decidable (_ ∧ _))

/-- `if (in bounds) GFX(ctx, x, y) = color;`. -/
def plot (ctx : Ctx) (color : Nat) (x y : Int) (fb : Int → Nat) : Int → Nat :=
  if InBounds ctx x y then Function.update fb (ctx.index x y) color else fb

/-- `draw_line(ctx, x0, x1, y0, y1, color)`: the backbuffer after the call. -/
def drawLine (ctx : Ctx) (x0 x1 y0 y1 : Int) (color : Nat) (fb : Int → Nat) :
    Nat → Option (Int → Nat) :=
  lineWith (fun x y fb => some (plot ctx color x y fb)) x0 x1 y0 y1 fb

/-! ## 2. The points visited -/

/-- The points the loop visits, in order, for at most `fuel` iterations. -/
def linePath (x1 y1 deltax deltay sx sy : Int) : Nat → Pen → Option (List (Int × Int))
  | 0, _ => none
  | fuel + 1, p =>
    if p.x = x1 ∧ p.y = y1 then some [(p.x, p.y)]
    else (linePath x1 y1 deltax deltay sx sy fuel (lineStep deltax deltay sx sy p)).map
      ((p.x, p.y) :: ·)

/-- The points `draw_line(ctx, x0, x1, y0, y1, color)` visits. -/
def linePoints (x0 x1 y0 y1 : Int) (fuel : Nat) : Option (List (Int × Int)) :=
  linePath x1 y1 (deltaOf x0 x1) (deltaOf y0 y1) (stepOf x0 x1) (stepOf y0 y1) fuel
    ⟨x0, y0, wrap32 (deltaOf x0 x1 - deltaOf y0 y1)⟩

/-- The loop is its body run over the points visited: whatever the body, and whether or
not the fuel suffices. -/
theorem lineLoop_eq {σ : Type} (act : Int → Int → σ → Option σ) (x1 y1 deltax deltay sx sy : Int) :
    ∀ (fuel : Nat) (p : Pen) (s : σ), lineLoop act x1 y1 deltax deltay sx sy fuel p s =
      (linePath x1 y1 deltax deltay sx sy fuel p).bind
        fun pts => pts.foldlM (fun s q => act q.1 q.2 s) s
  | 0, _, _ => rfl
  | fuel + 1, p, s => by
    simp only [lineLoop, linePath]
    split_ifs
    · cases h : act p.x p.y s <;> simp [List.foldlM, h]
    · simp only [lineLoop_eq act x1 y1 deltax deltay sx sy fuel]
      cases linePath x1 y1 deltax deltay sx sy fuel (lineStep deltax deltay sx sy p) <;>
        cases h : act p.x p.y s <;> simp [List.foldlM, h]

/-! ## 3. The walk from its start -/

/-- The walk seen from its start: `u` steps taken along `x`, `v` along `y`, and the error. -/
structure Quad where
  u : Nat
  v : Nat
  e : Int

/-- The pen after `u` steps of `sx` from `x0` and `v` steps of `sy` from `y0`. -/
def Quad.pen (x0 y0 sx sy : Int) (q : Quad) : Pen := ⟨x0 + sx * q.u, y0 + sy * q.v, q.e⟩

/-- `lineStep` on the counts. -/
def quadStep (dx dy : Nat) (q : Quad) : Quad :=
  let e2 := 2 * q.e
  let q := if e2 > -(dy : Int) then ⟨q.u + 1, q.v, q.e - dy⟩ else q
  if e2 < dx then ⟨q.u, q.v + 1, q.e + dx⟩ else q

/-- What the error term keeps along the walk: its value in terms of the counts, the counts
within the box, and a band that, on the longer axis, makes the pen advance at every step
(`-deltay < 2 * error` when `x` is the longer axis, `2 * error < deltax` when `y` is). -/
structure Quad.Inv (dx dy : Nat) (q : Quad) : Prop where
  error_eq : q.e = dx - dy + (q.v * dx - q.u * dy)
  u_le : q.u ≤ dx
  v_le : q.v ≤ dy
  band_x : dy ≤ dx → 0 < dx → -(dy : Int) < 2 * q.e ∧ 2 * q.e < 3 * dx - 2 * dy
  band_y : dx ≤ dy → 0 < dy → 2 * (dx : Int) - 3 * dy < 2 * q.e ∧ 2 * q.e < dx

/-- The steps left: along the longer axis. -/
def Quad.left (dx dy : Nat) (q : Quad) : Nat := if dy ≤ dx then dx - q.u else dy - q.v

theorem Quad.inv_start (dx dy : Nat) : (⟨0, 0, dx - dy⟩ : Quad).Inv dx dy :=
  ⟨by simp, Nat.zero_le _, Nat.zero_le _, fun _ _ => by dsimp only; omega,
    fun _ _ => by dsimp only; omega⟩

theorem Quad.left_start (dx dy : Nat) : (⟨0, 0, dx - dy⟩ : Quad).left dx dy = max dx dy := by
  unfold Quad.left; dsimp only; split_ifs <;> omega

/-- At `u = dx` short of `dy`, the error is at least `deltax` too low. -/
theorem corner_u {dx dy u v : Nat} (hu : u = dx) (hv : v < dy) :
    (v * dx - u * dy : Int) ≤ -dx := by
  subst hu
  have : ((v + 1 : Nat) : Int) * u ≤ (dy : Int) * u :=
    Int.mul_le_mul_of_nonneg_right (by omega) (by omega)
  push_cast at this
  linarith [mul_comm (u : Int) dy]

/-- At `v = dy` short of `dx`, the error is at least `deltay` too high. -/
theorem corner_v {dx dy u v : Nat} (hv : v = dy) (hu : u < dx) :
    (dy : Int) ≤ v * dx - u * dy := by
  subst hv
  have : ((u + 1 : Nat) : Int) * v ≤ (dx : Int) * v :=
    Int.mul_le_mul_of_nonneg_right (by omega) (by omega)
  push_cast at this
  linarith [mul_comm (v : Int) dx]

/-- Every step keeps the error's value in terms of the counts. -/
theorem quadStep_error_eq {dx dy : Nat} {q : Quad} (he : q.e = dx - dy + (q.v * dx - q.u * dy)) :
    (quadStep dx dy q).e = dx - dy + ((quadStep dx dy q).v * dx - (quadStep dx dy q).u * dy) := by
  unfold quadStep
  dsimp only
  split_ifs <;> (try dsimp only) <;> rw [he] <;> push_cast <;> ring

/-- Within the band, the walk is at its end exactly when no step is left. -/
theorem Quad.Inv.exit_iff {dx dy : Nat} {q : Quad} (hi : q.Inv dx dy) :
    q.u = dx ∧ q.v = dy ↔ q.left dx dy = 0 := by
  obtain ⟨he, hu, hv, hbx, hby⟩ := hi
  have c1 := @corner_u dx dy q.u q.v
  have c2 := @corner_v dx dy q.u q.v
  unfold Quad.left
  split_ifs <;> omega

/-- One step inside the band: the band holds again, one step fewer is left, and each count
grows by at most one. -/
theorem Quad.Inv.step {dx dy : Nat} {q : Quad} (hi : q.Inv dx dy) (hx : ¬ (q.u = dx ∧ q.v = dy)) :
    (quadStep dx dy q).Inv dx dy ∧ (quadStep dx dy q).left dx dy + 1 = q.left dx dy ∧
      ((quadStep dx dy q).u = q.u ∨ (quadStep dx dy q).u = q.u + 1) ∧
      ((quadStep dx dy q).v = q.v ∨ (quadStep dx dy q).v = q.v + 1) := by
  obtain ⟨he, hu, hv, hbx, hby⟩ := hi
  have c1 := @corner_u dx dy q.u q.v
  have c2 := @corner_v dx dy q.u q.v
  refine ⟨⟨quadStep_error_eq he, ?_, ?_, ?_, ?_⟩, ?_, ?_, ?_⟩ <;> unfold quadStep <;>
    try unfold Quad.left
  all_goals dsimp only; split_ifs <;> (try dsimp only) <;> omega

/-- Along the walk `2 * error` stays between `-3 * deltay` and `3 * deltax`. -/
theorem Quad.Inv.two_e_bound {dx dy : Nat} {q : Quad} (hi : q.Inv dx dy) :
    -(3 * (dy : Int)) ≤ 2 * q.e ∧ 2 * q.e ≤ 3 * dx := by
  obtain ⟨he, -, -, hbx, hby⟩ := hi
  rcases Nat.eq_zero_or_pos dx with rfl | hx <;> rcases Nat.eq_zero_or_pos dy with rfl | hy
  · simp only [Nat.cast_zero, mul_zero, sub_zero, add_zero] at he; omega
  · have := hby (Nat.zero_le _) hy; omega
  · have := hbx (Nat.zero_le _) hx; omega
  · by_cases h : dy ≤ dx
    · have := hbx h hx; omega
    · have := hby (by omega) hy; omega

/-- A pen coordinate that moves one step inside the box does not wrap. -/
theorem wrap32_pen_step {x0 sx : Int} (hsx : sx = 1 ∨ sx = -1) {u d : Nat} (hx : IsInt32 x0)
    (hx' : IsInt32 (x0 + sx * d)) (hu : u + 1 ≤ d) :
    wrap32 (x0 + sx * u + sx) = x0 + sx * ((u + 1 : Nat) : Int) := by
  have h : x0 + sx * u + sx = x0 + sx * ((u + 1 : Nat) : Int) := by push_cast; ring
  rw [h, wrap32_of_isInt32]
  unfold IsInt32 at *
  rcases hsx with rfl | rfl <;> omega

/-- Inside the box and the band, for `int32_t` endpoints less than `2^29` apart, no `int`
operation of a step wraps: a step of the code is a step of the counts. -/
theorem lineStep_pen {x0 y0 sx sy : Int} {dx dy : Nat} (hsx : sx = 1 ∨ sx = -1)
    (hsy : sy = 1 ∨ sy = -1) (hx : IsInt32 x0) (hx' : IsInt32 (x0 + sx * dx)) (hy : IsInt32 y0)
    (hy' : IsInt32 (y0 + sy * dy)) (hdx : dx < 2 ^ 29) (hdy : dy < 2 ^ 29) {q : Quad}
    (hi : q.Inv dx dy) (hi' : (quadStep dx dy q).Inv dx dy) :
    lineStep dx dy sx sy (q.pen x0 y0 sx sy) = (quadStep dx dy q).pen x0 y0 sx sy := by
  have hb := hi.two_e_bound
  have w : ∀ z : Int, -2 ^ 31 ≤ z → z < 2 ^ 31 → wrap32 z = z := fun z h₁ h₂ => wrap32_of_isInt32 ⟨h₁, h₂⟩
  have hu := hi'.u_le
  have hv := hi'.v_le
  simp only [lineStep, quadStep, Quad.pen, w (2 * q.e) (by omega) (by omega),
    w (-(dy : Int)) (by omega) (by omega)] at hu hv ⊢
  by_cases h₁ : 2 * q.e > -(dy : Int) <;> by_cases h₂ : 2 * q.e < dx <;>
    simp only [h₁, h₂, if_true, if_false] at hu hv ⊢
  · rw [wrap32_pen_step hsx hx hx' hu, wrap32_pen_step hsy hy hy' hv,
      w (q.e - dy) (by omega) (by omega), w (q.e - dy + dx) (by omega) (by omega)]
  · rw [wrap32_pen_step hsx hx hx' hu, w (q.e - dy) (by omega) (by omega)]
  · rw [wrap32_pen_step hsy hy hy' hv, w (q.e + dx) (by omega) (by omega)]

/-! ## 4. The walk on the screen -/

/-- `b` is `a`, or one step from `a` toward `t` that does not pass `t`. -/
def Toward (a b t : Int) : Prop := b = a ∨ (a < t ∧ b = a + 1) ∨ (t < a ∧ b = a - 1)

theorem toward_pen {x0 sx : Int} (hs : sx = 1 ∨ sx = -1) {u u' dx : Nat}
    (h : u' = u ∨ u' = u + 1) (hle : u' ≤ dx) :
    Toward (x0 + sx * u) (x0 + sx * u') (x0 + sx * dx) := by
  unfold Toward; rcases hs with rfl | rfl <;> omega

theorem pen_eq_iff {x0 sx : Int} (hs : sx = 1 ∨ sx = -1) {u dx : Nat} :
    x0 + sx * u = x0 + sx * dx ↔ u = dx := by
  rcases hs with rfl | rfl <;> omega

/-- From a point inside the band with fuel for the steps left, the loop visits one point per
step left and one more, starting at the pen and ending on the endpoint, each a step toward
the endpoint on each axis and each inside the box. -/
theorem linePath_quad {x0 y0 sx sy : Int} {dx dy : Nat} (hsx : sx = 1 ∨ sx = -1)
    (hsy : sy = 1 ∨ sy = -1) (hx : IsInt32 x0) (hx' : IsInt32 (x0 + sx * dx)) (hy : IsInt32 y0)
    (hy' : IsInt32 (y0 + sy * dy)) (hdx : dx < 2 ^ 29) (hdy : dy < 2 ^ 29) :
    ∀ (fuel : Nat) (q : Quad), q.Inv dx dy → q.left dx dy < fuel →
      ∃ pts, linePath (x0 + sx * dx) (y0 + sy * dy) dx dy sx sy fuel (q.pen x0 y0 sx sy) =
          some pts ∧ pts.length = q.left dx dy + 1 ∧
        pts.head? = some (x0 + sx * q.u, y0 + sy * q.v) ∧
        pts.getLast? = some (x0 + sx * dx, y0 + sy * dy) ∧
        pts.Chain' (fun a b => Toward a.1 b.1 (x0 + sx * dx) ∧ Toward a.2 b.2 (y0 + sy * dy)) ∧
        ∀ p ∈ pts, ∃ u ≤ dx, ∃ v ≤ dy, p = (x0 + sx * u, y0 + sy * v)
  | 0, _, _, h => absurd h (Nat.not_lt_zero _)
  | fuel + 1, q, hi, hf => by
    have hexit : (q.pen x0 y0 sx sy).x = x0 + sx * dx ∧ (q.pen x0 y0 sx sy).y = y0 + sy * dy ↔
        q.u = dx ∧ q.v = dy := by
      simp only [Quad.pen, pen_eq_iff hsx, pen_eq_iff hsy]
    rw [linePath]
    by_cases hq : q.u = dx ∧ q.v = dy
    · rw [if_pos (hexit.2 hq), hi.exit_iff.1 hq]
      exact ⟨[(x0 + sx * q.u, y0 + sy * q.v)], rfl, rfl, rfl, by simp [hq.1, hq.2],
        List.chain'_singleton _, fun p hp => by
          rw [List.mem_singleton.1 hp]; exact ⟨q.u, hi.u_le, q.v, hi.v_le, rfl⟩⟩
    · obtain ⟨hi', hl, hu, hv⟩ := hi.step hq
      rw [if_neg (mt hexit.1 hq), lineStep_pen hsx hsy hx hx' hy hy' hdx hdy hi hi']
      obtain ⟨pts, hp, hlen, hhead, hlast, hchain, hbox⟩ :=
        linePath_quad hsx hsy hx hx' hy hy' hdx hdy fuel (quadStep dx dy q) hi' (by omega)
      cases pts with
      | nil => cases hhead
      | cons b rest =>
        obtain rfl : b = _ := Option.some.inj hhead
        refine ⟨(x0 + sx * q.u, y0 + sy * q.v) :: _ :: rest, by rw [hp]; rfl, ?_, rfl,
          by rw [List.getLast?_cons_cons]; exact hlast, List.chain'_cons.2 ⟨⟨?_, ?_⟩, hchain⟩, ?_⟩
        · simp only [List.length_cons] at hlen ⊢; omega
        · exact toward_pen hsx hu hi'.u_le
        · exact toward_pen hsy hv hi'.v_le
        · rintro p (_ | ⟨_, hp'⟩)
          exacts [⟨q.u, hi.u_le, q.v, hi.v_le, rfl⟩, hbox p hp']

/-- More fuel changes nothing once the loop has exited. -/
theorem linePath_add (x1 y1 deltax deltay sx sy : Int) {pts : List (Int × Int)} :
    ∀ {fuel : Nat} {p : Pen} (k : Nat), linePath x1 y1 deltax deltay sx sy fuel p = some pts →
      linePath x1 y1 deltax deltay sx sy (fuel + k) p = some pts
  | 0, _, _, h => by cases h
  | fuel + 1, p, k, h => by
    rw [Nat.add_right_comm, linePath]
    rw [linePath] at h
    split_ifs at h ⊢
    · exact h
    · obtain ⟨rest, hr, rfl⟩ := Option.map_eq_some'.1 h
      rw [linePath_add x1 y1 deltax deltay sx sy k hr]
      rfl

theorem stepOf_cases (a b : Int) : stepOf a b = 1 ∨ stepOf a b = -1 := by
  unfold stepOf; split_ifs <;> simp

theorem add_stepOf_mul (a b : Int) : a + stepOf a b * (b - a).natAbs = b := by
  unfold stepOf; split_ifs <;> omega

/-- For `int32_t` endpoints less than `2^29` apart, `deltax` is the distance. -/
theorem deltaOf_eq {a b : Int} (h : (b - a).natAbs < 2 ^ 29) : deltaOf a b = (b - a).natAbs := by
  have h' : IsInt32 (b - a) := by unfold IsInt32; omega
  rw [deltaOf, wrap32_of_isInt32 h', wrap32_of_isInt32 (by unfold IsInt32; omega)]

/-- For `int32_t` endpoints less than `2^29` apart on each axis, `draw_line` visits
`max deltax deltay + 1` points, from `(x0, y0)` to `(x1, y1)`, each a step toward the
endpoint on each axis and each in the box the endpoints span, once given that many
iterations. -/
theorem linePoints_run {x0 x1 y0 y1 : Int} (hx0 : IsInt32 x0) (hx1 : IsInt32 x1) (hy0 : IsInt32 y0)
    (hy1 : IsInt32 y1) (hdx : (x1 - x0).natAbs < 2 ^ 29) (hdy : (y1 - y0).natAbs < 2 ^ 29) :
    ∃ pts, linePoints x0 x1 y0 y1 (max (x1 - x0).natAbs (y1 - y0).natAbs + 1) = some pts ∧
      pts.length = max (x1 - x0).natAbs (y1 - y0).natAbs + 1 ∧
      pts.head? = some (x0, y0) ∧ pts.getLast? = some (x1, y1) ∧
      pts.Chain' (fun p q => Toward p.1 q.1 x1 ∧ Toward p.2 q.2 y1) ∧
      ∀ p ∈ pts, ∃ u ≤ (x1 - x0).natAbs, ∃ v ≤ (y1 - y0).natAbs,
        p = (x0 + stepOf x0 x1 * u, y0 + stepOf y0 y1 * v) := by
  have h := @linePath_quad x0 y0 _ _ (x1 - x0).natAbs (y1 - y0).natAbs (stepOf_cases x0 x1)
    (stepOf_cases y0 y1) hx0 (by rwa [add_stepOf_mul]) hy0 (by rwa [add_stepOf_mul]) hdx hdy
    (max (x1 - x0).natAbs (y1 - y0).natAbs + 1) _ (Quad.inv_start _ _)
    (by rw [Quad.left_start]; omega)
  rw [add_stepOf_mul, add_stepOf_mul, Quad.left_start] at h
  have he : wrap32 ((x1 - x0).natAbs - (y1 - y0).natAbs) = (x1 - x0).natAbs - (y1 - y0).natAbs :=
    wrap32_of_isInt32 (by unfold IsInt32; omega)
  rw [linePoints, deltaOf_eq hdx, deltaOf_eq hdy, he]
  simpa [Quad.pen] using h

example : linePoints 0 3 0 1 4 = some [(0, 0), (1, 0), (2, 1), (3, 1)] := by decide

/-! ## 5. What `draw_line` paints -/

/-- The backbuffer `fb` with `color` at every point of `pts` that is on the screen. -/
def painted (ctx : Ctx) (color : Nat) (pts : List (Int × Int)) (fb : Int → Nat) : Int → Nat :=
  fun i => if ∃ p ∈ pts, InBounds ctx p.1 p.2 ∧ ctx.index p.1 p.2 = i then color else fb i

theorem painted_nil (ctx : Ctx) (color : Nat) (fb : Int → Nat) : painted ctx color [] fb = fb := by
  funext i; simp [painted]

theorem painted_cons (ctx : Ctx) (color : Nat) (p : Int × Int) (pts : List (Int × Int))
    (fb : Int → Nat) :
    painted ctx color (p :: pts) fb = painted ctx color pts (plot ctx color p.1 p.2 fb) := by
  funext i
  unfold painted plot
  simp only [List.mem_cons, or_and_right, exists_or, exists_eq_left]
  by_cases hb : InBounds ctx p.1 p.2
  · by_cases he : ctx.index p.1 p.2 = i
    · subst he; simp [hb]
    · rw [if_pos hb, Function.update_noteq (Ne.symm he)]
      exact if_congr (by simp [he]) rfl rfl
  · rw [if_neg hb]
    exact if_congr (by simp [hb]) rfl rfl

/-- Plotting point after point paints the points on the screen, each once and in any order. -/
theorem foldlM_plot (ctx : Ctx) (color : Nat) :
    ∀ (pts : List (Int × Int)) (fb : Int → Nat),
      pts.foldlM (fun fb q => some (plot ctx color q.1 q.2 fb)) fb = some (painted ctx color pts fb)
  | [], fb => by rw [painted_nil]; rfl
  | p :: pts, fb => by rw [painted_cons, ← foldlM_plot ctx color pts]; rfl

theorem draw_line_bresenham (ctx : Ctx) (x0 x1 y0 y1 : Int) (color : Nat) (fb : Int → Nat)
    (hx0 : IsInt32 x0) (hx1 : IsInt32 x1) (hy0 : IsInt32 y0) (hy1 : IsInt32 y1)
    (hdx : (x1 - x0).natAbs < 2 ^ 29) (hdy : (y1 - y0).natAbs < 2 ^ 29) :
    ∃ pts, Returns (linePoints x0 x1 y0 y1) pts ∧
      pts.length = max (x1 - x0).natAbs (y1 - y0).natAbs + 1 ∧
      pts.head? = some (x0, y0) ∧ pts.getLast? = some (x1, y1) ∧
      pts.Chain' (fun p q => Toward p.1 q.1 x1 ∧ Toward p.2 q.2 y1) ∧
      Returns (drawLine ctx x0 x1 y0 y1 color fb) (painted ctx color pts fb) := by
  obtain ⟨pts, hp, hlen, hhead, hlast, hchain, -⟩ := linePoints_run hx0 hx1 hy0 hy1 hdx hdy
  refine ⟨pts, ⟨_, hp⟩, hlen, hhead, hlast, hchain,
    ⟨max (x1 - x0).natAbs (y1 - y0).natAbs + 1, ?_⟩⟩
  unfold drawLine lineWith
  rw [lineLoop_eq]
  exact (congrArg (Option.bind · _) hp).trans (foldlM_plot ctx color pts fb)

/-- A 4 × 4 screen. -/
def screen4 : Ctx := ⟨4, 4, 0, none, 0⟩

theorem draw_line_bresenham_demo :
    (IsInt32 0 ∧ IsInt32 3 ∧ IsInt32 0 ∧ IsInt32 1 ∧ (3 - 0 : Int).natAbs < 2 ^ 29 ∧
      (1 - 0 : Int).natAbs < 2 ^ 29) ∧
    ∃ pts, Returns (linePoints 0 3 0 1) pts ∧
      pts.length = max (3 - 0 : Int).natAbs (1 - 0 : Int).natAbs + 1 ∧
      pts.head? = some (0, 0) ∧ pts.getLast? = some (3, 1) ∧
      pts.Chain' (fun p q => Toward p.1 q.1 3 ∧ Toward p.2 q.2 1) ∧
      Returns (drawLine screen4 0 3 0 1 0xFFFFFFFF fun _ => 0)
        (painted screen4 0xFFFFFFFF pts fun _ => 0) :=
  have h : IsInt32 0 ∧ IsInt32 3 ∧ IsInt32 0 ∧ IsInt32 1 ∧ (3 - 0 : Int).natAbs < 2 ^ 29 ∧
      (1 - 0 : Int).natAbs < 2 ^ 29 := by decide
  ⟨h, draw_line_bresenham screen4 0 3 0 1 0xFFFFFFFF (fun _ => 0) h.1 h.2.1 h.2.2.1 h.2.2.2.1
    h.2.2.2.2.1 h.2.2.2.2.2⟩

end Graphics
end Toaru
