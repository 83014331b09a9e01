import Toaru.Graphics.Sprite
import Mathlib.Algebra.BigOperators.Intervals
import Mathlib.Tactic.Ring

/-!
# `blur_context_box`: the sliding-window box blur

`blur_context_box(ctx, radius)` (`unixpipe.c`) blurs the backbuffer in two passes,
`_box_blur_horizontal` then `_box_blur_vertical`, each over windows of half-width
`radius / 2`. Neither pass sums its windows afresh: each line (a row, then a column) is
swept once with running channel sums and a hit count, adding the pixel that enters the
window and subtracting the one that leaves, skipping zero pixels, and reading through
`clamp(…, 0, w*h-1)`. Each line's results go to a scratch array and are copied back after
the sweep.

The two passes are one sweep, `slideLine`, read through different index arithmetic: the
horizontal pass reads `index + old_p` from a row start, the vertical pass a running index
`index + old_offset` that moves by `w` per step. The sweep keeps the sums of exactly the
window `[t - r, t + r] ∩ [0, n)` (`slideLoop_spec`): a zero pixel adds nothing to a sum,
so the skip is harmless, and a pixel is always in its own window, so the count is never
zero. The clamps change nothing on a `w × h` buffer, and a line only reads itself, so
copying a line back never feeds the sweep of a later line. So the passes are the separable
box blur with floor averages (`blur_context_box_eq`).
-/

set_option autoImplicit false

namespace Toaru
namespace Graphics

open Finset

/-! ## 1. The sweep of one line -/

/-- The running `hits`, `r`, `g`, `b`, `a` of a sweep. -/
structure Acc where
  hits : Int
  r : Int
  g : Int
  b : Int
  a : Int

/-- `if (col) { r -= _RED(col); … } hits--;`: the pixel leaving the window. -/
def Acc.drop (acc : Acc) (col : Nat) : Acc :=
  let acc := if col ≠ 0 then ⟨acc.hits, acc.r - red col, acc.g - gre col, acc.b - blu col,
    acc.a - alp col⟩ else acc
  { acc with hits := acc.hits - 1 }

/-- `if (col != 0) { r += _RED(col); … } hits++;`: the pixel entering the window. -/
def Acc.take (acc : Acc) (col : Nat) : Acc :=
  let acc := if col ≠ 0 then ⟨acc.hits, acc.r + red col, acc.g + gre col, acc.b + blu col,
    acc.a + alp col⟩ else acc
  { acc with hits := acc.hits + 1 }

/-- An `int` stored in a `uint8_t` parameter. -/
def toU8 (z : Int) : Nat := (z % 256).toNat

/-- `rgba(r / hits, g / hits, b / hits, a / hits)`, or `none` for a division by zero. -/
def Acc.color (acc : Acc) : Option Nat :=
  if acc.hits = 0 then none
  else some (rgba (toU8 (acc.r.tdiv acc.hits)) (toU8 (acc.g.tdiv acc.hits))
    (toU8 (acc.b.tdiv acc.hits)) (toU8 (acc.a.tdiv acc.hits)))

/-- `clamp(a, l, h)`. -/
def clamp (a l h : Int) : Int := if a < l then l else if a > h then h else a

/-- One iteration of a sweep at position `t` of a line of `n` pixels: drop the pixel at
`old_p = t - hr - 1` (read by `readOld t`), take the one at `newPixel = t + hr` (read by
`readNew t`), and for `t >= 0` store the window's color in `out_color[t]`. -/
def slideStep (n hr : Nat) (readOld readNew : Int → Nat) (t : Int) (acc : Acc)
    (out : Int → Nat) : Option (Acc × (Int → Nat)) :=
  let oldP := t - hr - 1
  let acc := if oldP ≥ 0 then acc.drop (readOld t) else acc
  let newPixel := t + hr
  let acc := if newPixel < n then acc.take (readNew t) else acc
  if t ≥ 0 then acc.color.map fun c => (acc, Function.update out t c) else some (acc, out)

/-- `k` iterations of a sweep from position `t`. -/
def slideLoop (n hr : Nat) (readOld readNew : Int → Nat) : Nat → Int → Acc → (Int → Nat) →
    Option (Int → Nat)
  | 0, _, _, out => some out
  | k + 1, t, acc, out => (slideStep n hr readOld readNew t acc out).bind fun r =>
    slideLoop n hr readOld readNew k (t + 1) r.1 r.2

/-- `hits = r = g = b = a = 0; for (t = -hr; t < n; t++) …`: the `out_color` after one line. -/
def slideLine (n hr : Nat) (readOld readNew : Int → Nat) (out : Int → Nat) : Option (Int → Nat) :=
  slideLoop n hr readOld readNew (n + hr) (-hr) ⟨0, 0, 0, 0, 0⟩ out

/-! ## 2. The sweep keeps its window -/

/-- The floor-average box pixel at `x` of a line `f` of `n` pixels, half-width `r`. -/
def boxPixel (f : Nat → Nat) (n r x : Nat) : Nat :=
  let lo := x - r
  let hi := min n (x + r + 1)
  let avg (k : Nat) := (∑ i ∈ Ico lo hi, chan k (f i)) / (hi - lo)
  rgba (avg 2) (avg 1) (avg 0) (avg 3)

/-- The sums and the count of the window `[lo, hi)` of `f`. -/
def winAcc (f : Nat → Nat) (lo hi : Nat) : Acc :=
  ⟨(hi - lo : Nat), (∑ i ∈ Ico lo hi, chan 2 (f i) : Nat), (∑ i ∈ Ico lo hi, chan 1 (f i) : Nat),
    (∑ i ∈ Ico lo hi, chan 0 (f i) : Nat), (∑ i ∈ Ico lo hi, chan 3 (f i) : Nat)⟩

theorem chan_zero (k : Nat) : chan k 0 = 0 := by simp [chan]

/-- Skipping a zero pixel is adding it. -/
theorem Acc.take_eq (acc : Acc) (col : Nat) :
    acc.take col = ⟨acc.hits + 1, acc.r + chan 2 col, acc.g + chan 1 col, acc.b + chan 0 col,
      acc.a + chan 3 col⟩ := by
  unfold Acc.take
  split_ifs with h
  · rfl
  · obtain rfl : col = 0 := not_not.1 h
    simp [chan_zero]

theorem Acc.drop_eq (acc : Acc) (col : Nat) :
    acc.drop col = ⟨acc.hits - 1, acc.r - chan 2 col, acc.g - chan 1 col, acc.b - chan 0 col,
      acc.a - chan 3 col⟩ := by
  unfold Acc.drop
  split_ifs with h
  · rfl
  · obtain rfl : col = 0 := not_not.1 h
    simp [chan_zero]

theorem winAcc_take (f : Nat → Nat) {lo hi : Nat} (h : lo ≤ hi) :
    (winAcc f lo hi).take (f hi) = winAcc f lo (hi + 1) := by
  simp only [Acc.take_eq, winAcc, sum_Ico_succ_top h, Nat.cast_add, Acc.mk.injEq, and_true]
  omega

theorem winAcc_drop (f : Nat → Nat) {lo hi : Nat} (h : lo < hi) :
    (winAcc f lo hi).drop (f lo) = winAcc f (lo + 1) hi := by
  simp only [Acc.drop_eq, winAcc, sum_eq_sum_Ico_succ_bot h, Nat.cast_add, Acc.mk.injEq]
  omega

theorem rgba_toU8_div (r g b a c : Nat) :
    rgba (toU8 ((r : Int).tdiv c)) (toU8 ((g : Int).tdiv c)) (toU8 ((b : Int).tdiv c))
      (toU8 ((a : Int).tdiv c)) = rgba (r / c) (g / c) (b / c) (a / c) := by
  have h : ∀ n : Nat, toU8 ((n : Int).tdiv c) = n / c % 256 := fun n => by
    rw [toU8, ← Int.ofNat_tdiv]; omega
  simp only [h, rgba, Nat.mod_mod]

/-- A nonempty window has its box pixel as color. -/
theorem winAcc_color (f : Nat → Nat) (n r x : Nat) (hx : x < n) :
    (winAcc f (x - r) (min n (x + r + 1))).color = some (boxPixel f n r x) := by
  unfold Acc.color winAcc
  dsimp only
  rw [if_neg (by omega), rgba_toU8_div]
  rfl

section Sweep

variable (f : Nat → Nat) (n hr : Nat) (readOld readNew : Int → Nat)

/-- What the sweep of a line `f` reads: the pixel at `old_p` and the one at `newPixel`, each
where the code reads it. -/
def ReadsLine : Prop :=
  (∀ t : Int, 0 ≤ t - hr - 1 → t - hr - 1 < n → readOld t = f (t - hr - 1).toNat) ∧
    ∀ t : Int, 0 ≤ t + hr → t + hr < n → readNew t = f (t + hr).toNat

variable {f n hr readOld readNew}

/-- One iteration moves the window from `[t - hr - 1, t + hr)` to `[t - hr, t + hr + 1)`
(both cut to the line) and stores the box pixel at `t`. -/
theorem slideStep_eq (hr_ : ReadsLine f n hr readOld readNew) {t : Int} (ht : -(hr : Int) ≤ t)
    (htn : t < n) (out : Int → Nat) :
    slideStep n hr readOld readNew t (winAcc f (t - hr - 1).toNat (min n (t + hr).toNat)) out =
      some (winAcc f (t + 1 - hr - 1).toNat (min n (t + 1 + hr).toNat),
        if t ≥ 0 then Function.update out t (boxPixel f n hr t.toNat) else out) := by
  have hdrop : (if t - hr - 1 ≥ 0 then (winAcc f (t - hr - 1).toNat (min n (t + hr).toNat)).drop
      (readOld t) else winAcc f (t - hr - 1).toNat (min n (t + hr).toNat)) =
        winAcc f (t + 1 - hr - 1).toNat (min n (t + hr).toNat) := by
    split_ifs with h
    · rw [hr_.1 t h (by omega), winAcc_drop f (by omega)]
      congr 1; omega
    · congr 1; omega
  have htake : (if t + hr < n then (winAcc f (t + 1 - hr - 1).toNat (min n (t + hr).toNat)).take
      (readNew t) else winAcc f (t + 1 - hr - 1).toNat (min n (t + hr).toNat)) =
        winAcc f (t + 1 - hr - 1).toNat (min n (t + 1 + hr).toNat) := by
    split_ifs with h
    · rw [hr_.2 t (by omega) h, show min n (t + hr).toNat = (t + hr).toNat by omega,
        winAcc_take f (by omega)]
      congr 1; omega
    · congr 1; omega
  unfold slideStep
  dsimp only
  rw [hdrop, htake]
  split_ifs with h0
  · rw [show (t + 1 - hr - 1).toNat = t.toNat - hr by omega,
      show min n (t + 1 + hr).toNat = min n (t.toNat + hr + 1) by omega,
      winAcc_color f n hr t.toNat (by omega)]
    rfl
  · rfl

/-- The sweep from `t` with the window of `t` stores the box pixel at every position from
`t` on, and nothing else. -/
theorem slideLoop_spec (hr_ : ReadsLine f n hr readOld readNew) :
    ∀ (k : Nat) (t : Int) (out : Int → Nat), t + k = n → -(hr : Int) ≤ t →
      ∃ out', slideLoop n hr readOld readNew k t
          (winAcc f (t - hr - 1).toNat (min n (t + hr).toNat)) out = some out' ∧
        ∀ x, out' x = if 0 ≤ x ∧ t ≤ x ∧ x < n then boxPixel f n hr x.toNat else out x
  | 0, t, out, hk, _ => ⟨out, rfl, fun x => by rw [if_neg (by omega)]⟩
  | k + 1, t, out, hk, ht => by
    obtain ⟨out', h, hout⟩ := slideLoop_spec hr_ k (t + 1)
      (if t ≥ 0 then Function.update out t (boxPixel f n hr t.toNat) else out) (by omega) (by omega)
    refine ⟨out', by rw [slideLoop, slideStep_eq hr_ ht (by omega)]; exact h, fun x => ?_⟩
    rw [hout]
    by_cases hx : x = t
    · subst hx
      rw [if_neg (by omega)]
      by_cases h0 : 0 ≤ x
      · rw [if_pos h0, Function.update_same, if_pos ⟨h0, le_rfl, by omega⟩]
      · rw [if_neg h0, if_neg (by omega)]
    · have hx' : (if t ≥ 0 then Function.update out t (boxPixel f n hr t.toNat) else out) x =
          out x := by
        split_ifs <;> simp [Function.update_noteq hx]
      rw [hx']
      exact if_congr (by omega) rfl rfl

/-- A whole line: the box pixel at each of its positions. -/
theorem slideLine_spec (hr_ : ReadsLine f n hr readOld readNew) (out : Int → Nat) :
    ∃ out', slideLine n hr readOld readNew out = some out' ∧
      ∀ x, out' x = if 0 ≤ x ∧ x < n then boxPixel f n hr x.toNat else out x := by
  obtain ⟨out', h, hout⟩ := slideLoop_spec hr_ (n + hr) (-hr) out (by omega) le_rfl
  refine ⟨out', ?_, fun x => by rw [hout]; congr 1; apply propext; omega⟩
  rw [slideLine, ← h]
  congr 1
  simp [winAcc]

end Sweep

/-! ## 3. The two passes -/

/-- `for (x = 0; x < w; x++) p[index + x] = out_color[x];` -/
def writeRow (p : Int → Nat) (index : Int) (w : Nat) (out : Int → Nat) : Int → Nat :=
  (List.range w).foldl (fun p (x : Nat) => Function.update p (index + x) (out x)) p

/-- `for (y = 0; y < h; y++) p[y * w + x] = out_color[y];` -/
def writeColumn (p : Int → Nat) (x : Int) (w h : Nat) (out : Int → Nat) : Int → Nat :=
  (List.range h).foldl (fun p (y : Nat) => Function.update p (y * w + x) (out y)) p

/-- The last `k` rows of `_box_blur_horizontal`, from row start `index`, with `out_color`
carried from row to row. -/
def hRows (w h hr : Nat) : Nat → Int → (Int → Nat) → (Int → Nat) → Option (Int → Nat)
  | 0, _, p, _ => some p
  | k + 1, index, p, out =>
    (slideLine w hr (fun x => p (clamp (index + (x - hr - 1)) 0 (w * h - 1)))
        (fun x => p (clamp (index + (x + hr)) 0 (w * h - 1))) out).bind fun out =>
      hRows w h hr k (index + w) (writeRow p index w out) out

/-- The last `k` columns of `_box_blur_vertical`, from column `x`. At iteration `y` the
running `index`, started at `-half_radius * w + x` and moved by `w` per iteration, is
`-half_radius * w + x + (y + half_radius) * w`. -/
def vColumns (w h hr : Nat) : Nat → Int → (Int → Nat) → (Int → Nat) → Option (Int → Nat)
  | 0, _, p, _ => some p
  | k + 1, x, p, out =>
    let oldOffset : Int := -(hr + 1) * w
    let newOffset : Int := hr * w
    let index (y : Int) : Int := -hr * w + x + (y + hr) * w
    (slideLine h hr (fun y => p (clamp (index y + oldOffset) 0 (w * h - 1)))
        (fun y => p (clamp (index y + newOffset) 0 (w * h - 1))) out).bind fun out =>
      vColumns w h hr k (x + 1) (writeColumn p x w h out) out

/-- `_box_blur_horizontal(ctx, radius)`: `out_color` starts zeroed by `calloc`. -/
def boxBlurHorizontal (ctx : Ctx) (radius : Nat) (p : Int → Nat) : Option (Int → Nat) :=
  hRows ctx.width ctx.height (radius / 2) ctx.height 0 p fun _ => 0

/-- `_box_blur_vertical(ctx, radius)`. -/
def boxBlurVertical (ctx : Ctx) (radius : Nat) (p : Int → Nat) : Option (Int → Nat) :=
  vColumns ctx.width ctx.height (radius / 2) ctx.width 0 p fun _ => 0

/-- `blur_context_box(ctx, radius)` on the backbuffer `p`; `none` is a division by zero. -/
def blurContextBox (ctx : Ctx) (radius : Nat) (p : Int → Nat) : Option (Int → Nat) :=
  (boxBlurHorizontal ctx radius p).bind (boxBlurVertical ctx radius)

/-! ## 4. The naive separable blur -/

/-- The backbuffer as an image: pixel `(x, y)` at `y * w + x`. -/
def gridOf (w : Nat) (p : Int → Nat) (x y : Nat) : Nat := p (y * w + x)

/-- Each pixel replaced by the box pixel of its row. -/
def hBlur (w r : Nat) (g : Nat → Nat → Nat) (x y : Nat) : Nat := boxPixel (fun x' => g x' y) w r x

/-- Each pixel replaced by the box pixel of its column. -/
def vBlur (h r : Nat) (g : Nat → Nat → Nat) (x y : Nat) : Nat := boxPixel (fun y' => g x y') h r y

theorem boxPixel_congr {f f' : Nat → Nat} {n r x : Nat} (h : ∀ i < n, f i = f' i) :
    boxPixel f n r x = boxPixel f' n r x := by
  unfold boxPixel
  have hs : ∀ k, ∑ i ∈ Ico (x - r) (min n (x + r + 1)), chan k (f i) =
      ∑ i ∈ Ico (x - r) (min n (x + r + 1)), chan k (f' i) := fun k =>
    sum_congr rfl fun i hi => by rw [h i (by simp at hi; omega)]
  simp only [hs]

/-! ## 5. The passes are the naive blur -/

theorem clamp_of_mem {a l h : Int} (h₁ : l ≤ a) (h₂ : a ≤ h) : clamp a l h = a := by
  unfold clamp; split_ifs <;> omega

/-- Updates at distinct places: the place of each element ends with its value, and every
other place keeps its old one. -/
theorem foldl_update_of_not_mem {α : Type} (idx : α → Int) (v : α → Nat) :
    ∀ (l : List α) (p : Int → Nat) (i : Int), (∀ j ∈ l, idx j ≠ i) →
      l.foldl (fun p j => Function.update p (idx j) (v j)) p i = p i
  | [], _, _, _ => rfl
  | a :: l, p, i, h => by
    rw [List.foldl_cons, foldl_update_of_not_mem idx v l _ i fun j hj => h j (by simp [hj]),
      Function.update_noteq (h a (by simp)).symm]

theorem foldl_update_of_mem {α : Type} (idx : α → Int) (v : α → Nat) :
    ∀ (l : List α) (p : Int → Nat) (j : α), j ∈ l → l.Nodup →
      (∀ a ∈ l, idx a = idx j → a = j) →
      l.foldl (fun p j => Function.update p (idx j) (v j)) p (idx j) = v j
  | [], _, _, hj, _, _ => absurd hj (List.not_mem_nil _)
  | a :: l, p, j, hj, hnd, hinj => by
    rw [List.foldl_cons]
    rw [List.nodup_cons] at hnd
    by_cases haj : a = j
    · subst haj
      rw [foldl_update_of_not_mem idx v l _ _ fun b hb he => hnd.1 (hinj b (by simp [hb]) he ▸ hb),
        Function.update_same]
    · exact foldl_update_of_mem idx v l _ j ((List.mem_cons.1 hj).resolve_left (Ne.symm haj))
        hnd.2 fun b hb => hinj b (by simp [hb])

theorem writeRow_apply (p : Int → Nat) (index : Int) (w : Nat) (out : Int → Nat) (i : Int) :
    writeRow p index w out i = if index ≤ i ∧ i < index + w then out (i - index) else p i := by
  unfold writeRow
  split_ifs with h
  · obtain ⟨x, rfl⟩ : ∃ x : Nat, i = index + x := ⟨(i - index).toNat, by omega⟩
    rw [foldl_update_of_mem (fun x : Nat => index + x) (fun x => out x) _ p x
      (List.mem_range.2 (by omega)) (List.nodup_range w) fun a _ he => by simp only at he; omega]
    congr 1; omega
  · exact foldl_update_of_not_mem _ _ _ p i fun x hx he => h ⟨by omega, by
      simp only [List.mem_range] at hx; omega⟩

theorem writeColumn_apply (p : Int → Nat) (x : Int) (w h : Nat) (hw : 0 < w) (out : Int → Nat)
    (i : Int) : writeColumn p x w h out i =
      if ∃ y < h, i = y * w + x then out ((i - x) / w) else p i := by
  unfold writeColumn
  split_ifs with hi
  · obtain ⟨y, hy, rfl⟩ := hi
    rw [foldl_update_of_mem (fun y : Nat => (y : Int) * w + x) (fun y => out y) _ p y
      (List.mem_range.2 hy) (List.nodup_range h) fun a _ he => by
        have : (a : Int) * w = y * w := by simp only at he; omega
        exact_mod_cast Int.eq_of_mul_eq_mul_right (by omega) this]
    congr 1
    rw [add_sub_cancel_right, Int.mul_ediv_cancel _ (by omega)]
  · exact foldl_update_of_not_mem _ _ _ p i fun y hy he =>
      hi ⟨y, List.mem_range.1 hy, he.symm⟩

/-- A row of a `w × h` buffer ends inside it. -/
theorem row_end_le {w h y : Nat} (hy : y < h) : (y : Int) * w + w ≤ w * h := by
  have : y * w + w ≤ w * h :=
    calc y * w + w = (y + 1) * w := (Nat.succ_mul y w).symm
      _ ≤ h * w := Nat.mul_le_mul_right w hy
      _ = w * h := Nat.mul_comm h w
  exact_mod_cast this

/-- The cells of a `w × h` buffer lie in `[0, w * h)`. -/
theorem cell_lt {w h x y : Nat} (hx : x < w) (hy : y < h) : (y : Int) * w + x < w * h := by
  have := @row_end_le w h y hy
  omega

/-- A cell has one row and one column. -/
theorem cell_inj {w j y x x' : Nat} (hx : x < w) (hx' : x' < w)
    (h : (j : Int) * w + x' = y * w + x) : j = y ∧ x' = x := by
  have h' : j * w + x' = y * w + x := by exact_mod_cast h
  have hm : x' = x := by
    have := congrArg (· % w) h'
    simp only [Nat.mul_comm _ w, Nat.mul_add_mod, Nat.mod_eq_of_lt hx, Nat.mod_eq_of_lt hx'] at this
    exact this
  exact ⟨Nat.eq_of_mul_eq_mul_right (by omega : 0 < w) (by omega), hm⟩

/-- The rows of the horizontal pass from row `y` on: each becomes its row's box blur of the
buffer as it was, and nothing outside them changes. -/
theorem hRows_spec (w h hr : Nat) (p0 : Int → Nat) :
    ∀ (k y : Nat) (index : Int) (p out : Int → Nat), y + k = h → index = y * w →
      (∀ i, i < 0 ∨ index ≤ i → p i = p0 i) →
      ∃ p', hRows w h hr k index p out = some p' ∧
        (∀ x < w, ∀ y', y ≤ y' → y' < h → gridOf w p' x y' = hBlur w hr (gridOf w p0) x y') ∧
        ∀ i, ¬ (index ≤ i ∧ i < w * h) → p' i = p i
  | 0, y, index, p, out, hk, _, _ => ⟨p, rfl, fun _ _ y' h₁ h₂ => by omega, fun _ _ => rfl⟩
  | k + 1, y, index, p, out, hk, hi, hp => by
    have hyw : (0 : Int) ≤ y * w := by positivity
    have hreads : ReadsLine (fun x' => gridOf w p0 x' y) w hr
        (fun x => p (clamp (index + (x - hr - 1)) 0 (w * h - 1)))
        (fun x => p (clamp (index + (x + hr)) 0 (w * h - 1))) := by
      have key : ∀ j : Int, 0 ≤ j → j < w →
          p (clamp (index + j) 0 (w * h - 1)) = gridOf w p0 j.toNat y := by
        intro j h₀ h₁
        have := @cell_lt w h j.toNat y (by omega) (by omega)
        rw [clamp_of_mem (by subst hi; positivity) (by subst hi; omega), hp _ (.inr (by omega)),
          gridOf, hi, Int.toNat_of_nonneg h₀]
      exact ⟨fun t h₀ h₁ => key _ h₀ h₁, fun t h₀ h₁ => key _ h₀ h₁⟩
    obtain ⟨out', hout, hout'⟩ := slideLine_spec hreads out
    obtain ⟨p', hp', hrows, hrest⟩ := hRows_spec w h hr p0 k (y + 1) (index + w)
      (writeRow p index w out') out' (by omega) (by rw [hi]; push_cast; ring) fun i hi' => by
        rw [writeRow_apply, if_neg (by omega)]; exact hp i (by omega)
    refine ⟨p', by rw [hRows, hout]; exact hp', fun x hx y' h₁ h₂ => ?_, fun i hi' => ?_⟩
    · rcases Nat.lt_or_ge y y' with hy | hy
      · exact hrows x hx y' hy h₂
      · obtain rfl : y = y' := by omega
        have := @cell_lt w h x y hx h₂
        rw [gridOf, hrest _ (by rw [hi]; omega), writeRow_apply, if_pos (by rw [hi]; omega),
          hout', if_pos (by rw [hi]; omega)]
        simp only [hi, add_sub_cancel_left, Int.toNat_natCast]
        rfl
    · have := @row_end_le w h y (by omega)
      rw [hrest _ (by omega), writeRow_apply, if_neg (by omega)]

/-- The columns of the vertical pass from column `x` on: each becomes its column's box blur
of the buffer as it was, and nothing outside them changes. -/
theorem vColumns_spec (w h hr : Nat) (p1 : Int → Nat) :
    ∀ (k x : Nat) (q out : Int → Nat), x + k = w →
      (∀ j x' : Nat, j < h → x ≤ x' → x' < w → q (j * w + x') = p1 (j * w + x')) →
      ∃ q', vColumns w h hr k x q out = some q' ∧
        (∀ x', x ≤ x' → x' < w → ∀ y < h, gridOf w q' x' y = vBlur h hr (gridOf w p1) x' y) ∧
        ∀ i : Int, (∀ x' y : Nat, x ≤ x' → x' < w → y < h → i ≠ y * w + x') → q' i = q i
  | 0, x, q, out, hk, _ => ⟨q, rfl, fun _ h₁ h₂ => by omega, fun _ _ => rfl⟩
  | k + 1, x, q, out, hk, hq => by
    have hw : 0 < w := by omega
    have key : ∀ j : Int, 0 ≤ j → j < h →
        q (clamp (j * w + x) 0 (w * h - 1)) = gridOf w p1 x j.toNat := by
      intro j h₀ h₁
      have := @cell_lt w h x j.toNat (by omega) (by omega)
      have hj : j = (j.toNat : Int) := (Int.toNat_of_nonneg h₀).symm
      rw [hj, clamp_of_mem (by positivity) (by omega), hq _ _ (by omega) le_rfl (by omega)]
      rfl
    have hreads : ReadsLine (fun y => gridOf w p1 x y) h hr
        (fun y => q (clamp (-hr * w + x + (y + hr) * w + -(hr + 1) * w) 0 (w * h - 1)))
        (fun y => q (clamp (-hr * w + x + (y + hr) * w + hr * w) 0 (w * h - 1))) := by
      refine ⟨fun t h₀ h₁ => ?_, fun t h₀ h₁ => ?_⟩
      · show q _ = _
        rw [show -(hr : Int) * w + x + (t + hr) * w + -(hr + 1) * w = (t - hr - 1) * w + x by ring]
        exact key _ h₀ h₁
      · show q _ = _
        rw [show -(hr : Int) * w + x + (t + hr) * w + hr * w = (t + hr) * w + x by ring]
        exact key _ h₀ h₁
    obtain ⟨out', hout, hout'⟩ := slideLine_spec hreads out
    obtain ⟨q', hq', hcols, hrest⟩ := vColumns_spec w h hr p1 k (x + 1)
      (writeColumn q x w h out') out' (by omega) fun j x' hj h₁ h₂ => by
        rw [writeColumn_apply q x w h hw, if_neg, hq j x' hj (by omega) h₂]
        rintro ⟨y, -, he⟩
        have := (cell_inj (show x < w by omega) h₂ he).2
        omega
    refine ⟨q', by rw [vColumns]; exact (congrArg (Option.bind · _) hout).trans hq',
      fun x' h₁ h₂ y hy => ?_, fun i hi => ?_⟩
    · rcases Nat.lt_or_ge x x' with hx | hx
      · exact hcols x' hx h₂ y hy
      · obtain rfl : x = x' := by omega
        rw [gridOf, hrest _ fun x'' y' h₃ h₄ h₅ he => by
            have := (cell_inj h₄ (by omega) he).2
            omega,
          writeColumn_apply q x w h hw, if_pos ⟨y, hy, rfl⟩, add_sub_cancel_right,
          Int.mul_ediv_cancel _ (by omega), hout', if_pos ⟨by positivity, by omega⟩,
          Int.toNat_natCast]
        rfl
    · rw [hrest _ fun x' y h₁ h₂ h₃ => hi x' y (by omega) h₂ h₃, writeColumn_apply q x w h hw,
        if_neg fun ⟨y, hy, he⟩ => hi x y le_rfl (by omega) hy he]

/-! ## 6. The two passes are the separable box blur -/

/-- For every context, radius and backbuffer, `blur_context_box` ends without a division
by zero, leaves each pixel of the `w × h` image the vertical box blur of the horizontal box
blur of the image, both with half-width `radius / 2` and floor averages, and changes
nothing outside the image. -/
theorem blur_context_box_eq (ctx : Ctx) (radius : Nat) (p : Int → Nat) :
    ∃ p', blurContextBox ctx radius p = some p' ∧
      (∀ x < ctx.width, ∀ y < ctx.height, gridOf ctx.width p' x y =
        vBlur ctx.height (radius / 2) (hBlur ctx.width (radius / 2) (gridOf ctx.width p)) x y) ∧
      ∀ i : Int, (i < 0 ∨ ctx.width * ctx.height ≤ i) → p' i = p i := by
  obtain ⟨p1, h1, hrows, hrest1⟩ := hRows_spec ctx.width ctx.height (radius / 2) p ctx.height 0 0
    p (fun _ => 0) (Nat.zero_add _) (by simp) fun _ _ => rfl
  obtain ⟨p2, h2, hcols, hrest2⟩ := vColumns_spec ctx.width ctx.height (radius / 2) p1 ctx.width 0
    p1 (fun _ => 0) (Nat.zero_add _) fun _ _ _ _ _ => rfl
  refine ⟨p2, by rw [blurContextBox, boxBlurHorizontal, h1, Option.some_bind]; exact h2,
    fun x hx y hy => ?_, fun i hi => ?_⟩
  · rw [hcols x (Nat.zero_le x) hx y hy]
    exact boxPixel_congr fun y' hy' => hrows x hx y' (Nat.zero_le y') hy'
  · have houtside : ∀ x' y : Nat, x' < ctx.width → y < ctx.height → i ≠ y * ctx.width + x' :=
      fun x' y hx' hy he => by
        have : (0 : Int) ≤ y * ctx.width := by positivity
        have := cell_lt hx' hy
        omega
    rw [hrest2 i fun x' y _ => houtside x' y, hrest1 i (by omega)]

end Graphics
end Toaru
