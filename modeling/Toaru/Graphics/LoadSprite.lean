import Toaru.Graphics.Blend
import Mathlib.Logic.Function.Iterate

/-!
# `load_sprite`: reading a BMP file

`load_sprite(sprite, filename)` (`unixpipe.c`) reads the whole file into
`bufferb = malloc(image_size)`, takes the header words through
`bufferi = (signed int *)(bufferb + 2)` (width `bufferi[4]`, height `bufferi[5]`, bits per
pixel `bufferi[6] / 0x10000`, pixel offset `bufferi[2]`), allocates
`sizeof(uint32_t) * width * height` bytes for the bitmap, and copies the pixels row by row,
bottom row first. The target is 32-bit: `size_t` and pointers are 32 bits, so index
arithmetic wraps at `2^32`; the counters `x` and `y` are `uint16_t` and wrap at `2^16`.

Nothing checks the file against its header. The header is read before anything else,
whatever `image_size` is; the only test in the loops is `i > image_size` on the start of
the current row, which lets every pixel of a row starting at or before the end of the file
be read; and the bitmap's size is computed in 32 bits. So an empty file is read at byte 18
(`load_sprite_reads_past_empty_file`). The loops compare 16-bit counters with 32-bit
bounds, so a height of `2^16` or more with an empty row, or a width of `2^16` or more on a
row inside the file, never lets them end (`load_sprite_diverges`); below `2^16` they always
end (`load_sprite_terminates`).

The two loops are modelled as one machine, `loadStep`, whose program counter is the loop
test the code is at; a run is its iteration, and it records every access to `bufferb` and
to the bitmap, in order.
-/

set_option autoImplicit false

namespace Toaru
namespace Graphics

/-! ## 1. The header -/

/-- The little-endian 32-bit word at bytes `k .. k + 3`. -/
def le32 (buf : Nat → UInt8) (k : Nat) : Nat :=
  (buf k).toNat + (buf (k + 1)).toNat * 2 ^ 8 + (buf (k + 2)).toNat * 2 ^ 16 +
    (buf (k + 3)).toNat * 2 ^ 24

/-- `bufferi[k]` as a 32-bit pattern: the word at byte `2 + 4 * k`. -/
def bufferi (buf : Nat → UInt8) (k : Nat) : Nat := le32 buf (2 + 4 * k)

/-- The value of a `signed int` with the given 32-bit pattern. -/
def toInt32 (w : Nat) : Int := if w < 2 ^ 31 then w else (w : Int) - 2 ^ 32

/-- The values `load_sprite` computes from the header before its loops. -/
structure Header where
  width : Nat
  height : Nat
  bpp : Nat
  rowWidth : Nat
  offset : Nat
  deriving DecidableEq, Repr

/-- `uint32_t width = bufferi[4]; uint32_t height = bufferi[5];
uint16_t bpp = bufferi[6] / 0x10000; uint32_t row_width = (bpp * width + 31) / 32 * 4;
size_t i = bufferi[2];`. The division of `bpp` is the signed one, which truncates. -/
def readHeader (buf : Nat → UInt8) : Header :=
  let width := bufferi buf 4
  let height := bufferi buf 5
  let bpp := ((toInt32 (bufferi buf 6)).tdiv 0x10000 % 2 ^ 16).toNat
  { width, height, bpp
    rowWidth := (bpp * width % 2 ^ 32 + 31) % 2 ^ 32 / 32 * 4
    offset := bufferi buf 2 }

/-- `sizeof(uint32_t) * width * height` in the 32-bit `size_t`. -/
def Header.allocBytes (hdr : Header) : Nat := 4 * hdr.width % 2 ^ 32 * hdr.height % 2 ^ 32

/-! ## 2. The accesses -/

/-- An access of `load_sprite`: a read of `bufferb[k]`, the bitmap's `malloc`, or
`sprite->bitmap[k] = color`. -/
inductive Access
  | read (k : Nat)
  | alloc (bytes : Nat)
  | write (k : Nat) (color : Nat)
  deriving DecidableEq, Repr

/-- The four byte reads of `bufferi[k]`. -/
def wordReads (k : Nat) : List Access := (List.range 4).map fun j => .read (2 + 4 * k + j)

/-- `premultiply(color)`. -/
def premultiply (color : Nat) : Nat :=
  let a := alp color
  rgba (red color * a / 255) (gre color * a / 255) (blu color * a / 255) a

/-- The body of the column loop at `(x, y)` with row start `i`: its reads of `bufferb`,
at `i + k` in the 32-bit `size_t`, and its write to the bitmap at
`(height - y - 1) * width + x`, in 32 bits. `rgb(0, 0, 0)` is opaque black. -/
def pixelAccesses (hdr : Header) (buf : Nat → UInt8) (y i x : Nat) : List Access :=
  let idx (k : Nat) : Nat := (i + k) % 2 ^ 32
  let byte (k : Nat) : Nat := (buf (idx k)).toNat
  let dst := ((hdr.height + 2 ^ 32 - y - 1) % 2 ^ 32 * hdr.width % 2 ^ 32 + x) % 2 ^ 32
  if hdr.bpp = 24 then
    [.read (idx (3 * x)), .read (idx (1 + 3 * x)), .read (idx (2 + 3 * x)),
      .write dst ((byte (3 * x) + byte (1 + 3 * x) * 0x100 + byte (2 + 3 * x) * 0x10000 +
        0xFF000000) % 2 ^ 32)]
  else if hdr.bpp = 32 then
    if byte (4 * x) = 0 then [.read (idx (4 * x)), .write dst 0]
    else
      [.read (idx (4 * x)), .read (idx (4 * x)), .read (idx (1 + 4 * x)), .read (idx (2 + 4 * x)),
        .read (idx (3 + 4 * x)),
        .write dst (premultiply ((byte (4 * x) * 0x1000000 + byte (1 + 4 * x) +
          byte (2 + 4 * x) * 0x100 + byte (3 + 4 * x) * 0x10000) % 2 ^ 32))]
  else [.write dst 0xFF000000]

/-! ## 3. The loops -/

/-- Where the loops are: at the row test `y < height`, at the column test `x < width`, or
past `_cleanup_sprite`. -/
inductive Pc
  | rowTest
  | colTest
  | done
  deriving DecidableEq, Repr

/-- The loop state: the program point, `y`, `x`, `i`, and the accesses so far. -/
structure LoadState where
  pc : Pc
  y : Nat
  x : Nat
  i : Nat
  log : List Access

/-- One step of the loops. At the row test: enter the row with `x = 0`, or leave. At the
column test: `goto _cleanup_sprite` when `i > image_size`, else run the body and `++x`; past
the row's end, `i += row_width; ++y`. -/
def loadStep (hdr : Header) (imageSize : Nat) (buf : Nat → UInt8) (s : LoadState) :
    LoadState :=
  match s.pc with
  | .rowTest => if s.y < hdr.height then { s with pc := .colTest, x := 0 } else { s with pc := .done }
  | .colTest =>
    if s.x < hdr.width then
      if s.i > imageSize then { s with pc := .done }
      else { s with x := (s.x + 1) % 2 ^ 16, log := s.log ++ pixelAccesses hdr buf s.y s.i s.x }
    else { s with pc := .rowTest, y := (s.y + 1) % 2 ^ 16, i := (s.i + hdr.rowWidth) % 2 ^ 32 }
  | .done => s

/-- The state before the loops: the header's reads and the bitmap's `malloc` are done. -/
def loadStart (buf : Nat → UInt8) : LoadState :=
  ⟨.rowTest, 0, 0, (readHeader buf).offset,
    wordReads 4 ++ wordReads 5 ++ wordReads 6 ++ wordReads 2 ++
      [.alloc (readHeader buf).allocBytes]⟩

/-- `load_sprite` on a file of `imageSize` bytes held in `buf` (the bytes past the file are
whatever follows `bufferb` in memory), after `n` steps of its loops. -/
def loadSprite (imageSize : Nat) (buf : Nat → UInt8) (n : Nat) : LoadState :=
  (loadStep (readHeader buf) imageSize buf)^[n] (loadStart buf)

/-! ## 4. Reads and writes outside the buffers -/

/-- One access stays inside its buffer: a read of `bufferb[k]` inside the `image_size`
bytes of the file, a write of the `uint32_t` at `sprite->bitmap[k]` inside the
`allocBytes` bytes `malloc` gave the bitmap. -/
def Access.Inside (imageSize allocBytes : Nat) : Access → Prop
  | .read k => k < imageSize
  | .alloc _ => True
  | .write k _ => 4 * k + 4 ≤ allocBytes

/-- The loops only append to the accesses. -/
theorem loadStep_log (hdr : Header) (imageSize : Nat) (buf : Nat → UInt8) (s : LoadState) :
    ∃ l, (loadStep hdr imageSize buf s).log = s.log ++ l := by
  unfold loadStep
  split <;> (try split_ifs) <;> first | exact ⟨[], (List.append_nil _).symm⟩ | exact ⟨_, rfl⟩

theorem loadSprite_log (imageSize : Nat) (buf : Nat → UInt8) :
    ∀ n, ∃ l, (loadSprite imageSize buf n).log = (loadStart buf).log ++ l
  | 0 => ⟨[], (List.append_nil _).symm⟩
  | n + 1 => by
    obtain ⟨l, hl⟩ := loadSprite_log imageSize buf n
    obtain ⟨l', hl'⟩ := loadStep_log (readHeader buf) imageSize buf (loadSprite imageSize buf n)
    refine ⟨l ++ l', ?_⟩
    rw [loadSprite, Function.iterate_succ_apply', ← loadSprite, hl', hl, List.append_assoc]

theorem load_sprite_reads_past_empty_file (buf : Nat → UInt8) (n : Nat) :
    ∃ a ∈ (loadSprite 0 buf n).log, ¬ a.Inside 0 (readHeader buf).allocBytes := by
  obtain ⟨l, hl⟩ := loadSprite_log 0 buf n
  exact ⟨.read 18, by rw [hl]; simp [loadStart, wordReads], by simp [Access.Inside]⟩

/-! ## 5. When the loops end -/

section Loops

variable (hdr : Header) (imageSize : Nat) (buf : Nat → UInt8)

/-- What one step of the loops can do from `s`, with its guard. -/
inductive LoadMove (s : LoadState) : LoadState → Prop
  | enter : s.pc = .rowTest → s.y < hdr.height → LoadMove s { s with pc := .colTest, x := 0 }
  | leave : s.pc = .rowTest → ¬ s.y < hdr.height → LoadMove s { s with pc := .done }
  | cleanup : s.pc = .colTest → s.x < hdr.width → s.i > imageSize →
      LoadMove s { s with pc := .done }
  | pixel : s.pc = .colTest → s.x < hdr.width → ¬ s.i > imageSize →
      LoadMove s { s with x := (s.x + 1) % 2 ^ 16,
                          log := s.log ++ pixelAccesses hdr buf s.y s.i s.x }
  | nextRow : s.pc = .colTest → ¬ s.x < hdr.width →
      LoadMove s { s with pc := .rowTest, y := (s.y + 1) % 2 ^ 16,
                          i := (s.i + hdr.rowWidth) % 2 ^ 32 }
  | stay : s.pc = .done → LoadMove s s

theorem loadStep_move (s : LoadState) :
    LoadMove hdr imageSize buf s (loadStep hdr imageSize buf s) := by
  unfold loadStep
  split
  · split_ifs with h
    · exact .enter ‹_› h
    · exact .leave ‹_› h
  · split_ifs with h h'
    · exact .cleanup ‹_› h h'
    · exact .pixel ‹_› h h'
    · exact .nextRow ‹_› h
  · exact .stay ‹_›

variable {hdr imageSize buf}

/-- A header with an empty row and `2^16` rows or more: the row test never fails, and each
row ends at once. -/
theorem LoadMove.empty_rows {s s' : LoadState} (hm : LoadMove hdr imageSize buf s s')
    (hw : hdr.width = 0) (hh : 2 ^ 16 ≤ hdr.height) (hs : s.pc ≠ .done ∧ s.y < 2 ^ 16) :
    s'.pc ≠ .done ∧ s'.y < 2 ^ 16 := by
  cases hm with
  | enter _ _ => exact ⟨nofun, hs.2⟩
  | leave _ hy => omega
  | cleanup _ hx _ => omega
  | pixel _ hx _ => omega
  | nextRow _ _ => exact ⟨nofun, Nat.mod_lt _ (by norm_num)⟩
  | stay hd => exact absurd hd hs.1

/-- A header with `2^16` columns or more and a first row inside the file: the column test
never fails, and neither does `i <= image_size`. -/
theorem LoadMove.wide_row {s s' : LoadState} (hm : LoadMove hdr imageSize buf s s')
    (hw : 2 ^ 16 ≤ hdr.width) (hh : 0 < hdr.height) (hi : hdr.offset ≤ imageSize)
    (hs : (s.pc = .rowTest ∧ s.y = 0 ∨ s.pc = .colTest ∧ s.x < 2 ^ 16) ∧ s.i = hdr.offset) :
    (s'.pc = .rowTest ∧ s'.y = 0 ∨ s'.pc = .colTest ∧ s'.x < 2 ^ 16) ∧ s'.i = hdr.offset := by
  obtain ⟨hpc | hpc, hio⟩ := hs
  · cases hm with
    | enter _ _ => exact ⟨.inr ⟨rfl, by norm_num⟩, hio⟩
    | leave _ hy => omega
    | cleanup h _ _ | pixel h _ _ | nextRow h _ | stay h => simp [hpc.1] at h
  · cases hm with
    | enter h _ | leave h _ | stay h => simp [hpc.1] at h
    | cleanup _ _ h => omega
    | pixel _ _ _ => exact ⟨.inr ⟨hpc.1, Nat.mod_lt _ (by norm_num)⟩, hio⟩
    | nextRow _ hx => omega

variable (hdr)

/-- Steps left before `_cleanup_sprite`, counting each row as its columns and two tests. -/
def loadMeasure (s : LoadState) : Nat :=
  match s.pc with
  | .rowTest => (hdr.height - s.y) * (hdr.width + 2) + 1
  | .colTest => (hdr.height - s.y - 1) * (hdr.width + 2) + (hdr.width - s.x) + 2
  | .done => 0

/-- Where the counters are while the loops run: never past their bounds. -/
def LoadInv (s : LoadState) : Prop :=
  (s.pc = .rowTest → s.y ≤ hdr.height) ∧ (s.pc = .colTest → s.y < hdr.height ∧ s.x ≤ hdr.width)

theorem loadMeasure_pos {s : LoadState} (hd : s.pc ≠ .done) : 0 < loadMeasure hdr s := by
  unfold loadMeasure
  split
  · omega
  · omega
  · contradiction

variable {hdr}

/-- Below `2^16` the counters never wrap, and every step before the end brings it closer. -/
theorem LoadMove.measure_lt {s s' : LoadState} (hm : LoadMove hdr imageSize buf s s')
    (hw : hdr.width < 2 ^ 16) (hh : hdr.height < 2 ^ 16) (hs : LoadInv hdr s)
    (hd : s.pc ≠ .done) : LoadInv hdr s' ∧ loadMeasure hdr s' < loadMeasure hdr s := by
  obtain ⟨hr, hc⟩ := hs
  cases hm with
  | enter hpc hy =>
    have : (hdr.height - s.y) * (hdr.width + 2) =
        (hdr.height - s.y - 1) * (hdr.width + 2) + (hdr.width + 2) := by
      rw [← Nat.succ_mul]; congr 1; omega
    simp only [LoadInv, loadMeasure, hpc, reduceCtorEq, false_implies, true_implies, true_and, and_true]
    omega
  | leave hpc _ => simp [LoadInv, loadMeasure, hpc]
  | cleanup hpc _ _ => simp [LoadInv, loadMeasure, hpc]
  | pixel hpc hx _ =>
    have := hc hpc
    simp only [LoadInv, loadMeasure, hpc, reduceCtorEq, false_implies, true_implies, true_and, and_true,
      Nat.mod_eq_of_lt (show s.x + 1 < 2 ^ 16 by omega)]
    omega
  | nextRow hpc hx =>
    have := hc hpc
    simp only [LoadInv, loadMeasure, hpc, reduceCtorEq, false_implies, true_implies, true_and, and_true,
      Nat.mod_eq_of_lt (show s.y + 1 < 2 ^ 16 by omega), Nat.sub_sub]
    omega
  | stay hpc => exact absurd hpc hd

end Loops

theorem load_sprite_diverges (imageSize : Nat) (buf : Nat → UInt8)
    (h : (readHeader buf).width = 0 ∧ 2 ^ 16 ≤ (readHeader buf).height ∨
      2 ^ 16 ≤ (readHeader buf).width ∧ 0 < (readHeader buf).height ∧
        (readHeader buf).offset ≤ imageSize) (n : Nat) :
    (loadSprite imageSize buf n).pc ≠ .done := by
  rcases h with ⟨hw, hh⟩ | ⟨hw, hh, hi⟩
  · exact (@Function.Iterate.rec _ (fun s : LoadState => s.pc ≠ .done ∧ s.y < 2 ^ 16) _
      (fun s hs => (loadStep_move _ imageSize buf s).empty_rows hw hh hs) (loadStart buf)
      ⟨nofun, by norm_num [loadStart]⟩ n).1
  · have h := @Function.Iterate.rec _
      (fun s : LoadState => (s.pc = .rowTest ∧ s.y = 0 ∨ s.pc = .colTest ∧ s.x < 2 ^ 16) ∧
        s.i = (readHeader buf).offset) _
      (fun s hs => (loadStep_move _ imageSize buf s).wide_row hw hh hi hs) (loadStart buf)
      ⟨.inl ⟨rfl, rfl⟩, rfl⟩ n
    rcases h.1 with ⟨h, -⟩ | ⟨h, -⟩ <;> intro hd <;> exact Pc.noConfusion (h.symm.trans hd)

/-- A 30-byte header, `BM`, pixel offset 30, width 0, height 65 536, 24 bits per pixel. -/
def tallHeader : Nat → UInt8
  | 0 => 0x42
  | 1 => 0x4D
  | 10 => 30
  | 24 => 1
  | 26 => 1
  | 28 => 24
  | _ => 0

theorem load_sprite_diverges_tall :
    ((readHeader tallHeader).width = 0 ∧ 2 ^ 16 ≤ (readHeader tallHeader).height ∨
      2 ^ 16 ≤ (readHeader tallHeader).width ∧ 0 < (readHeader tallHeader).height ∧
        (readHeader tallHeader).offset ≤ 30) ∧
      ∀ n, (loadSprite 30 tallHeader n).pc ≠ .done :=
  have h : (readHeader tallHeader).width = 0 ∧ 2 ^ 16 ≤ (readHeader tallHeader).height ∨
      2 ^ 16 ≤ (readHeader tallHeader).width ∧ 0 < (readHeader tallHeader).height ∧
        (readHeader tallHeader).offset ≤ 30 := .inl ⟨by decide, by decide⟩
  ⟨h, load_sprite_diverges 30 tallHeader h⟩

theorem load_sprite_terminates (imageSize : Nat) (buf : Nat → UInt8)
    (hw : (readHeader buf).width < 2 ^ 16) (hh : (readHeader buf).height < 2 ^ 16) :
    ∃ n, (loadSprite imageSize buf n).pc = .done := by
  suffices ∀ (k : Nat) (s : LoadState), LoadInv (readHeader buf) s →
      loadMeasure (readHeader buf) s ≤ k →
      ∃ n, ((loadStep (readHeader buf) imageSize buf)^[n] s).pc = .done from
    this _ _ ⟨fun _ => Nat.zero_le _, nofun⟩ le_rfl
  intro k
  induction k with
  | zero =>
    intro s _ hk
    by_cases hd : s.pc = .done
    · exact ⟨0, hd⟩
    · exact absurd (loadMeasure_pos (readHeader buf) hd) (by omega)
  | succ k ih =>
    intro s hs hk
    by_cases hd : s.pc = .done
    · exact ⟨0, hd⟩
    · obtain ⟨hs', hlt⟩ := (loadStep_move _ imageSize buf s).measure_lt hw hh hs hd
      obtain ⟨n, hn⟩ := ih _ hs' (by omega)
      exact ⟨n + 1, by rw [Function.iterate_succ_apply]; exact hn⟩

/-- A 34-byte file: the header of a 1 × 1 picture at 24 bits per pixel, and its one row,
a red pixel padded to four bytes. -/
def dotBmp : Nat → UInt8
  | 0 => 0x42
  | 1 => 0x4D
  | 10 => 30
  | 18 => 1
  | 22 => 1
  | 26 => 1
  | 28 => 24
  | 32 => 0xFF
  | _ => 0

theorem load_sprite_terminates_dot :
    ((readHeader dotBmp).width < 2 ^ 16 ∧ (readHeader dotBmp).height < 2 ^ 16) ∧
      ∃ n, (loadSprite 34 dotBmp n).pc = .done :=
  have h : (readHeader dotBmp).width < 2 ^ 16 ∧ (readHeader dotBmp).height < 2 ^ 16 :=
    ⟨by decide, by decide⟩
  ⟨h, load_sprite_terminates 34 dotBmp h.1 h.2⟩

example : (loadSprite 34 dotBmp 4).pc = .done ∧
    (loadSprite 34 dotBmp 4).log.getLast? = some (.write 0 0xFFFF0000) := by decide

end Graphics
end Toaru
