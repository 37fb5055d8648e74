import Mathlib.Data.List.Basic
import Mathlib.Data.Fin.Basic
import Mathlib.Tactic.Ring

/-!
# Canvases and `draw_point`

A `struct canvas` is an owned pixel buffer: `uint16_t width, height`, a `uint32_t stride`
and `uint8_t *buffer`. Every rasterizer primitive lowers to `draw_point`, which stores the
four bytes `B, G, R, 0xFF` at byte `(y * width + x) * stride` and checks nothing. This module
fixes the memory model the rest of the development uses.

The buffer is a function from byte index to byte, together with the length of the
allocation it points into (`Canvas.allocated`), which the C does not store. A store that
does not lie inside the allocation is undefined behaviour in C; `drawPoint` answers `none`
there, so that a proof that a primitive answers `some` is a proof that it stays inside its
buffer.

**The stride.** The field has two readings. `canvas_init_bgra` stores the bytes of one
pixel (4) and allocates `width * height * 4`; `drm_canvas_init` stores the dumb buffer's
row pitch. `draw_point` multiplies a pixel index by it, which is the first reading.
`Canvas.offset_disjoint` holds for either reading; staying inside the buffer
(`Canvas.offset_fits_of_bgra`) holds for the first.

Machine values keep the C widths: the `uint16_t` and `uint32_t` fields are `Fin (2 ^ 16)`
and `Fin (2 ^ 32)`, and every computation on them is on `Nat`, with `% 2 ^ 16` written out
where the C truncates.
-/

namespace Ttds

/-- `struct color`. Alpha is always `0xFF`. -/
structure Color where
  r : UInt8
  g : UInt8
  b : UInt8
  deriving DecidableEq, Repr

/-- The four bytes `draw_point` stores for a colour: the colour space is little endian,
hence BGRA. -/
def Color.bgra (color : Color) : List UInt8 := [color.b, color.g, color.r, 0xFF]

@[simp] theorem Color.length_bgra (color : Color) : color.bgra.length = 4 := rfl

/-- A pixel as the rasterizer passes it to `draw_point`: column, then row. -/
abbrev Point := Nat × Nat

/-- `struct canvas`, with the length of the allocation `buffer` points into. -/
structure Canvas where
  width : Fin (2 ^ 16)
  height : Fin (2 ^ 16)
  stride : Fin (2 ^ 32)
  allocated : Nat
  buffer : Nat → UInt8

/-- `canvas_buffer_size`: `width * height * stride`, in 64 bits, where it cannot wrap. -/
def canvasBufferSize (c : Canvas) : Nat := c.width * c.height * c.stride

/-- `canvas_init_bgra`. `fresh` is what `malloc` returned: `none` for `NULL`, otherwise the
bytes the new allocation holds, which nothing has written yet. -/
def canvasInitBgra (width height : Fin (2 ^ 16)) (fresh : Option (Nat → UInt8)) :
    Option Canvas :=
  fresh.map fun buf =>
    { width, height, stride := 4, allocated := (width : Nat) * height * 4, buffer := buf }

theorem canvasInitBgra_eq_some {width height : Fin (2 ^ 16)} {fresh : Option (Nat → UInt8)}
    {c : Canvas} (h : canvasInitBgra width height fresh = some c) :
    c.width = width ∧ c.height = height ∧ (c.stride : Nat) = 4 ∧
      c.allocated = canvasBufferSize c := by
  obtain ⟨buf, -, rfl⟩ := Option.map_eq_some'.mp h
  exact ⟨rfl, rfl, rfl, rfl⟩

/-! ## `draw_point` -/

/-- `memcpy(&buf[off], bytes, length)` on the byte function. -/
def writeBytes (buf : Nat → UInt8) (off : Nat) (bytes : List UInt8) : Nat → UInt8 :=
  fun k => if off ≤ k ∧ k < off + bytes.length then bytes.getD (k - off) 0 else buf k

/-- The byte index `draw_point` computes for pixel `(x, y)`:
`((size_t)y * width + x) * stride`, which fits a 64-bit `size_t`. -/
def Canvas.offset (c : Canvas) (x y : Nat) : Nat := (y * c.width + x) * c.stride

/-- `draw_point`: the four bytes of `color` at `c.offset x y`; `none` when they do not lie
inside the allocation, where the C writes them all the same. -/
def drawPoint (c : Canvas) (x y : Nat) (color : Color) : Option Canvas :=
  if c.offset x y + 4 ≤ c.allocated then
    some { c with buffer := writeBytes c.buffer (c.offset x y) color.bgra }
  else none

/-- A run of `draw_point` calls, in order. -/
def paint (color : Color) : Canvas → List Point → Option Canvas
  | c, [] => some c
  | c, p :: ps => (drawPoint c p.1 p.2 color).bind fun c' => paint color c' ps

variable {c c' : Canvas} {color : Color}

theorem drawPoint_eq_some {x y : Nat} (h : drawPoint c x y color = some c') :
    c.offset x y + 4 ≤ c.allocated ∧
      c' = { c with buffer := writeBytes c.buffer (c.offset x y) color.bgra } := by
  unfold drawPoint at h
  split at h
  · exact ⟨‹_›, (Option.some.inj h).symm⟩
  · cases h

/-- `draw_point` leaves everything but the bytes alone. -/
theorem drawPoint_shape {x y : Nat} (h : drawPoint c x y color = some c') :
    c'.width = c.width ∧ c'.height = c.height ∧ c'.stride = c.stride ∧
      c'.allocated = c.allocated := by
  obtain ⟨-, rfl⟩ := drawPoint_eq_some h
  exact ⟨rfl, rfl, rfl, rfl⟩

theorem paint_cons {p : Point} {ps : List Point} :
    paint color c (p :: ps) = (drawPoint c p.1 p.2 color).bind fun c' => paint color c' ps :=
  rfl

theorem paint_shape {ps : List Point} (h : paint color c ps = some c') :
    c'.width = c.width ∧ c'.height = c.height ∧ c'.stride = c.stride ∧
      c'.allocated = c.allocated := by
  induction ps generalizing c with
  | nil => cases h; exact ⟨rfl, rfl, rfl, rfl⟩
  | cons p ps ih =>
    obtain ⟨d, hd, hrest⟩ := Option.bind_eq_some.mp h
    obtain ⟨h1, h2, h3, h4⟩ := drawPoint_shape hd
    obtain ⟨k1, k2, k3, k4⟩ := ih hrest
    exact ⟨k1.trans h1, k2.trans h2, k3.trans h3, k4.trans h4⟩

/-- The offset of a pixel reads only the canvas's width and stride. -/
theorem Canvas.offset_congr {d : Canvas} (hw : d.width = c.width) (hs : d.stride = c.stride)
    (x y : Nat) : d.offset x y = c.offset x y := by
  simp only [Canvas.offset, hw, hs]

/-- A run of `draw_point` calls stays inside the buffer exactly when each call does. -/
theorem paint_isSome_iff {ps : List Point} :
    (paint color c ps).isSome ↔ ∀ p ∈ ps, c.offset p.1 p.2 + 4 ≤ c.allocated := by
  induction ps generalizing c with
  | nil => simp [paint]
  | cons p ps ih =>
    rw [paint_cons]
    by_cases hp : c.offset p.1 p.2 + 4 ≤ c.allocated
    · have hd : drawPoint c p.1 p.2 color =
          some { c with buffer := writeBytes c.buffer (c.offset p.1 p.2) color.bgra } := by
        simp only [drawPoint, if_pos hp]
      rw [hd, Option.some_bind, ih]
      simp only [List.mem_cons, forall_eq_or_imp, hp, true_and]
      rfl
    · simp only [drawPoint, if_neg hp, Option.none_bind, Option.isSome_none, Bool.false_eq_true,
        false_iff, not_forall]
      exact ⟨p, List.mem_cons_self _ _, hp⟩

/-- Pixel `p` covers byte `k` when `draw_point` for `p` stores `k`. -/
def Canvas.Covers (c : Canvas) (p : Point) (k : Nat) : Prop :=
  c.offset p.1 p.2 ≤ k ∧ k < c.offset p.1 p.2 + 4

/-- Frame: a byte that no call covers keeps its old value. -/
theorem paint_buffer_of_not_covers {ps : List Point} {k : Nat}
    (h : paint color c ps = some c') (hk : ∀ p ∈ ps, ¬ c.Covers p k) :
    c'.buffer k = c.buffer k := by
  induction ps generalizing c with
  | nil => cases h; rfl
  | cons p ps ih =>
    obtain ⟨d, hd, hrest⟩ := Option.bind_eq_some.mp h
    obtain ⟨h1, -, h3, -⟩ := drawPoint_shape hd
    have hk' : ∀ q ∈ ps, ¬ d.Covers q k := by
      intro q hq
      simpa only [Canvas.Covers, Canvas.offset_congr h1 h3] using hk q (List.mem_cons_of_mem _ hq)
    rw [ih hrest hk', (drawPoint_eq_some hd).2]
    simp only [writeBytes, Color.length_bgra]
    exact if_neg (hk p (List.mem_cons_self _ _))

/-- A byte that some call covers holds what the calls covering it store, when they all
store the same value `v` there. -/
theorem paint_buffer_of_covers {ps : List Point} {k : Nat} {v : UInt8}
    (h : paint color c ps = some c') (hcov : ∃ p ∈ ps, c.Covers p k)
    (hv : ∀ p ∈ ps, c.Covers p k → color.bgra.getD (k - c.offset p.1 p.2) 0 = v) :
    c'.buffer k = v := by
  induction ps generalizing c with
  | nil => simp at hcov
  | cons p ps ih =>
    obtain ⟨d, hd, hrest⟩ := Option.bind_eq_some.mp h
    obtain ⟨h1, -, h3, -⟩ := drawPoint_shape hd
    have hoff : ∀ q : Point, d.offset q.1 q.2 = c.offset q.1 q.2 := fun q =>
      Canvas.offset_congr h1 h3 _ _
    by_cases hrestcov : ∃ q ∈ ps, c.Covers q k
    · refine ih hrest ?_ ?_
      · obtain ⟨q, hq, hc⟩ := hrestcov
        exact ⟨q, hq, by simpa only [Canvas.Covers, hoff] using hc⟩
      · intro q hq hc
        rw [hoff]
        exact hv q (List.mem_cons_of_mem _ hq) (by simpa only [Canvas.Covers, hoff] using hc)
    · have hp : c.Covers p k := by
        obtain ⟨q, hq, hc⟩ := hcov
        rcases List.mem_cons.mp hq with rfl | hq
        · exact hc
        · exact absurd ⟨q, hq, hc⟩ hrestcov
      have hnot : ∀ q ∈ ps, ¬ d.Covers q k := fun q hq hc =>
        hrestcov ⟨q, hq, by simpa only [Canvas.Covers, hoff] using hc⟩
      rw [paint_buffer_of_not_covers hrest hnot, (drawPoint_eq_some hd).2]
      simp only [writeBytes, Color.length_bgra]
      exact (if_pos hp).trans (hv p (List.mem_cons_self _ _) hp)

/-! ## Where `draw_point` stores -/

/-- Row-major pixel indices are injective on the columns of a row. -/
theorem pixel_index_inj {w x y x' y' : Nat} (hx : x < w) (hx' : x' < w)
    (h : y * w + x = y' * w + x') : y = y' ∧ x = x' := by
  have below : ∀ {a b : Nat}, a < b → a * w + w ≤ b * w := fun hab => by
    simpa only [Nat.succ_mul] using Nat.mul_le_mul_right w hab
  rcases Nat.lt_trichotomy y y' with hy | rfl | hy
  · have := below hy; omega
  · omega
  · have := below hy; omega

/-- Pixels of one canvas get disjoint four-byte ranges whenever the stride is at least four,
whichever reading of the stride the canvas was built with. -/
theorem Canvas.offset_disjoint (c : Canvas) (hs : 4 ≤ (c.stride : Nat)) {x y x' y' : Nat}
    (hx : x < c.width) (hx' : x' < c.width) (hne : (x, y) ≠ (x', y')) :
    c.offset x y + 4 ≤ c.offset x' y' ∨ c.offset x' y' + 4 ≤ c.offset x y := by
  have hpix : y * c.width + x ≠ y' * c.width + x' := fun heq => by
    obtain ⟨rfl, rfl⟩ := pixel_index_inj hx hx' heq
    exact hne rfl
  have step : ∀ p q : Nat, p < q → p * c.stride + 4 ≤ q * c.stride := fun p q hpq =>
    calc p * c.stride + 4 ≤ p * c.stride + c.stride := by omega
      _ = (p + 1) * c.stride := by ring
      _ ≤ q * c.stride := Nat.mul_le_mul_right _ hpq
  rcases Nat.lt_or_gt_of_ne hpix with hlt | hlt
  · exact .inl (step _ _ hlt)
  · exact .inr (step _ _ hlt)

/-- On a canvas whose stride is the four bytes of one pixel and whose allocation is
`canvas_buffer_size`, every pixel's bytes lie inside the allocation. -/
theorem Canvas.offset_fits_of_bgra (c : Canvas) (hs : (c.stride : Nat) = 4)
    (ha : c.allocated = canvasBufferSize c) {x y : Nat} (hx : x < c.width)
    (hy : y < c.height) : c.offset x y + 4 ≤ c.allocated := by
  rw [ha, canvasBufferSize, Canvas.offset, hs]
  calc (y * c.width + x) * 4 + 4 = (y * c.width + (x + 1)) * 4 := by ring
    _ ≤ (y * c.width + c.width) * 4 := by omega
    _ = (y + 1) * c.width * 4 := by ring
    _ ≤ c.height * c.width * 4 := Nat.mul_le_mul_right _ (Nat.mul_le_mul_right _ hy)
    _ = c.width * c.height * 4 := by ring

end Ttds
