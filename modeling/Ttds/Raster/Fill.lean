import Ttds.Raster.Loop
import Mathlib.Data.List.ProdSigma
import Mathlib.Data.List.Nodup

/-!
# `rendering_fill`

`rendering_fill` walks the canvas column by column with two `uint16_t` counters:

```c
for (uint16_t x = 0; x < c->width; x++)
	for (uint16_t y = 0; y < c->height; y++)
		draw_point(c, x, y, color);
```

A `uint16_t` width is at most `65535`, so `x < c->width` fails before `x++` can wrap, and
the loops visit `range width ×ˢ range height` (`fillPoints_eq`): every pixel once.

**The law** (`rendering_fill_bgra`): on a canvas from `canvas_init_bgra`, whatever the new
allocation held, the fill stays inside the buffer and leaves byte `k` equal to byte `k % 4`
of `B, G, R, 0xFF`, for every `k` below `width * height * 4`.
-/

namespace Ttds

/-- The `draw_point` calls of `rendering_fill`, column by column. -/
def fillPoints (c : Canvas) : Option (List Point) :=
  (countUp (fun x => x < c.width) 0).bind <| forEach fun x =>
    (countUp (fun y => y < c.height) 0).map (List.map (Prod.mk x))

/-- `rendering_fill`. -/
def renderingFill (c : Canvas) (color : Color) : Option Canvas :=
  (fillPoints c).bind (paint color c)

/-- The fill visits every pixel, column by column. -/
theorem fillPoints_eq (c : Canvas) :
    fillPoints c = some (List.range c.width ×ˢ List.range c.height) := by
  have hcols := @countUp_eq (fun x => x < c.width) c.width 0
    (by simp) c.width.isLt (by norm_num)
  have hrows := @countUp_eq (fun y => y < c.height) c.height 0
    (by simp) c.height.isLt (by norm_num)
  rw [Nat.sub_zero, ← List.range_eq_range'] at hcols hrows
  rw [fillPoints, hcols, Option.some_bind]
  exact forEach_of_forall fun x _ => by rw [hrows]; rfl

theorem mem_fillPoints {c : Canvas} {p : Point} :
    p ∈ List.range c.width ×ˢ List.range c.height ↔ p.1 < c.width ∧ p.2 < c.height := by
  obtain ⟨x, y⟩ := p
  simp only [List.mem_product, List.mem_range]

/-- On a canvas whose stride is four, pixel `p` covers byte `k` exactly when `p` is the
`k / 4`-th pixel in row-major order. -/
theorem covers_iff_of_stride {c : Canvas} (hs : (c.stride : Nat) = 4) {p : Point} {k : Nat} :
    c.Covers p k ↔ p.2 * c.width + p.1 = k / 4 := by
  simp only [Canvas.Covers, Canvas.offset, hs]
  omega

/-- `rendering_fill` on a canvas shaped as `canvas_init_bgra` shapes it: it stays inside the
buffer and writes the colour's bytes over the whole of `canvas_buffer_size`. -/
theorem renderingFill_of_bgra {c : Canvas} (hs : (c.stride : Nat) = 4)
    (ha : c.allocated = canvasBufferSize c) (color : Color) :
    ∃ c', renderingFill c color = some c' ∧
      ∀ k < canvasBufferSize c, c'.buffer k = color.bgra.getD (k % 4) 0 := by
  have fits : ∀ p ∈ List.range c.width ×ˢ List.range c.height,
      c.offset p.1 p.2 + 4 ≤ c.allocated := fun p hp =>
    c.offset_fits_of_bgra hs ha (mem_fillPoints.mp hp).1 (mem_fillPoints.mp hp).2
  obtain ⟨c', hc'⟩ := Option.isSome_iff_exists.mp (paint_isSome_iff.mpr fits)
  refine ⟨c', by rw [renderingFill, fillPoints_eq, Option.some_bind, hc'], fun k hk => ?_⟩
  have hw : 0 < (c.width : Nat) := Nat.pos_of_ne_zero fun h => by
    simp only [canvasBufferSize, h, Nat.zero_mul] at hk; omega
  have hpix : k / 4 < c.width * c.height := by
    simp only [canvasBufferSize, hs] at hk; omega
  refine paint_buffer_of_covers hc' ⟨(k / 4 % c.width, k / 4 / c.width), ?_, ?_⟩ ?_
  · refine mem_fillPoints.mpr ⟨Nat.mod_lt _ hw, ?_⟩
    exact Nat.div_lt_of_lt_mul hpix
  · rw [covers_iff_of_stride hs, Nat.mul_comm]
    exact Nat.div_add_mod (k / 4) c.width
  · intro p _ hcov
    have hp := (covers_iff_of_stride hs).mp hcov
    simp only [Canvas.offset, hs, hp]
    congr 1
    omega

/-- `rendering_fill` on a canvas from `canvas_init_bgra(width, height)`, for every size a
`uint16_t` allows, every colour and whatever the allocation held: its loops reach every
pixel exactly once, and every byte of the buffer ends as byte `k % 4` of `B, G, R, 0xFF`. -/
theorem rendering_fill_bgra (width height : Fin (2 ^ 16)) (fresh : Nat → UInt8)
    (color : Color) :
    ∃ c, canvasInitBgra width height (some fresh) = some c ∧
      (∃ ps, fillPoints c = some ps ∧ ps.Nodup ∧ ∀ p, p ∈ ps ↔ p.1 < width ∧ p.2 < height) ∧
      ∃ c', renderingFill c color = some c' ∧
        ∀ k < (width : Nat) * height * 4, c'.buffer k = color.bgra.getD (k % 4) 0 := by
  obtain ⟨c, hc⟩ : ∃ c, canvasInitBgra width height (some fresh) = some c := ⟨_, rfl⟩
  obtain ⟨rfl, rfl, hs, ha⟩ := canvasInitBgra_eq_some hc
  refine ⟨c, hc, ⟨_, fillPoints_eq c, (List.nodup_range _).product (List.nodup_range _),
    fun p => mem_fillPoints⟩, ?_⟩
  obtain ⟨c', hfill, hbytes⟩ := renderingFill_of_bgra hs ha color
  exact ⟨c', hfill, fun k hk => hbytes k (by rwa [canvasBufferSize, hs])⟩

end Ttds
