import Ttds.Raster.Fill

/-!
# `rendering_draw_rect`

```c
uint16_t right_edge = rect->x + rect->w;
uint16_t bottom_edge = rect->y + rect->h;
for (uint16_t y = rect->y; y < bottom_edge && y < bottom_edge; y++)
	for (uint16_t x = rect->x; x < right_edge && x < c->width; x++)
		draw_point(c, x, y, color);
```

Both edges are `uint16_t` sums, so they wrap past `65535`, and the row loop tests its bottom
edge twice where the column loop tests the canvas width. `rectPoints_eq` says exactly what
the loops visit: row by row, the rows `[y, (y + h) mod 2^16)` and in each the columns
`[x, min((x + w) mod 2^16, width))`, each pixel once (`rect_points_exact`). On a canvas from
`canvas_init_bgra` the rectangle stays inside the buffer exactly when none of those rows lies
below the canvas, and then it colours exactly the visited pixels (`draw_rect_bgra`).

Rows past the canvas's height are therefore drawn: on a one-pixel canvas the rectangle
`(0, 0, 1, 2)` calls `draw_point` on row `1` and stores past the end of the buffer
(`draw_rect_below_canvas`).
-/

namespace Ttds

/-- `struct rect`, without its colour: `rendering_draw_rect` takes the colour apart. -/
structure Rect where
  x : Fin (2 ^ 16)
  y : Fin (2 ^ 16)
  w : Fin (2 ^ 16)
  h : Fin (2 ^ 16)

/-- The `draw_point` calls of `rendering_draw_rect`, row by row. -/
def rectPoints (c : Canvas) (rect : Rect) : Option (List Point) :=
  let rightEdge := add16 rect.x rect.w
  let bottomEdge := add16 rect.y rect.h
  (countUp (fun y => y < bottomEdge && y < bottomEdge) rect.y).bind <| forEach fun y =>
    (countUp (fun x => x < rightEdge && x < c.width) rect.x).map (List.map (·, y))

/-- `rendering_draw_rect`. -/
def renderingDrawRect (c : Canvas) (rect : Rect) (color : Color) : Option Canvas :=
  (rectPoints c rect).bind (paint color c)

/-- The rows and, in each row, the columns the loops visit. -/
theorem rectPoints_eq (c : Canvas) (rect : Rect) :
    rectPoints c rect =
      some ((List.range' rect.y (add16 rect.y rect.h - rect.y)).flatMap fun y =>
        (List.range' rect.x (min (add16 rect.x rect.w) c.width - rect.x)).map (·, y)) := by
  have hedge : ∀ a b : Nat, add16 a b < 2 ^ 16 := fun a b => Nat.mod_lt _ (by norm_num)
  have hrows := @countUp_eq (fun y => y < add16 rect.y rect.h && y < add16 rect.y rect.h)
    (add16 rect.y rect.h) rect.y
    (by simp) (hedge _ _) rect.y.isLt
  have hcols := @countUp_eq (fun x => x < add16 rect.x rect.w && x < c.width)
    (min (add16 rect.x rect.w) c.width) rect.x
    (by simp [Nat.lt_min]) (by omega) rect.x.isLt
  rw [rectPoints, hrows, Option.some_bind]
  exact forEach_of_forall fun y _ => by rw [hcols]; rfl

/-- Row by row, top to bottom and each row left to right, the loops visit exactly the pixels
between the truncated edges that lie left of the canvas's width, each once, on any canvas and
for any rectangle. -/
theorem rect_points_exact (c : Canvas) (rect : Rect) :
    ∃ ps, rectPoints c rect = some ps ∧
      ps = ((List.range' rect.y (add16 rect.y rect.h - rect.y)).flatMap fun y =>
        (List.range' rect.x (min (add16 rect.x rect.w) c.width - rect.x)).map (·, y)) ∧
      ps.Nodup ∧
      ∀ px py : Nat, (px, py) ∈ ps ↔
        ((rect.x : Nat) ≤ px ∧ px < ((rect.x : Nat) + rect.w) % 2 ^ 16 ∧ px < c.width) ∧
          ((rect.y : Nat) ≤ py ∧ py < ((rect.y : Nat) + rect.h) % 2 ^ 16) := by
  refine ⟨_, rectPoints_eq c rect, rfl, ?_, fun px py => ?_⟩
  · refine List.nodup_flatMap.mpr ⟨fun y _ => (List.nodup_range' _ _).map fun a b h => ?_, ?_⟩
    · exact (Prod.mk.inj h).1
    · refine (List.nodup_range' _ _).pairwise_of_forall_ne fun y _ y' _ hne => ?_
      simp only [List.disjoint_left, List.mem_map, not_exists, not_and]
      rintro _ ⟨a, -, rfl⟩ b - hb
      exact hne (Prod.mk.inj hb).2.symm
  · simp only [List.mem_flatMap, List.mem_map, List.mem_range', Prod.mk.injEq, add16,
      Nat.lt_min]
    constructor
    · rintro ⟨y, ⟨i, hi, rfl⟩, a, ⟨j, hj, rfl⟩, rfl, rfl⟩
      omega
    · rintro ⟨⟨h1, h2, h3⟩, h4, h5⟩
      exact ⟨py, ⟨py - rect.y, by omega, by omega⟩, px, ⟨px - rect.x, by omega, by omega⟩,
        rfl, rfl⟩

/-- On a one-pixel canvas from `canvas_init_bgra`, the rectangle `(0, 0, 1, 2)` makes
`rendering_draw_rect` call `draw_point` on row `1`, below the canvas, and so store past the
end of its four-byte buffer, whatever the buffer held and whatever the colour. -/
theorem draw_rect_below_canvas :
    ∀ (fresh : Nat → UInt8) (color : Color), ∃ c,
      canvasInitBgra 1 1 (some fresh) = some c ∧
        rectPoints c ⟨0, 0, 1, 2⟩ = some [(0, 0), (0, 1)] ∧
        renderingDrawRect c ⟨0, 0, 1, 2⟩ color = none := fun fresh color =>
  ⟨_, rfl, by rw [rectPoints_eq]; rfl, by rw [renderingDrawRect, rectPoints_eq]; rfl⟩

/-! ## The rectangle on a `canvas_init_bgra` canvas -/

/-- The pixels the loops of `rendering_draw_rect` visit: between the truncated edges, left of
the canvas's width. -/
def Rect.Visits (rect : Rect) (c : Canvas) (px py : Nat) : Prop :=
  ((rect.x : Nat) ≤ px ∧ px < ((rect.x : Nat) + rect.w) % 2 ^ 16 ∧ px < c.width) ∧
    ((rect.y : Nat) ≤ py ∧ py < ((rect.y : Nat) + rect.h) % 2 ^ 16)

theorem mem_rectPoints {c : Canvas} {rect : Rect} {px py : Nat} :
    (px, py) ∈ ((List.range' rect.y (add16 rect.y rect.h - rect.y)).flatMap fun y =>
        (List.range' rect.x (min (add16 rect.x rect.w) c.width - rect.x)).map (·, y)) ↔
      rect.Visits c px py := by
  simp only [Rect.Visits, List.mem_flatMap, List.mem_map, List.mem_range'_1, Prod.mk.injEq, add16]
  generalize ((rect.x : Nat) + rect.w) % 2 ^ 16 = right
  generalize ((rect.y : Nat) + rect.h) % 2 ^ 16 = bottom
  constructor
  · rintro ⟨y, hy, a, ha, rfl, rfl⟩
    omega
  · intro h
    exact ⟨py, by omega, px, by omega, rfl, rfl⟩

/-- On a canvas shaped as `canvas_init_bgra` shapes it, a pixel left of the width fits in the
buffer exactly when it lies above the last row. -/
theorem Canvas.offset_fits_iff_of_bgra {c : Canvas} (hs : (c.stride : Nat) = 4)
    (ha : c.allocated = canvasBufferSize c) {x y : Nat} (hx : x < c.width) :
    c.offset x y + 4 ≤ c.allocated ↔ y < c.height := by
  refine ⟨fun hfit => ?_, c.offset_fits_of_bgra hs ha hx⟩
  by_contra hy
  have hrow : (c.height : Nat) * c.width ≤ y * c.width := Nat.mul_le_mul_right _ (not_lt.mp hy)
  rw [ha, canvasBufferSize, Canvas.offset, hs] at hfit
  have : (c.width : Nat) * c.height = c.height * c.width := Nat.mul_comm _ _
  omega

/-- Pixel `(x, y)` of a row `w` wide is pixel number `k` exactly when `x` and `y` are the
remainder and quotient of `k` by `w`. -/
theorem pixel_index_iff {w x y k : Nat} (hx : x < w) : y * w + x = k ↔ x = k % w ∧ y = k / w := by
  rw [and_comm, eq_comm (a := y), eq_comm (a := x), Nat.div_mod_unique (by omega), Nat.mul_comm]
  exact ⟨fun h => ⟨h ▸ Nat.add_comm _ _, hx⟩, fun h => h.1 ▸ Nat.add_comm _ _⟩

/-- On a canvas shaped as `canvas_init_bgra` shapes it, `rendering_draw_rect` stays inside the
buffer exactly when every pixel its loops visit lies above the canvas's last row. When it does,
it keeps the canvas's shape, stores the colour's bytes in every visited pixel, and leaves every
other byte as it was. -/
theorem draw_rect_bgra {c : Canvas} (hs : (c.stride : Nat) = 4)
    (ha : c.allocated = canvasBufferSize c) (rect : Rect) (color : Color) :
    ((renderingDrawRect c rect color).isSome ↔ ∀ px py, rect.Visits c px py → py < c.height) ∧
    ∀ c', renderingDrawRect c rect color = some c' →
      (c'.width = c.width ∧ c'.height = c.height ∧ c'.stride = c.stride ∧
        c'.allocated = c.allocated) ∧
      ∀ k, (rect.Visits c (k / 4 % c.width) (k / 4 / c.width) →
          c'.buffer k = color.bgra.getD (k % 4) 0) ∧
        (¬rect.Visits c (k / 4 % c.width) (k / 4 / c.width) → c'.buffer k = c.buffer k) := by
  rw [renderingDrawRect, rectPoints_eq, Option.some_bind]
  refine ⟨?_, fun c' h => ⟨paint_shape h, fun k => ⟨fun hv => ?_, fun hv => ?_⟩⟩⟩
  · rw [paint_isSome_iff]
    refine ⟨fun hfit px py hv => ?_, fun hrows p hp => ?_⟩
    · exact (c.offset_fits_iff_of_bgra hs ha hv.1.2.2).mp (hfit (px, py) (mem_rectPoints.mpr hv))
    · have hv := mem_rectPoints.mp hp
      exact (c.offset_fits_iff_of_bgra hs ha hv.1.2.2).mpr (hrows _ _ hv)
  · refine paint_buffer_of_covers h ⟨_, mem_rectPoints.mpr hv, ?_⟩ fun p hp hcov => ?_
    · exact (covers_iff_of_stride hs).mpr
        ((pixel_index_iff hv.1.2.2).mpr ⟨rfl, rfl⟩)
    · have hk := (covers_iff_of_stride hs).mp hcov
      simp only [Canvas.Covers, Canvas.offset, hs] at hcov ⊢
      rw [hk]
      congr 1
      omega
  · refine paint_buffer_of_not_covers h fun p hp hcov => hv ?_
    have hp := mem_rectPoints.mp hp
    obtain ⟨hx, hy⟩ := (pixel_index_iff hp.1.2.2).mp ((covers_iff_of_stride hs).mp hcov)
    rwa [← hx, ← hy]

/-- A one-column rectangle two rows high on a two-by-two canvas. -/
theorem draw_rect_bgra_two_by_two :
    ((4 : Nat) = 4 ∧ (16 : Nat) = canvasBufferSize ⟨2, 2, 4, 16, fun _ => 0⟩) ∧
      (((renderingDrawRect ⟨2, 2, 4, 16, fun _ => 0⟩ ⟨1, 0, 1, 2⟩ ⟨9, 8, 7⟩).isSome ↔
          ∀ px py, Rect.Visits ⟨1, 0, 1, 2⟩ ⟨2, 2, 4, 16, fun _ => 0⟩ px py → py < 2) ∧
        ∀ c', renderingDrawRect ⟨2, 2, 4, 16, fun _ => 0⟩ ⟨1, 0, 1, 2⟩ ⟨9, 8, 7⟩ = some c' →
          (c'.width = 2 ∧ c'.height = 2 ∧ c'.stride = 4 ∧ c'.allocated = 16) ∧
          ∀ k, (Rect.Visits ⟨1, 0, 1, 2⟩ ⟨2, 2, 4, 16, fun _ => 0⟩ (k / 4 % 2) (k / 4 / 2) →
              c'.buffer k = (Color.bgra ⟨9, 8, 7⟩).getD (k % 4) 0) ∧
            (¬Rect.Visits ⟨1, 0, 1, 2⟩ ⟨2, 2, 4, 16, fun _ => 0⟩ (k / 4 % 2) (k / 4 / 2) →
              c'.buffer k = 0)) :=
  ⟨⟨rfl, rfl⟩, draw_rect_bgra (c := ⟨2, 2, 4, 16, fun _ => 0⟩) rfl rfl _ _⟩

end Ttds
