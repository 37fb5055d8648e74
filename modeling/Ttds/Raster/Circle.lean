import Ttds.Raster.Loop
import Mathlib.Algebra.Order.Ring.Abs
import Mathlib.Tactic.LinearCombination
import Mathlib.Tactic.Linarith

/-!
# `rendering_draw_circle`

The midpoint loop keeps `uint16_t x = r, y = 0` and an `int32_t` decision accumulator
`t1 = r / 16`. At each test of `x >= y` that passes it draws eight horizontal spans, the four
of half-width `x` on the rows `cy ± y` and the four of half-width `y` on the rows `cy ± x`,
then runs `y++; t1 += y; t2 = t1 - x; if (t2 >= 0) { t1 = t2; x--; }`. The spans walk their
`uint16_t` counter towards the centre column, down with `eff_x >= cx` or up with
`eff_x < cx`.

**The loop invariant** (`MidpointInv`). At every test, for a radius `r ≥ 1`: `x ≤ r`,
`0 ≤ t1`, `t1 ≤ x` while the test passes, and the energy identity
`x² + x + y² + y + 2⌊r/16⌋ = r² + r + 2·t1`, which `t1 ≤ x` turns into
`x² + y² < (r + 1)²` (`MidpointInv.sq_lt`). The identity also keeps `y` far below `65535`
and `x` at least one, so neither counter wraps, and `x + 1 - y` falls at every pass, so the
loop stops within `r + 1` passes (`midpointStates_spec`). `midpoint_loop_run` gathers what a
whole run does: it starts at `(r, 0)`, each pass raises `y` by one and lowers `x` by at most
one, and every state the body runs at lies between the circles of radius `r - 1` and `r + 1`
(`MidpointInv.sq_ge`, `MidpointInv.sq_lt`). The invariant keeps `t1` between `0` and `x`, so
the `int32_t` sums `t1 + y` and `t1 - x` stay far from overflow.

**The law** (`circle_shape_of_radius_pos`). For a circle of radius at least one lying fully
on the canvas, the loop stops and the pixels it hands to `draw_point` lie strictly inside the
disc of radius `r + 1`, on the canvas, symmetric about both axes through the centre, and
every row within `r` of the centre is one run of columns through the centre column. From the
inside they cover the closed disc of radius `r - 1` (`circle_covers_inner_disc`), so the drawn
pixels lie between the two discs.

**What fails** (`draw_circle_runaway`). A centre in column `0` turns the test `eff_x >= cx`
into `eff_x >= 0`, which an unsigned counter always passes: the first span never stops. A
radius of `0` runs the body at `x = y = 0`, whose `x--` wraps `x` to `65535`
(`midpoint_radius_zero_wraps`); the loop then goes on, drawing spans whose `uint16_t` rows and
columns wrap around the centre.
-/

namespace Ttds

/-- `struct circle`, without its colour: `rendering_draw_circle` takes the colour apart. -/
structure Circle where
  x : Fin (2 ^ 16)
  y : Fin (2 ^ 16)
  r : Fin (2 ^ 16)

/-- The locals the midpoint loop carries: `uint16_t x, y` and `int32_t t1`. -/
structure MidpointState where
  x : Nat
  y : Nat
  t1 : Int
  deriving DecidableEq, Repr

/-- `x = r`, `y = 0`, `t1 = r / 16`. -/
def MidpointState.init (r : Nat) : MidpointState := ⟨r, 0, (r / 16 : Nat)⟩

/-- The tail of the loop body: `y++; t1 = t1 + y; int32_t t2 = t1 - x;
if (t2 >= 0) { t1 = t2; x--; }`. -/
def midpointStep (s : MidpointState) : MidpointState :=
  let y := add16 s.y 1
  let t1 := s.t1 + y
  let t2 := t1 - s.x
  if 0 ≤ t2 then ⟨sub16 s.x 1, y, t2⟩ else ⟨s.x, y, t1⟩

/-- `while (x >= y)`: the states at which the eight spans are drawn. -/
def midpointStates (r : Nat) : Option (List MidpointState) :=
  loopStates (fun s => s.y ≤ s.x) midpointStep loopFuel (.init r)

/-- `for (uint16_t eff_x = cx + a; eff_x >= cx; eff_x--) draw_point(c, eff_x, row, color);` -/
def spanDown (cx a row : Nat) : Option (List Point) :=
  (countDown (fun e => cx ≤ e) (add16 cx a)).map (List.map (·, row))

/-- `for (uint16_t eff_x = cx - a; eff_x < cx; eff_x++) draw_point(c, eff_x, row, color);` -/
def spanUp (cx a row : Nat) : Option (List Point) :=
  (countUp (fun e => e < cx) (sub16 cx a)).map (List.map (·, row))

/-- The eight spans of one pass through the loop body, in the order the C draws them. -/
def circleSpans (circle : Circle) (x y : Nat) : Option (List Point) := do
  let cx : Nat := circle.x
  let cy : Nat := circle.y
  let s1 ← spanDown cx x (add16 cy y)
  let s2 ← spanDown cx x (sub16 cy y)
  let s3 ← spanUp cx x (sub16 cy y)
  let s4 ← spanUp cx x (add16 cy y)
  let s5 ← spanDown cx y (add16 cy x)
  let s6 ← spanDown cx y (sub16 cy x)
  let s7 ← spanUp cx y (sub16 cy x)
  let s8 ← spanUp cx y (add16 cy x)
  pure (s1 ++ s2 ++ s3 ++ s4 ++ s5 ++ s6 ++ s7 ++ s8)

/-- The `draw_point` calls of `rendering_draw_circle`. -/
def circlePoints (circle : Circle) : Option (List Point) :=
  (midpointStates circle.r).bind (forEach fun s => circleSpans circle s.x s.y)

/-- `rendering_draw_circle`. -/
def renderingDrawCircle (c : Canvas) (circle : Circle) (color : Color) : Option Canvas :=
  (circlePoints circle).bind (paint color c)

/-! ## The spans -/

theorem spanDown_spec {cx a row : Nat} (hcx : 1 ≤ cx) (hfit : cx + a < 2 ^ 16) :
    ∃ l, spanDown cx a row = some l ∧ ∀ p, p ∈ l ↔ p.2 = row ∧ cx ≤ p.1 ∧ p.1 ≤ cx + a := by
  refine ⟨_, by rw [spanDown, add16_of_lt hfit,
    @countDown_eq _ cx _ (fun i => by simp) hcx hfit]; rfl, fun p => ?_⟩
  simp only [List.mem_map, List.mem_range]
  constructor
  · rintro ⟨_, ⟨k, hk, rfl⟩, rfl⟩
    omega
  · rintro ⟨h2, h1, h1'⟩
    exact ⟨p.1, ⟨cx + a - p.1, by omega, by omega⟩, by rw [← h2]⟩

theorem spanUp_spec {cx a row : Nat} (hcx : cx < 2 ^ 16) (ha : a ≤ cx) :
    ∃ l, spanUp cx a row = some l ∧ ∀ p, p ∈ l ↔ p.2 = row ∧ cx ≤ p.1 + a ∧ p.1 < cx := by
  refine ⟨_, by rw [spanUp, sub16_of_le hcx ha,
    @countUp_eq _ cx _ (fun i => by simp) hcx (by omega)]; rfl, fun p => ?_⟩
  simp only [List.mem_map, List.mem_range']
  constructor
  · rintro ⟨_, ⟨k, hk, rfl⟩, rfl⟩
    omega
  · rintro ⟨h2, h1, h1'⟩
    exact ⟨p.1, ⟨p.1 - (cx - a), by omega, by omega⟩, by rw [← h2]⟩

/-- The first span never stops when the centre is in column `0`. -/
theorem spanDown_zero (a row : Nat) : spanDown 0 a row = none := by
  rw [spanDown, countDown, loopStates_none (fun e => by simp)]
  rfl

/-- The two spans of one row draw the columns `cx - a ..= cx + a` of that row. -/
theorem spanRow_spec {cx a row : Nat} (hcx : 1 ≤ cx) (hfit : cx + a < 2 ^ 16) (ha : a ≤ cx) :
    ∃ ld lu, spanDown cx a row = some ld ∧ spanUp cx a row = some lu ∧
      ∀ p, p ∈ ld ∨ p ∈ lu ↔ p.2 = row ∧ cx ≤ p.1 + a ∧ p.1 ≤ cx + a := by
  obtain ⟨ld, hd, md⟩ := @spanDown_spec _ _ row hcx hfit
  obtain ⟨lu, hu, mu⟩ := @spanUp_spec _ _ row (by omega) ha
  refine ⟨ld, lu, hd, hu, fun p => ?_⟩
  rw [md, mu]
  omega

/-- Pixel `p` lies on the horizontal span of half-width `half` through the centre column, on
the row `off` below or above the centre. -/
def Circle.OnSpan (circle : Circle) (off half : Nat) (p : Point) : Prop :=
  (p.2 = circle.y + off ∨ p.2 = circle.y - off) ∧ (circle.x : Nat) ≤ p.1 + half ∧
    p.1 ≤ circle.x + half

/-- The circle lies fully on the canvas. -/
structure Circle.OnCanvas (circle : Circle) (c : Canvas) : Prop where
  left : (circle.r : Nat) ≤ circle.x
  top : (circle.r : Nat) ≤ circle.y
  right : (circle.x : Nat) + circle.r < c.width
  bottom : (circle.y : Nat) + circle.r < c.height

/-- One pass draws, for a state within the radius, the two spans of half-width `x` on the
rows `cy ± y` and the two of half-width `y` on the rows `cy ± x`. -/
theorem circleSpans_spec {circle : Circle} {c : Canvas} (hon : circle.OnCanvas c)
    (hcx : 1 ≤ (circle.x : Nat)) {x y : Nat} (hx : x ≤ circle.r) (hy : y ≤ circle.r) :
    ∃ l, circleSpans circle x y = some l ∧
      ∀ p, p ∈ l ↔ circle.OnSpan y x p ∨ circle.OnSpan x y p := by
  have hw := c.width.isLt
  have hh := c.height.isLt
  have := hon.left; have := hon.top; have := hon.right; have := hon.bottom
  have rowAdd : ∀ a ≤ (circle.r : Nat), add16 circle.y a = circle.y + a := fun a ha =>
    add16_of_lt (by omega)
  have rowSub : ∀ a ≤ (circle.r : Nat), sub16 circle.y a = circle.y - a := fun a ha =>
    sub16_of_le (by omega) (by omega)
  obtain ⟨l1, l4, h1, h4, m14⟩ :=
    @spanRow_spec _ x (circle.y + y) hcx (by omega) (by omega)
  obtain ⟨l2, l3, h2, h3, m23⟩ :=
    @spanRow_spec _ x (circle.y - y) hcx (by omega) (by omega)
  obtain ⟨l5, l8, h5, h8, m58⟩ :=
    @spanRow_spec _ y (circle.y + x) hcx (by omega) (by omega)
  obtain ⟨l6, l7, h6, h7, m67⟩ :=
    @spanRow_spec _ y (circle.y - x) hcx (by omega) (by omega)
  refine ⟨l1 ++ l2 ++ l3 ++ l4 ++ l5 ++ l6 ++ l7 ++ l8, ?_, fun p => ?_⟩
  · simp only [circleSpans, rowAdd x hx, rowAdd y hy, rowSub x hx, rowSub y hy, h1, h2, h3, h4,
      h5, h6, h7, h8, Option.some_bind]
    rfl
  · simp only [Circle.OnSpan, or_and_right, ← m14, ← m23, ← m58, ← m67, List.mem_append,
      or_assoc, or_left_comm, or_comm]

/-! ## The loop invariant -/

/-- What holds at every test of `x >= y` when the radius is at least one. -/
structure MidpointInv (r : Nat) (s : MidpointState) : Prop where
  x_le : s.x ≤ r
  t1_nonneg : 0 ≤ s.t1
  t1_le : s.y ≤ s.x → s.t1 ≤ s.x
  first : s.y = 0 → s.x = r
  energy : (s.x : Int) * s.x + s.x + s.y * s.y + s.y + 2 * ((r / 16 : Nat) : Int) =
    (r : Int) * r + r + 2 * s.t1

theorem MidpointInv.init (r : Nat) : MidpointInv r (.init r) where
  x_le := le_rfl
  t1_nonneg := Int.natCast_nonneg _
  t1_le _ := by simp only [MidpointState.init]; exact_mod_cast Nat.div_le_self r 16
  first _ := rfl
  energy := by simp only [MidpointState.init]; push_cast; ring

/-- While the test passes, the state lies strictly inside the disc of radius `r + 1`. -/
theorem MidpointInv.sq_lt {r : Nat} {s : MidpointState} (hs : MidpointInv r s)
    (hv : s.y ≤ s.x) : s.x * s.x + s.y * s.y < (r + 1) * (r + 1) := by
  have he := hs.energy
  have ht := hs.t1_le hv
  have hx : (s.x : Int) ≤ r := by exact_mod_cast hs.x_le
  have : ((s.x * s.x + s.y * s.y : Nat) : Int) < ((r + 1) * (r + 1) : Nat) := by
    push_cast
    linarith only [he, ht, hx, Int.natCast_nonneg (r / 16), Int.natCast_nonneg s.y]
  exact_mod_cast this

/-- While the test passes, the state lies on or outside the circle of radius `r - 1`. -/
theorem MidpointInv.sq_ge {r : Nat} {s : MidpointState} (hs : MidpointInv r s) (hv : s.y ≤ s.x)
    (hr : 1 ≤ r) : (r - 1) * (r - 1) ≤ s.x * s.x + s.y * s.y := by
  have he := hs.energy
  have ht := hs.t1_nonneg
  have hq : 2 * ((r / 16 : Nat) : Int) + 1 ≤ r := by omega
  have hx : (s.x : Int) ≤ r := by exact_mod_cast hs.x_le
  have hy : (s.y : Int) ≤ s.x := by exact_mod_cast hv
  have : (((r - 1) * (r - 1) : Nat) : Int) ≤ ((s.x * s.x + s.y * s.y : Nat) : Int) := by
    push_cast [Nat.cast_sub hr]
    linarith only [he, ht, hq, hx, hy]
  exact_mod_cast this

/-- The body's tail when neither counter wraps. -/
theorem midpointStep_eq {s : MidpointState} (hy : s.y + 1 < 2 ^ 16) (hx : 1 ≤ s.x)
    (hx' : s.x < 2 ^ 16) :
    midpointStep s =
      if 0 ≤ s.t1 + (s.y + 1 : Nat) - s.x then ⟨s.x - 1, s.y + 1, s.t1 + (s.y + 1 : Nat) - s.x⟩
      else ⟨s.x, s.y + 1, s.t1 + (s.y + 1 : Nat)⟩ := by
  simp only [midpointStep, add16_of_lt hy, sub16_of_le hx' hx]

/-- One pass through the body from a state that passes the test: `y` rises by one, `x` stays
or falls by one, neither wraps, and the invariant holds at the next test. -/
theorem midpointStep_spec {r : Nat} (hr : 1 ≤ r) (hr' : r < 2 ^ 16) {s : MidpointState}
    (hs : MidpointInv r s) (hv : s.y ≤ s.x) :
    (midpointStep s).y = s.y + 1 ∧ ((midpointStep s).x = s.x ∨ (midpointStep s).x + 1 = s.x) ∧
      MidpointInv r (midpointStep s) := by
  have hsq := hs.sq_lt hv
  have hx := hs.x_le
  have hy : s.y + 1 < 2 ^ 16 := by
    by_contra hwrap
    have h1 : s.y = 65535 := by omega
    have h2 : s.x = 65535 := by omega
    have h3 : r = 65535 := by omega
    rw [h1, h2, h3] at hsq
    norm_num at hsq
  have hx1 : 1 ≤ s.x := by
    rcases Nat.eq_zero_or_pos s.y with h0 | h0
    · rw [hs.first h0]; exact hr
    · omega
  have he := hs.energy
  have ht := hs.t1_le hv
  have ht0 := hs.t1_nonneg
  rw [midpointStep_eq hy hx1 (by omega)]
  split
  · rename_i h2
    refine ⟨rfl, .inr (by dsimp only; omega), ⟨by dsimp only; omega, h2, fun h => ?_,
      fun h => by dsimp only at h; omega, ?_⟩⟩
    · dsimp only at h ⊢; push_cast at h ⊢; omega
    · dsimp only; push_cast [Nat.cast_sub hx1] at he ⊢; linear_combination he
  · rename_i h2
    refine ⟨rfl, .inl rfl, ⟨hx, by dsimp only; push_cast; omega,
      fun _ => by dsimp only; push_cast at h2 ⊢; omega, fun h => by dsimp only at h; omega,
      by dsimp only; push_cast at he ⊢; linear_combination he⟩⟩

/-- A pass through the body keeps the invariant and lowers `x + 1 - y`. -/
theorem midpointStep_falls {r : Nat} (hr : 1 ≤ r) (hr' : r < 2 ^ 16) (s : MidpointState)
    (hs : MidpointInv r s) (hc : decide (s.y ≤ s.x) = true) :
    MidpointInv r (midpointStep s) ∧
      (midpointStep s).x + 1 - (midpointStep s).y < s.x + 1 - s.y := by
  have hv := of_decide_eq_true hc
  obtain ⟨hy, hx, hinv⟩ := midpointStep_spec hr hr' hs hv
  exact ⟨hinv, by omega⟩

/-- For a radius of at least one the loop stops, and every state the body runs at keeps the
invariant. -/
theorem midpointStates_spec {r : Nat} (hr : 1 ≤ r) (hr' : r < 2 ^ 16) :
    ∃ sts, midpointStates r = some sts ∧ ∀ s ∈ sts, MidpointInv r s ∧ s.y ≤ s.x := by
  obtain ⟨sts, h, hall⟩ := loopStates_some (fun s : MidpointState => s.x + 1 - s.y)
    (midpointStep_falls hr hr') loopFuel (.init r) (.init r)
    (by simp only [MidpointState.init, loopFuel]; omega)
  exact ⟨sts, h, fun s hs => ⟨(hall s hs).1, of_decide_eq_true (hall s hs).2⟩⟩

/-- Every distance `d` between the `y` and the `x` of a state is later the `y` or the `x` of
some state the body runs at: the passes reach every row within the radius. -/
theorem loopStates_midpoint_covers {r : Nat} (hr : 1 ≤ r) (hr' : r < 2 ^ 16) :
    ∀ (fuel : Nat) (s : MidpointState) (sts : List MidpointState), MidpointInv r s →
      loopStates (fun s => s.y ≤ s.x) midpointStep fuel s = some sts →
      ∀ d, s.y ≤ d → d ≤ s.x → ∃ v ∈ sts, v.y = d ∨ v.x = d := by
  intro fuel
  induction fuel with
  | zero => intro s sts _ h; cases h
  | succ fuel ih =>
    intro s sts hs h d hyd hdx
    rw [loopStates_succ, if_pos (decide_eq_true (by omega))] at h
    obtain ⟨rest, hrest, rfl⟩ := Option.map_eq_some'.mp h
    by_cases hd : d = s.y ∨ d = s.x
    · exact ⟨s, List.mem_cons_self _ _, by omega⟩
    · obtain ⟨hy, hx, hinv⟩ := midpointStep_spec hr hr' hs (by omega)
      obtain ⟨v, hv, hvd⟩ := ih _ rest hinv hrest d (by omega) (by omega)
      exact ⟨v, List.mem_cons_of_mem _ hv, hvd⟩

/-! ## The run of the midpoint loop -/

/-- What the midpoint loop does, pass by pass, over the states `sts` at which its body runs. -/
structure MidpointRun (r : Nat) (sts : List MidpointState) : Prop where
  starts : sts.head? = some (.init r)
  chain : sts.Chain' fun s s' => s' = midpointStep s
  exits : ∀ s ∈ sts.getLast?, (midpointStep s).x < (midpointStep s).y
  step_y : ∀ s ∈ sts, (midpointStep s).y = s.y + 1
  step_x : ∀ s ∈ sts, (midpointStep s).x = s.x ∨ (midpointStep s).x + 1 = s.x
  y_le_x : ∀ s ∈ sts, s.y ≤ s.x
  x_le : ∀ s ∈ sts, s.x ≤ r
  t1_nonneg : ∀ s ∈ sts, 0 ≤ s.t1
  t1_le : ∀ s ∈ sts, s.t1 ≤ s.x
  sq_ge : ∀ s ∈ sts, (r - 1) * (r - 1) ≤ s.x * s.x + s.y * s.y
  sq_lt : ∀ s ∈ sts, s.x * s.x + s.y * s.y < (r + 1) * (r + 1)
  length_le : sts.length ≤ r + 1

/-- For every radius from one to `65535` the loop starts at `(r, 0)`, raises `y` by one and
lowers `x` by at most one at each pass without wrapping, keeps `y ≤ x ≤ r`, `0 ≤ t1 ≤ x` and
`(r - 1)² ≤ x² + y² < (r + 1)²` at every state its body runs at, and stops within `r + 1`
passes. -/
theorem midpoint_loop_run {r : Nat} (hr : 1 ≤ r) (hr' : r < 2 ^ 16) :
    ∃ sts, midpointStates r = some sts ∧ MidpointRun r sts := by
  obtain ⟨sts, hsts, hall⟩ := midpointStates_spec hr hr'
  obtain ⟨hhead, hchain, hlast⟩ := loopStates_run hsts
  have hlen := loopStates_length_le (fun s : MidpointState => s.x + 1 - s.y)
    (midpointStep_falls hr hr') (MidpointInv.init r) hsts
  have hstep := fun s hs => midpointStep_spec hr hr' (hall s hs).1 (hall s hs).2
  exact ⟨sts, hsts,
    { starts := by rw [hhead, if_pos (by simp [MidpointState.init])]
      chain := hchain
      exits := fun s hs => by simpa using hlast s hs
      step_y := fun s hs => (hstep s hs).1
      step_x := fun s hs => (hstep s hs).2.1
      y_le_x := fun s hs => (hall s hs).2
      x_le := fun s hs => (hall s hs).1.x_le
      t1_nonneg := fun s hs => (hall s hs).1.t1_nonneg
      t1_le := fun s hs => (hall s hs).1.t1_le (hall s hs).2
      sq_ge := fun s hs => (hall s hs).1.sq_ge (hall s hs).2 hr
      sq_lt := fun s hs => (hall s hs).1.sq_lt (hall s hs).2
      length_le := by simpa [MidpointState.init] using hlen }⟩

/-- The largest radius. -/
theorem midpoint_loop_run_max :
    1 ≤ 65535 ∧ 65535 < 2 ^ 16 ∧
      ∃ sts, midpointStates 65535 = some sts ∧ MidpointRun 65535 sts :=
  ⟨by decide, by decide, midpoint_loop_run (by decide) (by decide)⟩

/-- A radius of `0`: the body runs at `(0, 0)`, its `x--` wraps `x` to `65535`, and the body
runs again at `(65535, 1)`, whatever the rest of the run. -/
theorem midpoint_radius_zero_wraps :
    midpointStep (.init 0) = ⟨65535, 1, 1⟩ ∧
      midpointStates 0 =
        (loopStates (fun s => s.y ≤ s.x) midpointStep (loopFuel - 2)
            (midpointStep ⟨65535, 1, 1⟩)).map
          fun sts => .init 0 :: ⟨65535, 1, 1⟩ :: sts := by
  have h0 : midpointStep (.init 0) = ⟨65535, 1, 1⟩ := by decide
  refine ⟨h0, ?_⟩
  rw [midpointStates, show loopFuel = loopFuel - 2 + 1 + 1 from rfl, loopStates_succ,
    if_pos (by decide), h0, loopStates_succ, if_pos (by decide), Option.map_map]
  rfl

/-! ## The pixels of a circle -/

/-- For a circle of radius at least one on the canvas, the pixels handed to `draw_point` are
those of the spans of the states the loop runs at: at state `s`, half-width `x` on the rows
`cy ± y` and half-width `y` on the rows `cy ± x`. -/
theorem circlePoints_spec {c : Canvas} {circle : Circle} (hon : circle.OnCanvas c)
    (hr : 1 ≤ (circle.r : Nat)) :
    ∃ sts W, midpointStates circle.r = some sts ∧ circlePoints circle = some W ∧
      (∀ s ∈ sts, MidpointInv circle.r s ∧ s.y ≤ s.x) ∧
      ∀ p, p ∈ W ↔ ∃ s ∈ sts, ∃ sp ∈ [(s.y, s.x), (s.x, s.y)], circle.OnSpan sp.1 sp.2 p := by
  obtain ⟨sts, hsts, hall⟩ := midpointStates_spec hr circle.r.isLt
  have hcx : 1 ≤ (circle.x : Nat) := le_trans hr hon.left
  have hspans : ∀ s ∈ sts, ∃ l, circleSpans circle s.x s.y = some l ∧
      ∀ p, p ∈ l ↔ circle.OnSpan s.y s.x p ∨ circle.OnSpan s.x s.y p := fun s hs =>
    circleSpans_spec hon hcx (hall s hs).1.x_le (le_trans (hall s hs).2 (hall s hs).1.x_le)
  have hW := @forEach_of_forall _ (fun s : MidpointState => circleSpans circle s.x s.y)
    (fun s => (circleSpans circle s.x s.y).getD []) _ fun s hs => by
      obtain ⟨l, hl, -⟩ := hspans s hs
      simp only [hl, Option.getD_some]
  refine ⟨sts, _, hsts, by rw [circlePoints, hsts, Option.some_bind, hW], hall, fun p => ?_⟩
  simp only [List.mem_flatMap, List.mem_cons, List.mem_singleton, List.not_mem_nil, or_false,
    exists_eq_or_imp, exists_eq_left]
  refine exists_congr fun s => and_congr_right fun hs => ?_
  obtain ⟨l, hl, hmem⟩ := hspans s hs
  rw [hl, Option.getD_some, hmem]

section OnSpan

variable {circle : Circle} {off half : Nat} {p : Point}

theorem Circle.OnSpan.sq_le (h : circle.OnSpan off half p) (hoff : off ≤ circle.y) :
    ((p.1 : Int) - circle.x) ^ 2 + ((p.2 : Int) - circle.y) ^ 2 ≤ (half : Int) ^ 2 + off ^ 2 := by
  obtain ⟨hrow, hl, hr⟩ := h
  have hcol : ((p.1 : Int) - circle.x) ^ 2 ≤ (half : Int) ^ 2 := sq_le_sq' (by omega) (by omega)
  have hrow' : ((p.2 : Int) - circle.y) ^ 2 = (off : Int) ^ 2 := by
    rcases hrow with h | h
    · rw [h]; push_cast; ring
    · rw [h, Nat.cast_sub hoff]; ring
  rw [hrow']
  exact Int.add_le_add_right hcol _

theorem Circle.OnSpan.mirror_x (h : circle.OnSpan off half p) (hhalf : half ≤ circle.x) :
    circle.OnSpan off half (2 * circle.x - p.1, p.2) ∧
      ((2 * circle.x - p.1 : Nat) : Int) = 2 * circle.x - p.1 := by
  obtain ⟨hrow, hl, hr⟩ := h
  exact ⟨⟨hrow, by omega, by omega⟩, by omega⟩

theorem Circle.OnSpan.mirror_y (h : circle.OnSpan off half p) (hoff : off ≤ circle.y) :
    circle.OnSpan off half (p.1, 2 * circle.y - p.2) ∧
      ((2 * circle.y - p.2 : Nat) : Int) = 2 * circle.y - p.2 := by
  obtain ⟨hrow, hl, hr⟩ := h
  exact ⟨⟨by dsimp only; omega, hl, hr⟩, by omega⟩

/-- Between two pixels of one row, every column lies on the span of one of them: the one on
the side of the centre column it falls on. -/
theorem Circle.OnSpan.between {off' half' : Nat} {q : Point} (hp : circle.OnSpan off half p)
    (hq : circle.OnSpan off' half' q) (hrow : p.2 = q.2) {m : Nat} (hpm : p.1 ≤ m)
    (hmq : m ≤ q.1) :
    circle.OnSpan off half (m, p.2) ∨ circle.OnSpan off' half' (m, p.2) := by
  obtain ⟨hp1, hp2, hp3⟩ := hp
  obtain ⟨hq1, hq2, hq3⟩ := hq
  by_cases hm : m ≤ circle.x
  · exact .inl ⟨hp1, by dsimp only; omega, by dsimp only; omega⟩
  · exact .inr ⟨by rw [hrow]; exact hq1, by dsimp only; omega, by dsimp only; omega⟩

end OnSpan

/-- The shape a circle's pixels should have: the set `W` it hands to `draw_point`. -/
structure CircleShape (c : Canvas) (circle : Circle) (W : List Point) : Prop where
  within : ∀ p ∈ W,
    ((p.1 : Int) - circle.x) ^ 2 + ((p.2 : Int) - circle.y) ^ 2 < ((circle.r : Int) + 1) ^ 2
  on_canvas : ∀ p ∈ W, p.1 < c.width ∧ p.2 < c.height
  mirror_x : ∀ p ∈ W, ∃ q ∈ W, (q.1 : Int) = 2 * circle.x - p.1 ∧ q.2 = p.2
  mirror_y : ∀ p ∈ W, ∃ q ∈ W, q.1 = p.1 ∧ (q.2 : Int) = 2 * circle.y - p.2
  row_centre : ∀ d : Int, |d| ≤ circle.r → ∃ p ∈ W, p.1 = circle.x ∧ (p.2 : Int) = circle.y + d
  row_run : ∀ p ∈ W, ∀ q ∈ W, p.2 = q.2 → ∀ m, p.1 ≤ m → m ≤ q.1 → (m, p.2) ∈ W

/-- For every circle of radius at least one lying fully on a canvas, `rendering_draw_circle`'s
loops stop and the pixels they hand to `draw_point` lie strictly inside the disc of radius
`r + 1` and on the canvas, are symmetric about the centre's row and column, and cover every
row within `r` of the centre with one run of columns through the centre column. -/
theorem circle_shape_of_radius_pos (c : Canvas) (circle : Circle) (hon : circle.OnCanvas c)
    (hr : 1 ≤ (circle.r : Nat)) :
    ∃ W, circlePoints circle = some W ∧ CircleShape c circle W := by
  obtain ⟨sts, W, hsts, hW, hall, hmem⟩ := circlePoints_spec hon hr
  have := hon.left; have := hon.top; have := hon.right; have := hon.bottom
  have hsp : ∀ s ∈ sts, ∀ sp ∈ [(s.y, s.x), (s.x, s.y)], sp.1 ≤ circle.r ∧ sp.2 ≤ circle.r ∧
      sp.2 * sp.2 + sp.1 * sp.1 < (circle.r + 1) * (circle.r + 1) := by
    intro s hs sp hsp
    have hsq := (hall s hs).1.sq_lt (hall s hs).2
    have := (hall s hs).1.x_le
    have := (hall s hs).2
    simp only [List.mem_cons, List.mem_singleton, List.not_mem_nil, or_false] at hsp
    rcases hsp with rfl | rfl
    · exact ⟨by omega, by omega, hsq⟩
    · exact ⟨by omega, by omega, by rwa [Nat.add_comm]⟩
  refine ⟨W, hW, ⟨fun p hp => ?_, fun p hp => ?_, fun p hp => ?_, fun p hp => ?_, ?_, ?_⟩⟩
  · obtain ⟨s, hs, sp, hin, h⟩ := (hmem p).mp hp
    obtain ⟨h1, h2, hsq⟩ := hsp s hs sp hin
    have hle := h.sq_le (by omega)
    have hsq' : ((sp.2 * sp.2 + sp.1 * sp.1 : Nat) : Int) <
        ((circle.r + 1) * (circle.r + 1) : Nat) := by exact_mod_cast hsq
    push_cast at hsq'
    linarith only [hle, hsq']
  · obtain ⟨s, hs, sp, hin, ⟨hrow, -, hc⟩⟩ := (hmem p).mp hp
    obtain ⟨h1, h2, -⟩ := hsp s hs sp hin
    omega
  · obtain ⟨s, hs, sp, hin, h⟩ := (hmem p).mp hp
    obtain ⟨hq, he⟩ := h.mirror_x (by have := (hsp s hs sp hin).2.1; omega)
    exact ⟨_, (hmem _).mpr ⟨s, hs, sp, hin, hq⟩, he, rfl⟩
  · obtain ⟨s, hs, sp, hin, h⟩ := (hmem p).mp hp
    obtain ⟨hq, he⟩ := h.mirror_y (by have := (hsp s hs sp hin).1; omega)
    exact ⟨_, (hmem _).mpr ⟨s, hs, sp, hin, hq⟩, rfl, he⟩
  · intro d hd
    obtain ⟨hd1, hd2⟩ := abs_le.mp hd
    obtain ⟨e, row, he, hrow, hrowd⟩ : ∃ e row : Nat, e ≤ circle.r ∧
        (row = circle.y + e ∨ row = circle.y - e) ∧ (row : Int) = circle.y + d := by
      rcases le_total 0 d with h | h
      · exact ⟨d.toNat, circle.y + d.toNat, by omega, .inl rfl, by omega⟩
      · exact ⟨(-d).toNat, circle.y - (-d).toNat, by omega, .inr rfl, by omega⟩
    obtain ⟨v, hv, hvd⟩ := loopStates_midpoint_covers hr circle.r.isLt loopFuel _ sts
      (.init _) hsts e (Nat.zero_le _) he
    refine ⟨(circle.x, row), (hmem _).mpr ⟨v, hv, ?_⟩, rfl, hrowd⟩
    rcases hvd with rfl | rfl
    · exact ⟨_, List.mem_cons_self _ _, hrow, by dsimp only; omega, by dsimp only; omega⟩
    · exact ⟨_, List.mem_cons_of_mem _ (List.mem_singleton_self _), hrow, by dsimp only; omega,
        by dsimp only; omega⟩
  · intro p hp q hq hpq m hpm hmq
    obtain ⟨s, hs, sp, hin, h⟩ := (hmem p).mp hp
    obtain ⟨t, ht, tp, hin', h'⟩ := (hmem q).mp hq
    rcases h.between h' hpq hpm hmq with hm | hm
    · exact (hmem _).mpr ⟨s, hs, sp, hin, hm⟩
    · exact (hmem _).mpr ⟨t, ht, tp, hin', hm⟩

/-- A circle of radius one on a three-by-three canvas meets the premises of
`circle_shape_of_radius_pos`. -/
theorem circle_shape_unit :
    ∃ W, circlePoints ⟨1, 1, 1⟩ = some W ∧
      CircleShape ⟨3, 3, 4, 36, fun _ => 0⟩ ⟨1, 1, 1⟩ W :=
  circle_shape_of_radius_pos _ _ ⟨by decide, by decide, by decide, by decide⟩ (by decide)

/-! ## The disc a circle covers -/

/-- A pixel on a row `off` from the centre, no further from the centre column than `half`. -/
theorem Circle.onSpan_of_sq {circle : Circle} {off half px py : Nat}
    (hrow : py = circle.y + off ∨ py = circle.y - off)
    (hcol : ((px : Int) - circle.x) ^ 2 ≤ (half : Int) ^ 2) : circle.OnSpan off half (px, py) := by
  obtain ⟨h1, h2⟩ := abs_le_of_sq_le_sq' hcol (Int.natCast_nonneg half)
  exact ⟨hrow, by dsimp only; omega, by dsimp only; omega⟩

/-- For every circle of radius at least one lying fully on a canvas, the pixels
`rendering_draw_circle` hands to `draw_point` include every pixel of the closed disc of
radius `r - 1`: each row within `r` of the centre is reached by a state whose other coordinate
the invariant keeps on or outside the circle of radius `r - 1`. -/
theorem circle_covers_inner_disc (c : Canvas) (circle : Circle) (hon : circle.OnCanvas c)
    (hr : 1 ≤ (circle.r : Nat)) :
    ∃ W, circlePoints circle = some W ∧ ∀ px py : Nat,
      ((px : Int) - circle.x) ^ 2 + ((py : Int) - circle.y) ^ 2 ≤ ((circle.r : Int) - 1) ^ 2 →
        (px, py) ∈ W := by
  obtain ⟨sts, W, hsts, hW, hall, hmem⟩ := circlePoints_spec hon hr
  refine ⟨W, hW, fun px py hin => (hmem _).mpr ?_⟩
  have hrow : py = circle.y + ((py : Int) - circle.y).natAbs ∨
      py = circle.y - ((py : Int) - circle.y).natAbs := by omega
  rw [← Int.natAbs_sq ((py : Int) - circle.y)] at hin
  generalize ((py : Int) - circle.y).natAbs = e at hrow hin
  have her : e ≤ circle.r := by
    have := le_of_sq_le_sq ((le_add_of_nonneg_left (sq_nonneg ((px : Int) - circle.x))).trans hin)
      (by omega : (0 : Int) ≤ circle.r - 1)
    omega
  obtain ⟨v, hv, hvd⟩ := loopStates_midpoint_covers hr circle.r.isLt loopFuel _ sts (.init _)
    hsts e (Nat.zero_le _) her
  have hge : ((circle.r : Int) - 1) ^ 2 ≤ (v.x : Int) ^ 2 + (v.y : Int) ^ 2 := by
    rw [← Nat.cast_one, ← Nat.cast_sub hr, sq, sq, sq]
    exact_mod_cast (hall v hv).1.sq_ge (hall v hv).2 hr
  rcases hvd with rfl | rfl
  · exact ⟨v, hv, (v.y, v.x), List.mem_cons_self _ _,
      Circle.onSpan_of_sq hrow (by linarith only [hin, hge])⟩
  · exact ⟨v, hv, (v.x, v.y), List.mem_cons_of_mem _ (List.mem_singleton_self _),
      Circle.onSpan_of_sq hrow (by linarith only [hin, hge])⟩

/-- A circle of radius two on a five-by-five canvas covers the disc of radius one about its
centre. -/
theorem circle_covers_inner_disc_two :
    ∃ W, circlePoints ⟨2, 2, 2⟩ = some W ∧ ∀ px py : Nat,
      ((px : Int) - 2) ^ 2 + ((py : Int) - 2) ^ 2 ≤ (2 - 1) ^ 2 → (px, py) ∈ W :=
  circle_covers_inner_disc ⟨5, 5, 4, 100, fun _ => 0⟩ _ ⟨by decide, by decide, by decide, by decide⟩
    (by decide)

/-! ## Where the loops run away -/

/-- A centre in column `0` makes the first span of the first pass run forever. -/
theorem circlePoints_of_x_zero (circle : Circle) (h : (circle.x : Nat) = 0) :
    circlePoints circle = none := by
  rw [circlePoints, midpointStates, show loopFuel = 65536 + 1 from rfl, loopStates_succ,
    if_pos (by simp [MidpointState.init])]
  cases hrest : loopStates (fun s : MidpointState => decide (s.y ≤ s.x)) midpointStep 65536
    (midpointStep (.init circle.r)) with
  | none => rfl
  | some rest =>
    exact forEach_eq_none (List.mem_cons_self _ _)
      (by simp only [circleSpans, MidpointState.init, h, spanDown_zero]; rfl)

/-- A radius of `0` wraps `x` to `65535` in the first pass, and the second pass, at
`x = 65535, y = 1`, draws the pixel one column right of and one row above the centre. -/
theorem circlePoints_radius_zero {W : List Point} (hW : circlePoints ⟨1, 1, 0⟩ = some W) :
    (2, 0) ∈ W := by
  have h0 : midpointStep (.init 0) = ⟨65535, 1, 1⟩ := by decide
  have hs0 : circleSpans ⟨1, 1, 0⟩ 0 0 = some [(1, 1), (1, 1), (1, 1), (1, 1)] := by decide
  have hs1 : circleSpans ⟨1, 1, 0⟩ 65535 1 =
      some [(2, 0), (1, 0), (2, 2), (1, 2), (0, 2), (0, 0)] := by decide
  change ((loopStates (fun s => decide (s.y ≤ s.x)) midpointStep (65535 + 1 + 1)
    (.init 0)).bind _ = some W) at hW
  rw [loopStates_succ, if_pos (by decide), h0, loopStates_succ, if_pos (by decide)] at hW
  obtain ⟨sts, hsts, hW⟩ := Option.bind_eq_some.mp hW
  obtain ⟨_, hrest, rfl⟩ := Option.map_eq_some'.mp hsts
  obtain ⟨rest, -, rfl⟩ := Option.map_eq_some'.mp hrest
  rw [forEach_cons, forEach_cons] at hW
  change (circleSpans ⟨1, 1, 0⟩ 0 0).bind _ = _ at hW
  rw [hs0, Option.some_bind] at hW
  change (Option.map _ ((circleSpans ⟨1, 1, 0⟩ 65535 1).bind _)) = _ at hW
  rw [hs1, Option.some_bind] at hW
  obtain ⟨_, hmid, rfl⟩ := Option.map_eq_some'.mp hW
  obtain ⟨_, -, rfl⟩ := Option.map_eq_some'.mp hmid
  simp

/-- Both circles lie fully on their canvases. The radius-`0` circle at the corner of a
one-pixel canvas never finishes its first span; the radius-`0` circle at the middle of a
three-by-three canvas, whenever its loop stops, has handed `draw_point` the pixel `(2, 0)`,
which is not its centre and lies outside the disc of radius one. -/
theorem draw_circle_runaway :
    Circle.OnCanvas ⟨0, 0, 0⟩ ⟨1, 1, 4, 4, fun _ => 0⟩ ∧ circlePoints ⟨0, 0, 0⟩ = none ∧
      Circle.OnCanvas ⟨1, 1, 0⟩ ⟨3, 3, 4, 36, fun _ => 0⟩ ∧
      ∀ W, circlePoints ⟨1, 1, 0⟩ = some W → (2, 0) ∈ W :=
  ⟨⟨by decide, by decide, by decide, by decide⟩, circlePoints_of_x_zero _ rfl,
    ⟨by decide, by decide, by decide, by decide⟩, fun _ hW => circlePoints_radius_zero hW⟩

end Ttds
