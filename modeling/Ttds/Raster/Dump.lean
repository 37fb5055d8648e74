import Ttds.Raster.Fill

/-!
# `rendering_dump_bgra_to_rgba`

The dump writes a canvas to a file one pixel at a time, each pixel's bytes turned from
`B, G, R, A` into `R, G, B, A`, and retries every short write:

```c
assert(c->stride == 4);
const uint64_t buffer_size = canvas_buffer_size(c);
for (uint64_t idx = 0; idx < buffer_size; idx += c->stride) {
	uint8_t rgba_pixel[4] = { c->buffer[idx + 2], c->buffer[idx + 1],
	                          c->buffer[idx + 0], c->buffer[idx + 3] };
	uint64_t written = 0;
	while (written < sizeof(rgba_pixel)) {
		const ssize_t result = write(fd, &rgba_pixel[written], sizeof(rgba_pixel) - written);
		if (result < 0)
			FATAL_ERR("Failed to write to file: %s: %s", pathname, STR_ERR);
		written += result;
	}
}
```

`write(2)` is the environment: call number `k` of the dump, asked for `n` bytes, writes the
first `wr k n` of them, and fails when that answer is negative. A call that writes nothing
leaves `written` where it was, so the retry loop is run with fuel.

**The law** (`dump_writes_rgba`): on a canvas of stride four whose allocation holds its
`canvas_buffer_size` bytes, for every `write` that writes between one byte and the bytes asked
for, the file is the pixels' `R, G, B, A` bytes in buffer order, `width * height * 4` of them,
and swapping bytes `0` and `2` of every group of four gives the buffer back. Four calls per
pixel are enough fuel. A fresh `canvas_init_bgra` canvas, filled with one colour and dumped,
gives that colour's `R, G, B, 0xFF` once for each pixel (`fill_then_dump`).

**What it does not establish.** `open(2)` and `close(2)` are taken to succeed: the file is the
truncated one `open` returns, and only the bytes the loops write are modelled.
-/

namespace Ttds

/-- How a dump ends when it does not finish its file. -/
inductive DumpExit
  /-- `assert(c->stride == 4)` fails. -/
  | assertion
  /-- `FATAL_ERR` after a failed `write`. -/
  | fatal (msg : String)
  /-- A read past the canvas's allocation: undefined behaviour. -/
  | outOfBounds
  /-- `write` keeps writing nothing: the retry loop does not end within its fuel. -/
  | stuck
  deriving DecidableEq, Repr

/-- `write(2)` as the environment answers it: call `k`, asked for `n` bytes, writes `wr k n`. -/
abbrev WriteOracle := Nat → Nat → Int

/-- The bytes written so far and the number of `write` calls made. -/
structure DumpFile where
  bytes : List UInt8
  calls : Nat

/-- `rgba_pixel` for the pixel at byte `idx`, read from the canvas's allocation. -/
def rgbaPixel (c : Canvas) (idx : Nat) : Except DumpExit (List UInt8) :=
  if idx + 4 ≤ c.allocated then
    .ok [c.buffer (idx + 2), c.buffer (idx + 1), c.buffer idx, c.buffer (idx + 3)]
  else .error .outOfBounds

/-- The retry loop `while (written < sizeof(rgba_pixel))`, from `written` on, allowed `fuel`
more calls of `write`. -/
def writeAll (wr : WriteOracle) (pathname : String) (pixel : List UInt8) (fuel written : Nat)
    (f : DumpFile) : Except DumpExit DumpFile :=
  if written < pixel.length then
    match fuel with
    | 0 => .error .stuck
    | fuel + 1 =>
      let result := wr f.calls (pixel.length - written)
      if result < 0 then .error (.fatal ("Failed to write to file: " ++ pathname))
      else writeAll wr pathname pixel fuel (written + result.toNat)
        ⟨f.bytes ++ (pixel.drop written).take result.toNat, f.calls + 1⟩
  else .ok f

/-- The offsets `idx` of the outer loop. Each pass raises `idx` by the stride, which the
assertion has made four, so `buffer_size + 1` tests are enough. -/
def dumpOffsets (c : Canvas) : Option (List Nat) :=
  loopStates (fun idx => idx < canvasBufferSize c) (fun idx => (idx + c.stride) % 2 ^ 64)
    (canvasBufferSize c + 1) 0

/-- `rendering_dump_bgra_to_rgba`, from the opened file to its bytes. -/
def renderingDumpBgraToRgba (c : Canvas) (pathname : String) (wr : WriteOracle) (fuel : Nat) :
    Except DumpExit (List UInt8) := do
  unless (c.stride : Nat) = 4 do throw .assertion
  let some offsets := dumpOffsets c | throw .stuck
  let f ← offsets.foldlM (fun f idx => do writeAll wr pathname (← rgbaPixel c idx) fuel 0 f)
    ⟨[], 0⟩
  return f.bytes

/-- Swap bytes `0` and `2` of every group of four: the reader's way back to `B, G, R, A`. -/
def swapRedBlue : List UInt8 → List UInt8
  | a :: b :: c :: d :: rest => c :: b :: a :: d :: swapRedBlue rest
  | rest => rest

/-- The `R, G, B, A` bytes of pixel `k` of a stride-four canvas. -/
def rgbaBytes (c : Canvas) (k : Nat) : List UInt8 :=
  [c.buffer (4 * k + 2), c.buffer (4 * k + 1), c.buffer (4 * k), c.buffer (4 * k + 3)]

/-! ## The retry loop -/

/-- `write` writes at least one byte and at most the bytes asked for. -/
def WriteOracle.Progresses (wr : WriteOracle) : Prop :=
  ∀ k n, 1 ≤ n → 1 ≤ wr k n ∧ wr k n ≤ n

/-- Whatever sizes the writes have, the retry loop appends the rest of the pixel exactly once,
given one call per byte left. -/
theorem writeAll_spec {wr : WriteOracle} (hwr : wr.Progresses) (pathname : String)
    (pixel : List UInt8) :
    ∀ (fuel written : Nat) (f : DumpFile), written ≤ pixel.length →
      pixel.length - written ≤ fuel →
      ∃ calls, writeAll wr pathname pixel fuel written f =
        .ok ⟨f.bytes ++ pixel.drop written, calls⟩ := by
  intro fuel
  induction fuel with
  | zero =>
    intro written f hw hfuel
    rw [writeAll, if_neg (by omega), show written = pixel.length by omega, List.drop_length,
      List.append_nil]
    exact ⟨_, rfl⟩
  | succ fuel ih =>
    intro written f hw hfuel
    rw [writeAll]
    by_cases hlt : written < pixel.length
    · obtain ⟨h1, h2⟩ := hwr f.calls (pixel.length - written) (by omega)
      rw [if_pos hlt]
      dsimp only
      rw [if_neg (by omega)]
      obtain ⟨calls, h⟩ := ih (written + (wr f.calls (pixel.length - written)).toNat)
        ⟨f.bytes ++ (pixel.drop written).take _, f.calls + 1⟩ (by omega) (by omega)
      refine ⟨calls, h.trans ?_⟩
      rw [List.append_assoc, ← List.drop_drop, List.take_append_drop]
    · rw [if_neg hlt, show written = pixel.length by omega, List.drop_length, List.append_nil]
      exact ⟨_, rfl⟩

/-! ## The outer loop -/

/-- The outer loop visits the offsets `4 * i, .., 4 * (n - 1)` when it cannot wrap. -/
theorem loopStates_dumpOffsets {n : Nat} (hn : 4 * n < 2 ^ 64) :
    ∀ (fuel i : Nat), n - i < fuel →
      loopStates (fun idx => idx < 4 * n) (fun idx => (idx + 4) % 2 ^ 64) fuel (4 * i) =
        some ((List.range' i (n - i)).map (4 * ·)) := by
  intro fuel
  induction fuel with
  | zero => intro _ h; omega
  | succ fuel ih =>
    intro i hf
    rw [loopStates_succ]
    by_cases hi : i < n
    · rw [if_pos (decide_eq_true (by omega)), show (4 * i + 4) % 2 ^ 64 = 4 * (i + 1) by omega,
        ih (i + 1) (by omega), show n - i = n - (i + 1) + 1 by omega]
      rfl
    · rw [if_neg (by simpa using hi), show n - i = 0 by omega]
      rfl

theorem dumpOffsets_eq {c : Canvas} (hs : (c.stride : Nat) = 4) :
    dumpOffsets c = some ((List.range (c.width * c.height)).map (4 * ·)) := by
  have hpix : (c.width : Nat) * c.height < 2 ^ 16 * 2 ^ 16 :=
    Nat.mul_lt_mul'' c.width.isLt c.height.isLt
  have hsize : canvasBufferSize c = 4 * (c.width * c.height) := by
    rw [canvasBufferSize, hs, Nat.mul_comm]
  rw [dumpOffsets, hs, hsize]
  simpa only [Nat.mul_zero, Nat.sub_zero, List.range_eq_range'] using
    @loopStates_dumpOffsets (c.width * c.height) (by omega) (4 * (c.width * c.height) + 1) 0
      (by omega)

/-- Pixel by pixel, the writes append each pixel's `R, G, B, A` bytes. -/
theorem foldlM_writeAll {c : Canvas} {wr : WriteOracle} (hwr : wr.Progresses)
    (pathname : String) {fuel : Nat} (hfuel : 4 ≤ fuel) :
    ∀ (ks : List Nat) (f : DumpFile), (∀ k ∈ ks, 4 * k + 4 ≤ c.allocated) →
      ∃ calls, (ks.map (4 * ·)).foldlM
          (fun f idx => do writeAll wr pathname (← rgbaPixel c idx) fuel 0 f) f =
        .ok ⟨f.bytes ++ ks.flatMap (rgbaBytes c), calls⟩
  | [], f, _ => ⟨f.calls, by simp only [List.foldlM_nil, List.flatMap_nil, List.append_nil]; rfl⟩
  | k :: ks, f, hks => by
    obtain ⟨calls, hw⟩ := writeAll_spec hwr pathname (rgbaBytes c k) fuel 0 f
      (Nat.zero_le _) (by simp only [rgbaBytes, List.length_cons, List.length_nil]; omega)
    obtain ⟨calls', hrest⟩ := foldlM_writeAll hwr pathname hfuel ks _
      fun k' hk' => hks k' (List.mem_cons_of_mem _ hk')
    refine ⟨calls', ?_⟩
    have hpix : rgbaPixel c (4 * k) = .ok (rgbaBytes c k) :=
      if_pos (hks k (List.mem_cons_self _ _))
    simp only [List.map_cons, List.foldlM_cons, hpix, List.drop_zero] at hw ⊢
    rw [show (do writeAll wr pathname (← Except.ok (rgbaBytes c k)) fuel 0 f) =
      writeAll wr pathname (rgbaBytes c k) fuel 0 f from rfl, hw]
    refine hrest.trans ?_
    simp only [List.flatMap_cons, List.append_assoc]

/-! ## Reading the file back -/

theorem swapRedBlue_flatMap (c : Canvas) (ks : List Nat) :
    swapRedBlue (ks.flatMap (rgbaBytes c)) = ks.flatMap fun k =>
      [c.buffer (4 * k), c.buffer (4 * k + 1), c.buffer (4 * k + 2), c.buffer (4 * k + 3)] := by
  induction ks with
  | nil => rfl
  | cons k ks ih =>
    simp only [List.flatMap_cons, rgbaBytes, List.cons_append, List.nil_append]
    rw [swapRedBlue, ih]

theorem flatMap_range_quads (buf : Nat → UInt8) (n : Nat) :
    (List.range n).flatMap (fun k => [buf (4 * k), buf (4 * k + 1), buf (4 * k + 2),
      buf (4 * k + 3)]) = (List.range (n * 4)).map buf := by
  induction n with
  | zero => rfl
  | succ n ih =>
    rw [List.range_succ, List.flatMap_append, ih, Nat.succ_mul, List.range_add, List.map_append,
      List.map_map]
    simp only [List.flatMap_cons, List.flatMap_nil, List.append_nil, Nat.mul_comm 4 n]
    rfl

theorem length_flatMap_rgbaBytes (c : Canvas) (ks : List Nat) :
    (ks.flatMap (rgbaBytes c)).length = ks.length * 4 := by
  induction ks with
  | nil => rfl
  | cons k ks ih =>
    rw [List.flatMap_cons, List.length_append, ih, List.length_cons, Nat.succ_mul, Nat.add_comm]
    rfl

/-- The dump of a stride-four canvas whose buffer is allocated: each pixel's `R, G, B, A` bytes,
in buffer order. -/
theorem renderingDump_eq_ok {c : Canvas} (pathname : String) {wr : WriteOracle} {fuel : Nat}
    (hs : (c.stride : Nat) = 4) (ha : canvasBufferSize c ≤ c.allocated) (hwr : wr.Progresses)
    (hfuel : 4 ≤ fuel) :
    renderingDumpBgraToRgba c pathname wr fuel =
      .ok ((List.range (c.width * c.height)).flatMap (rgbaBytes c)) := by
  have hsize : canvasBufferSize c = c.width * c.height * 4 := by rw [canvasBufferSize, hs]
  obtain ⟨calls, hfold⟩ := @foldlM_writeAll c wr hwr pathname fuel hfuel
    (List.range (c.width * c.height)) ⟨[], 0⟩ fun k hk => by
      have := List.mem_range.mp hk
      omega
  simp only [renderingDumpBgraToRgba, hs, dumpOffsets_eq hs, if_true, pure_bind, hfold]
  rfl

/-- On a canvas of stride four holding its `canvas_buffer_size` bytes, whatever short writes
`write` makes, the dump writes each pixel's `R, G, B, A` bytes once, in buffer order:
`width * height * 4` bytes from which swapping bytes `0` and `2` of each group of four gives
back the buffer. -/
theorem dump_writes_rgba (c : Canvas) (pathname : String) (wr : WriteOracle) (fuel : Nat)
    (hs : (c.stride : Nat) = 4) (ha : canvasBufferSize c ≤ c.allocated) (hwr : wr.Progresses)
    (hfuel : 4 ≤ fuel) :
    ∃ file, renderingDumpBgraToRgba c pathname wr fuel = .ok file ∧
      file = (List.range (c.width * c.height)).flatMap (rgbaBytes c) ∧
      file.length = c.width * c.height * 4 ∧
      swapRedBlue file = (List.range (c.width * c.height * 4)).map c.buffer :=
  ⟨_, renderingDump_eq_ok pathname hs ha hwr hfuel, rfl,
    by rw [length_flatMap_rgbaBytes, List.length_range],
    by rw [swapRedBlue_flatMap, flatMap_range_quads]⟩

/-- A one-pixel canvas dumped through a `write` that takes one byte per call. -/
theorem dump_one_byte_writes :
    ∃ file, renderingDumpBgraToRgba ⟨1, 1, 4, 4, UInt8.ofNat⟩ "pixel.rgba" (fun _ _ => 1) 4 =
        .ok file ∧
      file = (List.range (1 * 1)).flatMap (rgbaBytes ⟨1, 1, 4, 4, UInt8.ofNat⟩) ∧
      file.length = 1 * 1 * 4 ∧
      swapRedBlue file = (List.range (1 * 1 * 4)).map UInt8.ofNat :=
  dump_writes_rgba _ _ _ _ rfl le_rfl (fun _ _ h => ⟨le_rfl, by omega⟩) le_rfl

/-! ## A filled canvas, dumped -/

/-- A canvas from `canvas_init_bgra`, filled with a colour and dumped, whatever sizes the `write`
calls take: the file holds the colour's `R, G, B, 0xFF` once for each pixel. -/
theorem fill_then_dump (width height : Fin (2 ^ 16)) (fresh : Nat → UInt8) (color : Color)
    (pathname : String) {wr : WriteOracle} {fuel : Nat} (hwr : wr.Progresses) (hfuel : 4 ≤ fuel) :
    ∃ c c', canvasInitBgra width height (some fresh) = some c ∧ renderingFill c color = some c' ∧
      renderingDumpBgraToRgba c' pathname wr fuel =
        .ok (List.replicate (width * height) [color.r, color.g, color.b, 0xFF]).flatten := by
  obtain ⟨c, hc⟩ : ∃ c, canvasInitBgra width height (some fresh) = some c := ⟨_, rfl⟩
  obtain ⟨rfl, rfl, hs, ha⟩ := canvasInitBgra_eq_some hc
  obtain ⟨c', hfill, hbytes⟩ := renderingFill_of_bgra hs ha color
  obtain ⟨hw, hh, hs', ha'⟩ : c'.width = c.width ∧ c'.height = c.height ∧ c'.stride = c.stride ∧
      c'.allocated = c.allocated := by
    rw [renderingFill, fillPoints_eq, Option.some_bind] at hfill
    exact paint_shape hfill
  have hsize : canvasBufferSize c = c.width * c.height * 4 := by rw [canvasBufferSize, hs]
  have hquad : ∀ k ∈ List.range (c.width * c.height),
      rgbaBytes c' k = [color.r, color.g, color.b, 0xFF] := fun k hk => by
    have hk := List.mem_range.mp hk
    simp (disch := omega) only [rgbaBytes, hbytes, Nat.mul_add_mod, Nat.mul_mod_right]
    rfl
  refine ⟨c, c', hc, hfill, ?_⟩
  rw [renderingDump_eq_ok pathname (hs' ▸ hs)
    (by simp only [canvasBufferSize, hw, hh, hs', ha', ha, le_refl]) hwr hfuel, hw, hh,
    List.flatMap, List.map_congr_left hquad, List.map_const', List.length_range]

/-- A three-by-two canvas filled orange, through a `write` that takes one byte per call. -/
theorem fill_then_dump_orange :
    WriteOracle.Progresses (fun _ _ => 1) ∧ 4 ≤ 4 ∧
      ∃ c c', canvasInitBgra 3 2 (some fun _ => 0) = some c ∧
        renderingFill c ⟨255, 128, 0⟩ = some c' ∧
        renderingDumpBgraToRgba c' "orange.rgba" (fun _ _ => 1) 4 =
          .ok (List.replicate (3 * 2) [255, 128, 0, 0xFF]).flatten := by
  have hwr : WriteOracle.Progresses (fun _ _ => 1) := fun _ n h => ⟨le_rfl, show (1 : Int) ≤ n by omega⟩
  exact ⟨hwr, le_rfl, fill_then_dump 3 2 (fun _ => 0) ⟨255, 128, 0⟩ "orange.rgba" hwr le_rfl⟩

end Ttds
