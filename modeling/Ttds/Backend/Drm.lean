import Ttds.Raster.Fill

/-!
# The DRM backend's canvases and flips

`drm_canvas_init` builds the off-screen canvas a pane draws into from the active mode and the
current front dumb buffer: width and height from the mode, `stride` from the buffer's
`pitch`, and an allocation of the buffer's `size` bytes. `drm_rendering_show` copies a
canvas into the back buffer, asks for a page flip until the kernel stops answering `EBUSY`,
and swaps the roles of the two buffers.

**What the canvas gets wrong.** The pitch is the length of a row in bytes, but `draw_point`
multiplies a whole pixel index by the stride. For any mode at least two pixels wide with a
buffer of `pitch * height` bytes, the last pixel's bytes lie past the end of the allocation
(`drm_canvas_last_point_outside`), so the `rendering_fill` that `ui_ctx_new` and
`ui_pane_create` run on every DRM canvas writes out of bounds (`drm_canvas_fill_outside`). Two
pixels still never share a byte (`Canvas.offset_disjoint`).
-/

namespace Ttds

/-- `struct buffer`: one dumb buffer as `init_buf` records it, with the bytes of its
mapping. -/
structure DumbBuffer where
  id : Fin (2 ^ 32)
  stride : Fin (2 ^ 32)
  size : Fin (2 ^ 64)
  data : Nat → UInt8

/-- The fields of `drmModeModeInfo` the backend reads. -/
structure Mode where
  hdisplay : Fin (2 ^ 16)
  vdisplay : Fin (2 ^ 16)
  vrefresh : Fin (2 ^ 32)

/-- The part of `struct rendering_ctx` that outlives `drm_rendering_init`: the CRTC the flips
go to, the active mode, and the two dumb buffers with the index of the front one. -/
structure RenderingCtx where
  crtcId : Fin (2 ^ 32)
  mode : Mode
  frontBufIdx : Fin 2
  bufs : Fin 2 → DumbBuffer

/-- `1 ^ front_buf_idx`: the other buffer. -/
def backIdx : Fin 2 → Fin 2
  | 0 => 1
  | 1 => 0

theorem backIdx_ne : ∀ i : Fin 2, backIdx i ≠ i := by decide

/-- `drm_canvas_init`. `fresh` is what the new allocation of `front.size` bytes holds. -/
def drmCanvasInit (ctx : RenderingCtx) (fresh : Nat → UInt8) : Canvas :=
  let front := ctx.bufs ctx.frontBufIdx
  { width := ctx.mode.hdisplay
    height := ctx.mode.vdisplay
    stride := front.stride
    allocated := front.size
    buffer := fresh }

/-- A two-pixel mode whose dumb buffers have the tightest pitch and size a kernel can give:
eight bytes a row, eight bytes in all. -/
def twoPixelCtx : RenderingCtx where
  crtcId := 0
  mode := { hdisplay := 2, vdisplay := 1, vrefresh := 60 }
  frontBufIdx := 0
  bufs := fun _ => { id := 0, stride := 8, size := 8, data := fun _ => 0 }

/-! ## Showing a canvas -/

/-- `drmModePageFlip`'s answer: accepted, `EBUSY`, or another error. -/
inductive FlipResult
  | accepted
  | busy
  | failed
  deriving DecidableEq, Repr

/-- The retry loop around `drmModePageFlip`, over the kernel's successive answers: `EBUSY` is
asked again, another error is fatal (`none`), and so is running out of answers. -/
def pageFlip : List FlipResult → Option Unit
  | [] => none
  | .accepted :: _ => some ()
  | .busy :: rest => pageFlip rest
  | .failed :: _ => none

/-- `drm_rendering_show`: `memcpy(back.data, c->buffer, back.size)`, the flip, and the swap
of roles. `none` when the copy would read past the canvas's allocation or the flip fails. -/
def drmRenderingShow (ctx : RenderingCtx) (c : Canvas) (flips : List FlipResult) :
    Option RenderingCtx :=
  let back := ctx.bufs (backIdx ctx.frontBufIdx)
  if (back.size : Nat) ≤ c.allocated then
    (pageFlip flips).map fun _ =>
      { ctx with
        bufs := Function.update ctx.bufs (backIdx ctx.frontBufIdx)
          { back with data := writeBytes back.data 0 ((List.range back.size).map c.buffer) }
        frontBufIdx := backIdx ctx.frontBufIdx }
  else none

/-- `memcpy(dst, src, n)` from the start of `dst`: the first `n` bytes are `src`'s. -/
theorem writeBytes_range (data src : Nat → UInt8) {n k : Nat} (hk : k < n) :
    writeBytes data 0 ((List.range n).map src) k = src k := by
  simp only [writeBytes, List.length_map, List.length_range, Nat.zero_le, true_and, Nat.zero_add,
    if_pos hk, Nat.sub_zero, List.getD_eq_getElem?_getD, List.getElem?_map, List.getElem?_range hk,
    Option.map_some', Option.getD_some]

/-- Busy answers are retried without limit: they change nothing about the outcome. -/
theorem pageFlip_busy_append (n : Nat) (rest : List FlipResult) :
    pageFlip (List.replicate n .busy ++ rest) = pageFlip rest := by
  induction n with
  | zero => rfl
  | succ n ih => exact ih

/-- A successful show makes the old back buffer the front one, holding the canvas's bytes,
and leaves the old front buffer, now the back one, as it was. -/
theorem drmRenderingShow_eq_some {ctx ctx' : RenderingCtx} {c : Canvas}
    {flips : List FlipResult} (h : drmRenderingShow ctx c flips = some ctx') :
    ctx'.frontBufIdx = backIdx ctx.frontBufIdx ∧
      (∀ k < ((ctx.bufs ctx'.frontBufIdx).size : Nat),
        (ctx'.bufs ctx'.frontBufIdx).data k = c.buffer k) ∧
      ctx'.bufs ctx.frontBufIdx = ctx.bufs ctx.frontBufIdx := by
  unfold drmRenderingShow at h
  dsimp only at h
  split at h
  · obtain ⟨_, -, rfl⟩ := Option.map_eq_some'.mp h
    refine ⟨rfl, fun k hk => ?_, Function.update_noteq (backIdx_ne _).symm _ _⟩
    simp only [Function.update_same] at hk ⊢
    exact writeBytes_range _ _ hk
  · cases h

/-- Showing a DRM canvas on the two-pixel mode after one `EBUSY`. -/
example : ((drmRenderingShow twoPixelCtx (drmCanvasInit twoPixelCtx fun _ => 7)
    [.busy, .accepted]).map (·.frontBufIdx)) = some 1 := rfl

/-! ## Where `draw_point` stores on a DRM canvas -/

/-- On a mode at least two pixels wide with a buffer of `pitch * height` bytes, whatever the
pitch, the last pixel's four bytes end past the allocation. -/
theorem drm_canvas_last_point_outside (ctx : RenderingCtx) (fresh : Nat → UInt8)
    (hw : 2 ≤ (ctx.mode.hdisplay : Nat)) (hh : 1 ≤ (ctx.mode.vdisplay : Nat))
    (hsize : ((ctx.bufs ctx.frontBufIdx).size : Nat) =
      (ctx.bufs ctx.frontBufIdx).stride * ctx.mode.vdisplay) :
    (drmCanvasInit ctx fresh).allocated <
      (drmCanvasInit ctx fresh).offset (ctx.mode.hdisplay - 1) (ctx.mode.vdisplay - 1) + 4 := by
  simp only [drmCanvasInit, Canvas.offset, hsize]
  set w : Nat := (ctx.mode.hdisplay : Nat)
  set h : Nat := (ctx.mode.vdisplay : Nat)
  set p : Nat := ((ctx.bufs ctx.frontBufIdx).stride : Nat)
  have hpix : h ≤ (h - 1) * w + (w - 1) := by
    have := Nat.mul_le_mul_left (h - 1) hw
    omega
  calc p * h ≤ ((h - 1) * w + (w - 1)) * p := by rw [Nat.mul_comm]; exact Nat.mul_le_mul_right _ hpix
    _ < _ := by omega

/-- The same pixel makes `rendering_fill` write outside a DRM canvas. -/
theorem drm_canvas_fill_none (ctx : RenderingCtx) (fresh : Nat → UInt8) (color : Color)
    (hw : 2 ≤ (ctx.mode.hdisplay : Nat)) (hh : 1 ≤ (ctx.mode.vdisplay : Nat))
    (hsize : ((ctx.bufs ctx.frontBufIdx).size : Nat) =
      (ctx.bufs ctx.frontBufIdx).stride * ctx.mode.vdisplay) :
    renderingFill (drmCanvasInit ctx fresh) color = none := by
  have hout := drm_canvas_last_point_outside ctx fresh hw hh hsize
  rw [renderingFill, fillPoints_eq, Option.some_bind, ← Option.not_isSome_iff_eq_none,
    paint_isSome_iff]
  intro hall
  have hlast := hall (ctx.mode.hdisplay - 1, ctx.mode.vdisplay - 1)
    (mem_fillPoints.mpr ⟨by simp only [drmCanvasInit]; omega, by simp only [drmCanvasInit]; omega⟩)
  dsimp only at hlast
  omega

/-- On the two-pixel mode, `draw_point` for pixel `(1, 0)` stores bytes `8..11` of an
eight-byte allocation, and `rendering_fill` does so for every colour. -/
theorem drm_canvas_fill_outside :
    ∀ (fresh : Nat → UInt8) (color : Color),
      (drmCanvasInit twoPixelCtx fresh).offset 1 0 = 8 ∧
        (drmCanvasInit twoPixelCtx fresh).allocated = 8 ∧
        drawPoint (drmCanvasInit twoPixelCtx fresh) 1 0 color = none ∧
        renderingFill (drmCanvasInit twoPixelCtx fresh) color = none := fun fresh color =>
  ⟨rfl, rfl, rfl, drm_canvas_fill_none twoPixelCtx fresh color (by decide) (by decide)
    (by decide)⟩

end Ttds
