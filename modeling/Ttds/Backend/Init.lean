import Ttds.Backend.Drm

/-!
# Acquiring the display

`drm_rendering_init` acquires the display in a fixed order and ends the process at the first
step that fails. `find_card` opens the first entry of `/dev/dri` whose name starts with `card`;
`require_dumb_buffers` and `require_universal_planes` check the card; `init_res` reads its
resources; `init_conn`, `init_crtc` and `init_plane` each walk the objects the kernel reports
and keep the first that passes a test; `init_mode` takes the CRTC's mode; and `init_buf`, once
for each buffer, creates, registers and maps a dumb buffer of the mode's size.

The kernel is modelled by its answers: `DrmDevice` holds what each query returns on the card
`find_card` opens, `none` where the call fails. The three searches and the loop of
`is_primary_plane` over a plane's properties are one loop, `firstPassing`: query each object in
turn, end the process on a failed query, keep the first object that passes the test, and end
the process when none does. `firstPassing_eq_some` says which object it keeps.

**The law** (`drm_init_selects`, `drm_init_returns`). A context `drm_rendering_init` returns
drives the first CRTC the kernel reports with a valid mode, in that mode, with buffer 0 in front
and both buffers made for the mode's size; a primary plane is on that CRTC and a connector is
connected with a mode. On a card that answers every query, gives every plane a `type`
property and a primary plane to every CRTC with a valid mode, it returns.

**What fails.** `is_primary_plane` treats a plane without a `type` property as a fatal error,
not as a plane that is not primary: the first plane on the CRTC that has none ends the process,
whatever planes follow (`init_plane_stops_at_untyped`). And the connector `init_conn` finds is
never compared with the CRTC: two cards that differ only in their connectors give the same
context (`drm_init_ignores_connector`).
-/

namespace Ttds

/-- What `drmModeGetConnector` reports of a connector: whether `connection` is
`DRM_MODE_CONNECTED`, and `count_modes`. -/
structure Connector where
  connected : Bool
  countModes : Int

/-- What `drmModeGetCrtc` reports of a CRTC: `crtc_id`, whether `mode_valid` is set, and
`mode`. -/
structure Crtc where
  crtcId : Fin (2 ^ 32)
  modeValid : Bool
  mode : Mode

/-- A property of a plane: the name `drmModeGetProperty` reports for `props[i]`, and
`prop_values[i]`. -/
structure PlaneProperty where
  name : String
  value : Fin (2 ^ 64)

/-- What the backend reads of a plane: `drmModeGetPlane`'s `crtc_id`, and the answer of
`drmModeObjectGetProperties`, with each property as `drmModeGetProperty` answers it. -/
structure Plane where
  crtcId : Fin (2 ^ 32)
  props : Option (List (Option PlaneProperty))

/-- What the calls of `init_buf` answer: `DRM_IOCTL_MODE_CREATE_DUMB`'s pitch and size,
`drmModeAddFB2`'s buffer id, whether `drmModeMapDumbBuffer` succeeds, and the bytes `mmap`
maps. -/
structure DumbAnswer where
  create : Option (Fin (2 ^ 32) × Fin (2 ^ 64))
  addFb : Option (Fin (2 ^ 32))
  mapped : Bool
  data : Nat → UInt8

/-- The card as the backend's queries see it. `dumb idx width height` answers the `idx`-th
`init_buf`, which asks for `width` by `height` pixels. -/
structure DrmDevice where
  dumbBufferCap : Option (Fin (2 ^ 64))
  universalPlanes : Bool
  resources : Option (List (Option Connector) × List (Option Crtc))
  planes : Option (List (Option Plane))
  dumb : Fin 2 → Nat → Nat → DumbAnswer

/-! ## The steps -/

/-- `strncmp(d_name, "card", 4) == 0`. -/
def isCardName (name : String) : Bool := "card".toList.isPrefixOf name.toList

/-- `find_card`: the first entry `readdir` lists whose name starts with `card`, opened.
`entries` is `none` when `opendir` fails, and `openat` `none` for a negative descriptor. -/
def findCard (entries : Option (List String)) (openat : String → Option DrmDevice) :
    Option DrmDevice := do
  let name ← (← entries).find? isCardName
  openat name

/-- `require_dumb_buffers`: `drmGetCap` fails, or answers `0`, and the process ends. -/
def requireDumbBuffers (dev : DrmDevice) : Option Unit :=
  dev.dumbBufferCap.bind fun cap => if cap = 0 then none else some ()

/-- `require_universal_planes`. -/
def requireUniversalPlanes (dev : DrmDevice) : Option Unit :=
  if dev.universalPlanes then some () else none

/-- The loop of `init_conn`, `init_crtc`, `init_plane` and `is_primary_plane`: query each object
in turn and keep the first that passes `test`. A failed query ends the process (by
`FATAL_ERR`, or by reading through `NULL`), as does a test that ends it, and so does running
out of objects. -/
def firstPassing {α : Type} (test : α → Option Bool) : List (Option α) → Option α
  | [] => none
  | none :: _ => none
  | some a :: as => (test a).bind fun ok => if ok then some a else firstPassing test as

/-- `init_conn`: the first connector that is connected and has a mode. -/
def initConn (conns : List (Option Connector)) : Option Connector :=
  firstPassing (fun conn => some (conn.connected && decide (0 < conn.countModes))) conns

/-- `init_crtc`: the first CRTC whose mode is valid. -/
def initCrtc (crtcs : List (Option Crtc)) : Option Crtc :=
  firstPassing (fun crtc => some crtc.modeValid) crtcs

/-- `DRM_PLANE_TYPE_PRIMARY`. -/
def drmPlaneTypePrimary : Fin (2 ^ 64) := 1

/-- `is_primary_plane`: whether the value of the plane's first property named `type` is
`DRM_PLANE_TYPE_PRIMARY`. A plane without one is `FATAL_ERR`. -/
def isPrimaryPlane (plane : Plane) : Option Bool := do
  let prop ← firstPassing (fun prop => some (prop.name == "type")) (← plane.props)
  return prop.value == drmPlaneTypePrimary

/-- `init_plane`: the first plane on the CRTC that is primary. `is_primary_plane` is asked
only of planes on the CRTC. -/
def initPlane (crtc : Crtc) (planes : List (Option Plane)) : Option Plane :=
  firstPassing (fun plane => if plane.crtcId = crtc.crtcId then isPrimaryPlane plane else some false)
    planes

/-- `init_buf`: a dumb buffer of the mode's size at 32 bits a pixel, registered and mapped.
`mmap` reports failure with `MAP_FAILED`, which the `NULL` test never sees; that case is left
out. -/
def initBuf (dev : DrmDevice) (mode : Mode) (idx : Fin 2) : Option DumbBuffer := do
  let answer := dev.dumb idx mode.hdisplay mode.vdisplay
  let (pitch, size) ← answer.create
  let id ← answer.addFb
  if answer.mapped then some { id, stride := pitch, size, data := answer.data } else none

/-- `drm_rendering_init`: the steps in order, with `init_mode` the CRTC's mode and buffer `0`
in front. -/
def drmRenderingInit (entries : Option (List String)) (openat : String → Option DrmDevice) :
    Option RenderingCtx := do
  let dev ← findCard entries openat
  requireDumbBuffers dev
  requireUniversalPlanes dev
  let (conns, crtcs) ← dev.resources
  let _ ← initConn conns
  let crtc ← initCrtc crtcs
  let _ ← initPlane crtc (← dev.planes)
  let buf0 ← initBuf dev crtc.mode 0
  let buf1 ← initBuf dev crtc.mode 1
  return { crtcId := crtc.crtcId, mode := crtc.mode, frontBufIdx := 0,
           bufs := fun | 0 => buf0 | 1 => buf1 }

/-! ## The search loop -/

section Search

variable {α : Type} {test : α → Option Bool}

/-- The loop keeps `a` exactly when the kernel reported every object before it, each failing the
test, and `a` passes it. -/
theorem firstPassing_eq_some {l : List (Option α)} {a : α} :
    firstPassing test l = some a ↔
      ∃ (pre : List α) (post : List (Option α)), l = pre.map some ++ some a :: post ∧
        (∀ b ∈ pre, test b = some false) ∧ test a = some true := by
  induction l with
  | nil => simp [firstPassing]
  | cons x l ih =>
    constructor
    · intro h
      obtain _ | b := x
      · cases h
      rcases hb : test b with _ | _ | _
      · rw [firstPassing, hb] at h; cases h
      · rw [firstPassing, hb] at h
        obtain ⟨pre, post, rfl, hpre, ha⟩ := ih.mp h
        exact ⟨b :: pre, post, rfl, List.forall_mem_cons.mpr ⟨hb, hpre⟩, ha⟩
      · rw [firstPassing, hb] at h
        cases h
        exact ⟨[], l, rfl, nofun, hb⟩
    · rintro ⟨_ | ⟨b, pre⟩, post, hl, hpre, ha⟩
      · obtain ⟨rfl, rfl⟩ := List.cons.inj hl
        simp [firstPassing, ha]
      · obtain ⟨rfl, rfl⟩ := List.cons.inj hl
        obtain ⟨hb, hpre⟩ := List.forall_mem_cons.mp hpre
        rw [firstPassing, hb]
        exact ih.mpr ⟨pre, post, rfl, hpre, ha⟩

/-- What the loop keeps is an object the kernel reported, and it passes the test. -/
theorem firstPassing_mem {l : List (Option α)} {a : α} (h : firstPassing test l = some a) :
    some a ∈ l ∧ test a = some true := by
  obtain ⟨pre, post, rfl, -, ha⟩ := firstPassing_eq_some.mp h
  exact ⟨List.mem_append_right _ (.head _), ha⟩

/-- A test that ends the process ends the search there, whatever objects follow. -/
theorem firstPassing_of_test_none {pre : List α} {a : α} (hpre : ∀ b ∈ pre, test b = some false)
    (ha : test a = none) (post : List (Option α)) :
    firstPassing test (pre.map some ++ some a :: post) = none := by
  induction pre with
  | nil => simp [firstPassing, ha]
  | cons b pre ih =>
    obtain ⟨hb, hpre⟩ := List.forall_mem_cons.mp hpre
    rw [List.map_cons, List.cons_append, firstPassing, hb]
    exact ih hpre

/-- When the kernel answers every query, the test ends the process on no object and some object
passes, the loop keeps one. -/
theorem firstPassing_isSome {l : List (Option α)}
    (hall : ∀ x ∈ l, ∃ b, x = some b ∧ (test b).isSome)
    (hex : ∃ b, some b ∈ l ∧ test b = some true) : (firstPassing test l).isSome := by
  induction l with
  | nil => obtain ⟨b, hb, -⟩ := hex; cases hb
  | cons x l ih =>
    obtain ⟨b, rfl, hb⟩ := hall x (List.mem_cons_self _ _)
    obtain ⟨ok, hok⟩ := Option.isSome_iff_exists.mp hb
    rw [firstPassing, hok]
    cases ok
    · refine ih (fun x hx => hall x (List.mem_cons_of_mem _ hx)) ?_
      obtain ⟨c, hc, hpass⟩ := hex
      rcases List.mem_cons.mp hc with h | h
      · cases h; rw [hok] at hpass; cases hpass
      · exact ⟨c, h, hpass⟩
    · rfl

/-- A test that never ends the process: the loop keeps an object when the kernel answers every
query and some object passes. -/
theorem firstPassing_isSome_of_pred {p : α → Bool} {l : List (Option α)}
    (hall : ∀ x ∈ l, x.isSome) (hex : ∃ b, some b ∈ l ∧ p b = true) :
    (firstPassing (fun a => some (p a)) l).isSome :=
  firstPassing_isSome (fun x hx => ⟨x.get (hall x hx), by simp, rfl⟩)
    (hex.imp fun _ ⟨hmem, hb⟩ => ⟨hmem, congrArg some hb⟩)

/-- Running out of objects, each reported and failing the test, ends the process. -/
theorem firstPassing_of_all_fail {l : List α} (hl : ∀ b ∈ l, test b = some false) :
    firstPassing test (l.map some) = none := by
  induction l with
  | nil => rfl
  | cons b l ih =>
    obtain ⟨hb, hl⟩ := List.forall_mem_cons.mp hl
    rw [List.map_cons, firstPassing, hb]
    exact ih hl

end Search

/-! ## What `drm_rendering_init` acquires -/

/-- A plane whose properties the kernel all reports, one of them `type`, is classified. -/
theorem isPrimaryPlane_isSome {plane : Plane} {props : List (Option PlaneProperty)}
    (hprops : plane.props = some props) (hall : ∀ y ∈ props, y.isSome)
    (htype : ∃ prop, some prop ∈ props ∧ prop.name = "type") : (isPrimaryPlane plane).isSome := by
  have hfound : (firstPassing (fun prop => some (prop.name == "type")) props).isSome :=
    firstPassing_isSome_of_pred hall (htype.imp fun prop ⟨hmem, hname⟩ => ⟨hmem, by simp [hname]⟩)
  obtain ⟨prop, hprop⟩ := Option.isSome_iff_exists.mp hfound
  simp [isPrimaryPlane, hprops, hprop]

/-- A context `drm_rendering_init` returns drives the first CRTC the kernel reports with a valid
mode, in that mode, with buffer `0` in front and each buffer as `init_buf` makes it for the
mode's size; a primary plane is on that CRTC, and a connector is connected with a mode. -/
theorem drm_init_selects {entries : Option (List String)} {openat : String → Option DrmDevice}
    {ctx : RenderingCtx} (h : drmRenderingInit entries openat = some ctx) :
    ∃ dev conns crtcs planes, findCard entries openat = some dev ∧
      dev.resources = some (conns, crtcs) ∧ dev.planes = some planes ∧
      (∃ conn, some conn ∈ conns ∧ conn.connected = true ∧ 0 < conn.countModes) ∧
      (∃ (pre : List Crtc) (crtc : Crtc) (post : List (Option Crtc)),
        crtcs = pre.map some ++ some crtc :: post ∧ (∀ c ∈ pre, c.modeValid = false) ∧
        crtc.modeValid = true ∧ ctx.crtcId = crtc.crtcId ∧ ctx.mode = crtc.mode) ∧
      (∃ plane, some plane ∈ planes ∧ plane.crtcId = ctx.crtcId ∧
        isPrimaryPlane plane = some true) ∧
      ctx.frontBufIdx = 0 ∧ ∀ i, initBuf dev ctx.mode i = some (ctx.bufs i) := by
  simp only [drmRenderingInit, Option.bind_eq_bind, Option.bind_eq_some, Option.pure_def,
    Option.some.injEq] at h
  obtain ⟨dev, hdev, -, -, -, -, ⟨conns, crtcs⟩, hres, conn, hconn, crtc, hcrtc, planes, hplanes,
    plane, hplane, buf0, h0, buf1, h1, rfl⟩ := h
  dsimp only [initConn, initCrtc, initPlane] at hconn hcrtc hplane
  obtain ⟨hcmem, hconn⟩ := firstPassing_mem hconn
  obtain ⟨pre, post, hcrtcs, hpre, hcrtc⟩ := firstPassing_eq_some.mp hcrtc
  obtain ⟨hpmem, hplane⟩ := firstPassing_mem hplane
  have hon : plane.crtcId = crtc.crtcId := by
    by_contra hne
    rw [if_neg hne] at hplane
    cases hplane
  rw [if_pos hon] at hplane
  simp only [Option.some.injEq, Bool.and_eq_true, decide_eq_true_eq] at hconn hcrtc
  exact ⟨dev, _, _, _, hdev, hres, hplanes, ⟨conn, hcmem, hconn⟩,
    ⟨pre, crtc, post, hcrtcs, fun c hc => Option.some.inj (hpre c hc), hcrtc, rfl, rfl⟩,
    ⟨plane, hpmem, hon, hplane⟩, rfl, fun | 0 => h0 | 1 => h1⟩

/-- A card with one connected connector, a CRTC without a mode and then one in a two-pixel
mode, and on the second a cursor plane and then the primary plane. -/
def sampleCard : DrmDevice where
  dumbBufferCap := some 1
  universalPlanes := true
  resources := some ([some ⟨true, 1⟩], [some ⟨30, false, ⟨2, 1, 60⟩⟩, some ⟨31, true, ⟨2, 1, 60⟩⟩])
  planes := some [some ⟨31, some [some ⟨"type", 2⟩]⟩, some ⟨31, some [some ⟨"type", 1⟩]⟩]
  dumb := fun i _ _ => ⟨some (8, 8), some (if i = 0 then 40 else 41), true, fun _ => 0⟩

/-- The sample card's context: buffer `0` in front, both buffers as `init_buf` makes them. -/
theorem drm_init_selects_sample :
    ∃ ctx, drmRenderingInit (some ["card0"]) (fun _ => some sampleCard) = some ctx ∧
      ctx.frontBufIdx = 0 ∧ ∀ i, initBuf sampleCard ctx.mode i = some (ctx.bufs i) := by
  obtain ⟨ctx, h⟩ := Option.isSome_iff_exists.mp
    (rfl : (drmRenderingInit (some ["card0"]) (fun _ => some sampleCard)).isSome = true)
  obtain ⟨dev, -, -, -, hdev, -, -, -, -, -, h0, hbufs⟩ := drm_init_selects h
  obtain rfl : dev = sampleCard := Option.some.inj (hdev.symm.trans rfl)
  exact ⟨ctx, h, h0, hbufs⟩

/-- `drm_rendering_init` returns on a card that answers every query it makes, reports a
connected connector with a mode and a CRTC with a valid mode, gives every plane a `type`
property and a primary plane to every CRTC with a valid mode, and makes both buffers. -/
theorem drm_init_returns {es : List String} {name : String} {openat : String → Option DrmDevice}
    {dev : DrmDevice} {conns : List (Option Connector)} {crtcs : List (Option Crtc)}
    {planes : List (Option Plane)}
    (hname : es.find? isCardName = some name) (hopen : openat name = some dev)
    (hcap : ∃ cap, dev.dumbBufferCap = some cap ∧ cap ≠ 0) (huniv : dev.universalPlanes = true)
    (hres : dev.resources = some (conns, crtcs)) (hplanes : dev.planes = some planes)
    (hconns : ∀ x ∈ conns, x.isSome)
    (hconn : ∃ conn, some conn ∈ conns ∧ conn.connected = true ∧ 0 < conn.countModes)
    (hcrtcs : ∀ x ∈ crtcs, x.isSome) (hcrtc : ∃ crtc, some crtc ∈ crtcs ∧ crtc.modeValid = true)
    (htyped : ∀ x ∈ planes, ∃ plane props, x = some plane ∧ plane.props = some props ∧
      (∀ y ∈ props, y.isSome) ∧ ∃ prop, some prop ∈ props ∧ prop.name = "type")
    (hprimary : ∀ crtc, some crtc ∈ crtcs → crtc.modeValid = true →
      ∃ plane, some plane ∈ planes ∧ plane.crtcId = crtc.crtcId ∧
        isPrimaryPlane plane = some true)
    (hbufs : ∀ i w h, (dev.dumb i w h).create.isSome ∧ (dev.dumb i w h).addFb.isSome ∧
      (dev.dumb i w h).mapped = true) :
    ∃ ctx, drmRenderingInit (some es) openat = some ctx := by
  obtain ⟨cap, hcap, hcap0⟩ := hcap
  obtain ⟨conn, hconn⟩ := Option.isSome_iff_exists.mp (firstPassing_isSome_of_pred
    (p := fun conn : Connector => conn.connected && decide (0 < conn.countModes)) hconns
    (hconn.imp fun c ⟨hmem, hc, hm⟩ => ⟨hmem, by simp [hc, hm]⟩))
  obtain ⟨crtc, hfirst⟩ := Option.isSome_iff_exists.mp
    (firstPassing_isSome_of_pred (p := Crtc.modeValid) hcrtcs hcrtc)
  obtain ⟨hmem, hvalid⟩ := firstPassing_mem hfirst
  obtain ⟨plane, hplane⟩ := Option.isSome_iff_exists.mp (@firstPassing_isSome _
    (fun plane : Plane => if plane.crtcId = crtc.crtcId then isPrimaryPlane plane else some false) _
    (fun x hx => by
      obtain ⟨plane, props, rfl, hprops, hall, htype⟩ := htyped x hx
      refine ⟨plane, rfl, ?_⟩
      dsimp only
      split
      · exact isPrimaryPlane_isSome hprops hall htype
      · rfl)
    ((hprimary crtc hmem (Option.some.inj hvalid)).imp fun p ⟨hmem, hon, hp⟩ => ⟨hmem, by simp [hon, hp]⟩))
  have hbuf : ∀ i, ∃ buf, initBuf dev crtc.mode i = some buf := fun i => by
    obtain ⟨hc, ha, hm⟩ := hbufs i crtc.mode.hdisplay crtc.mode.vdisplay
    obtain ⟨⟨pitch, size⟩, hc⟩ := Option.isSome_iff_exists.mp hc
    obtain ⟨id, ha⟩ := Option.isSome_iff_exists.mp ha
    simp [initBuf, hc, ha, hm]
  obtain ⟨buf0, h0⟩ := hbuf 0
  obtain ⟨buf1, h1⟩ := hbuf 1
  simp only [drmRenderingInit, findCard, requireDumbBuffers, requireUniversalPlanes, initConn,
    initCrtc, initPlane, hname, hopen, hcap, hcap0, huniv, hres, hplanes, hconn, hfirst, hplane,
    h0, h1, Option.bind_eq_bind, Option.some_bind, if_false, if_true, Option.pure_def]
  exact ⟨_, rfl⟩

/-- `/dev/dri` with a render node before the card. -/
theorem drm_init_returns_sample :
    ∃ ctx, drmRenderingInit (some [".", "..", "renderD128", "card0"]) (fun _ => some sampleCard) =
      some ctx :=
  @drm_init_returns _ "card0" _ _ _ _ _ (by decide) rfl ⟨1, rfl, by decide⟩ rfl rfl rfl (by decide)
    ⟨⟨true, 1⟩, by simp, rfl, by decide⟩ (by decide) ⟨⟨31, true, ⟨2, 1, 60⟩⟩, by simp, rfl⟩
    (List.forall_mem_cons.mpr ⟨⟨_, _, rfl, rfl, by decide, _, .head _, rfl⟩,
      List.forall_mem_singleton.mpr ⟨_, _, rfl, rfl, by decide, _, .head _, rfl⟩⟩)
    (by simp; decide) fun _ _ _ => ⟨rfl, rfl, rfl⟩

/-- The first plane on the CRTC without a `type` property ends the process, whatever planes
follow it, a primary one on the same CRTC included. The planes before it are on other CRTCs or
typed as not primary. -/
theorem init_plane_stops_at_untyped {crtc : Crtc} {pre : List Plane} {plane : Plane}
    {props : List PlaneProperty}
    (hpre : ∀ p ∈ pre, p.crtcId ≠ crtc.crtcId ∨ isPrimaryPlane p = some false)
    (hon : plane.crtcId = crtc.crtcId) (hprops : plane.props = some (props.map some))
    (huntyped : ∀ prop ∈ props, prop.name ≠ "type") (post : List (Option Plane)) :
    initPlane crtc (pre.map some ++ some plane :: post) = none := by
  have hnone : isPrimaryPlane plane = none := by
    rw [isPrimaryPlane, hprops, Option.bind_eq_bind, Option.some_bind,
      firstPassing_of_all_fail fun prop hp => by simp [huntyped prop hp]]
    rfl
  refine firstPassing_of_test_none (fun p hp => ?_) (by simp [hon, hnone]) post
  split_ifs with hc
  · exact (hpre p hp).resolve_left (not_not_intro hc)
  · rfl

/-- On the CRTC of `sampleCard`, an overlay plane, then a plane with only a `zpos` property,
ahead of the primary plane. -/
theorem init_plane_stops_at_zpos :
    isPrimaryPlane ⟨31, some [some ⟨"type", 1⟩]⟩ = some true ∧
      initPlane ⟨31, true, ⟨2, 1, 60⟩⟩
        ([⟨31, some [some ⟨"type", 0⟩]⟩].map some ++
          some ⟨31, some [some ⟨"zpos", 0⟩]⟩ :: [some ⟨31, some [some ⟨"type", 1⟩]⟩]) =
        none :=
  ⟨by decide, @init_plane_stops_at_untyped ⟨31, true, ⟨2, 1, 60⟩⟩ [⟨31, some [some ⟨"type", 0⟩]⟩]
    ⟨31, some [some ⟨"zpos", 0⟩]⟩ [⟨"zpos", 0⟩] (by decide) rfl rfl (by decide)
    [some ⟨31, some [some ⟨"type", 1⟩]⟩]⟩

/-- Two cards that differ only in their connectors, each with one `init_conn` accepts, give the
same answer: the connector plays no part in the CRTC, the mode or the buffers. -/
theorem drm_init_ignores_connector (entries : Option (List String)) (dev : DrmDevice)
    {conns conns' : List (Option Connector)} (crtcs : List (Option Crtc))
    (hc : (initConn conns).isSome) (hc' : (initConn conns').isSome) :
    drmRenderingInit entries (fun _ => some { dev with resources := some (conns, crtcs) }) =
      drmRenderingInit entries (fun _ => some { dev with resources := some (conns', crtcs) }) := by
  obtain ⟨conn, hc⟩ := Option.isSome_iff_exists.mp hc
  obtain ⟨conn', hc'⟩ := Option.isSome_iff_exists.mp hc'
  cases entries with
  | none => rfl
  | some es =>
    cases hn : es.find? isCardName with
    | none => simp only [drmRenderingInit, findCard, hn, Option.bind_eq_bind, Option.some_bind,
        Option.none_bind]
    | some name =>
      simp only [drmRenderingInit, findCard, hn, Option.bind_eq_bind, Option.some_bind, hc, hc']
      rfl

/-- `sampleCard` with its connector, and with a disconnected one ahead of a connected one. -/
example :
    drmRenderingInit (some ["card0"]) (fun _ => some { sampleCard with
        resources := some ([some ⟨true, 1⟩], [some ⟨31, true, ⟨2, 1, 60⟩⟩]) }) =
      drmRenderingInit (some ["card0"]) (fun _ => some { sampleCard with
        resources := some ([some ⟨false, 0⟩, some ⟨true, 3⟩], [some ⟨31, true, ⟨2, 1, 60⟩⟩]) }) :=
  drm_init_ignores_connector _ _ _ rfl rfl

end Ttds
