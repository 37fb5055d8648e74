import Ttds.Raster.Rect
import Ttds.Raster.Circle

/-!
# The pane store

`ui.c` keeps its panes in `struct pane_storage`: an array of `MAX_PANES` slots of which the
first `count` are live, behind one mutex. Every public call takes the mutex, works on the
slots, and is meant to release it before it returns; the rotation thread takes it once a
second to show one pane.

The faithful layer is `PaneStorage`: the slots as a function (what lies past `count` is
whatever `malloc` or an earlier pane left there), the count, and whether the mutex is held.
A call that finds the mutex held never returns: the only thread that could release it is
the caller itself, which leaked it on an earlier return. Each call is `none` when it does not
return to its caller: that blocked lock, an `assert` or `FATAL_ERR` that ends the process, or
undefined behaviour in the rasterizer it runs.

`ui_ctx_new` calls the functions of the `vt` it is given, but never stores `vt` in `ctx->vt`,
and nothing else writes that field: it keeps whatever `malloc` left there. `ui_pane_create`
calls `canvas_init` through it, and each pass of `rotate_panes` calls `rendering_show` through
it, and each such call is undefined (`neverSetVt`).

The abstract layer is the list of live panes, `PaneStorage.view`, and `PaneSpec`: what
creating and removing a pane are meant to do to that list, as `spec.md` says.
`uiPaneCreate_view` and `uiPaneRemove_refines` connect the two.

**What fails.** A creation of a new name whose copy `strdup` makes does not return: it calls
through the never-set `ctx->vt` (`uiPaneCreate_of_free`). Two return paths keep the mutex:
`UI_OOM` from `ui_pane_create`, and `UI_NO_SUCH_PANE` from the draw calls on an empty store
(`create_oom_keeps_lock`). And the draw calls' lookup loop leaves `p` at the last pane when no
pane has the name, so they draw there and answer `UI_OK` (`draw_missing_pane_draws_last`).
-/

namespace Ttds

/-- `enum ui_failure`. -/
inductive UiFailure
  | ok
  | duplicate
  | oom
  | noSuchPane
  deriving DecidableEq, Repr

/-- `struct pane`: the copy of its name and its canvas. -/
structure Pane where
  name : String
  canvas : Canvas

/-- `MAX_PANES`. -/
def maxPanes : Nat := 1024

/-- `struct pane_storage`: the slots `panes`, live below `count`, and whether `lock` is
held. -/
structure PaneStorage where
  slots : Nat → Pane
  count : Nat
  locked : Bool

/-- What the two allocations of a new pane give: whether `strdup` copies its name, and the
canvas `canvas_init` returns (`none` for `NULL`). Only `ui_ctx_new` reaches `canvas_init`, through
the `vt` it is given; `ui_pane_create` calls it through `ctx->vt`. -/
structure PaneAlloc where
  nameCopied : Bool
  canvas : Option Canvas

namespace PaneStorage

/-- `pthread_mutex_lock`: a held lock is never released, so the call never returns. -/
def lock (s : PaneStorage) : Option PaneStorage :=
  if s.locked then none else some { s with locked := true }

/-- `pthread_mutex_unlock`. -/
def unlock (s : PaneStorage) : PaneStorage := { s with locked := false }

/-- `panes[idx] = pane; count++`. -/
def push (s : PaneStorage) (pane : Pane) : PaneStorage :=
  { s with slots := Function.update s.slots s.count pane, count := s.count + 1 }

/-- Slot `i` with its canvas drawn on: `p->canvas` is drawn in place. -/
def setCanvas (s : PaneStorage) (i : Nat) (canvas : Canvas) : PaneStorage :=
  { s with slots := Function.update s.slots i { s.slots i with canvas } }

/-- The live panes `panes[0 .. count)`: the list `L` of the store's contract. -/
def view (s : PaneStorage) : List Pane := (List.range s.count).map s.slots

/-- The names of the live panes. -/
def names (s : PaneStorage) : List String := s.view.map (·.name)

end PaneStorage

/-! ## The calls -/

/-- A call through `ctx->vt`. `ui_ctx_new` never stores its `vt` there and nothing else writes
the field, so it holds whatever `malloc` left: the call is undefined, whichever function it names
and whatever it is passed. -/
def neverSetVt {α : Type} : Option α := none

/-- The background `ui_ctx_new` fills the root pane with. -/
def rootBackground : Color := ⟨0x22, 0x22, 0x88⟩

/-- `ui_ctx_new`, its pane store: one pane named `root`, filled with the background.
`garbage` is what `malloc` left in the slots. A `NULL` canvas is filled all the same, which is
undefined. -/
def uiCtxNew (alloc : PaneAlloc) (garbage : Nat → Pane) : Option PaneStorage := do
  unless alloc.nameCopied do none
  let canvas ← alloc.canvas
  let canvas ← renderingFill canvas rootBackground
  return ⟨Function.update garbage 0 ⟨"root", canvas⟩, 1, false⟩

/-- `ui_pane_create`. The duplicate scan releases the lock; both `UI_OOM` returns keep it. The
canvas comes from `ctx->vt.canvas_init`, a call through the never-set `ctx->vt`. -/
def uiPaneCreate (s : PaneStorage) (name : String) (fill : Color) (alloc : PaneAlloc) :
    Option (UiFailure × PaneStorage) := do
  let s ← s.lock
  if (List.range s.count).any fun i => (s.slots i).name == name then
    return (.duplicate, s.unlock)
  unless s.count < maxPanes do none
  unless alloc.nameCopied do return (.oom, s)
  let some canvas ← (neverSetVt : Option (Option Canvas)) | return (.oom, s)
  let canvas ← renderingFill canvas fill
  return (.ok, (s.push ⟨name, canvas⟩).unlock)

/-- The compaction loop of `ui_pane_remove`: for `j` from `i + 1` below `count`, slot `j - 1`
takes the name and canvas of slot `j`. -/
def shiftDown (slots : Nat → Pane) (i count : Nat) : Nat → Pane :=
  (List.range' (i + 1) (count - (i + 1))).foldl
    (fun slots j => Function.update slots (j - 1) (slots j)) slots

/-- `ui_pane_remove`: the first pane with the name is compacted away and `count` drops. -/
def uiPaneRemove (s : PaneStorage) (name : String) : Option (UiFailure × PaneStorage) := do
  let s ← s.lock
  match (List.range s.count).find? fun i => (s.slots i).name == name with
  | some i => return (.ok, { s with slots := shiftDown s.slots i s.count, count := s.count - 1 }.unlock)
  | none => return (.noSuchPane, s.unlock)

/-- The lookup loop of the draw calls: `p` is set to each slot in turn and the loop breaks at
the first one named `name`, so without a match `p` is left at the last slot it visited. -/
def lookupPane (slots : Nat → Pane) (name : String) : List Nat → Option Nat → Option Nat
  | [], p => p
  | i :: is, _ => if (slots i).name = name then some i else lookupPane slots name is (some i)

/-- `ui_pane_draw_rect` and `ui_pane_draw_circle`, over the rasterizer they run. `if (!p)`
returns without releasing the lock. -/
def uiPaneDraw (raster : Canvas → Option Canvas) (s : PaneStorage) (name : String) :
    Option (UiFailure × PaneStorage) := do
  let s ← s.lock
  let some i := lookupPane s.slots name (List.range s.count) none | return (.noSuchPane, s)
  let canvas ← raster (s.slots i).canvas
  return (.ok, (s.setCanvas i canvas).unlock)

/-- `ui_pane_draw_rect`. -/
def uiPaneDrawRect (s : PaneStorage) (name : String) (rect : Rect) (color : Color) :
    Option (UiFailure × PaneStorage) :=
  uiPaneDraw (renderingDrawRect · rect color) s name

/-- `ui_pane_draw_circle`. -/
def uiPaneDrawCircle (s : PaneStorage) (name : String) (circle : Circle) (color : Color) :
    Option (UiFailure × PaneStorage) :=
  uiPaneDraw (renderingDrawCircle · circle color) s name

/-- The pane a pass of `rotate_panes` takes: `idx = i % count`, a division by zero for a `count` of
zero. -/
def rotateIdx (count i : Nat) : Option Nat :=
  if count = 0 then none else some (i % count)

/-- One pass of `rotate_panes` up to its poll: take the lock, take pane `i % count`, show its
canvas with `ctx->vt.rendering_show`, a call through the never-set `ctx->vt`, and release the
lock. -/
def rotateTick (s : PaneStorage) (i : Nat) : Option PaneStorage := do
  let s ← s.lock
  let idx ← rotateIdx s.count i
  let _ ← ((fun _ => neverSetVt) : Canvas → Option Unit) (s.slots idx).canvas
  return s.unlock

/-- A call into the store: one of the four public calls, or a pass of the rotation thread. -/
inductive Call
  | create (name : String) (fill : Color) (alloc : PaneAlloc)
  | remove (name : String)
  | drawRect (name : String) (rect : Rect) (color : Color)
  | drawCircle (name : String) (circle : Circle) (color : Color)
  | tick (i : Nat)

/-- The store after a call that returns. -/
def Call.run : Call → PaneStorage → Option PaneStorage
  | .create name fill alloc, s => (uiPaneCreate s name fill alloc).map (·.2)
  | .remove name, s => (uiPaneRemove s name).map (·.2)
  | .drawRect name rect color, s => (uiPaneDrawRect s name rect color).map (·.2)
  | .drawCircle name circ color, s => (uiPaneDrawCircle s name circ color).map (·.2)
  | .tick i, s => rotateTick s i

/-! ## What the store is for -/

/-- `spec.md`'s `fill`: every pixel of the canvas holds the colour, with alpha `0xFF`. Every byte
of the buffer holds its place in `B, G, R, 0xFF`, so a pixel at any multiple of four reads back
as the colour. -/
def Canvas.filled (c : Canvas) (color : Color) : Canvas :=
  { c with buffer := fun k => if k < c.allocated then color.bgra.getD (k % 4) 0 else c.buffer k }

namespace PaneSpec

/-- Creating a pane, on the list of live panes, as `spec.md` says: a name already there is
refused; a store of `MAX_PANES` panes is a fatal error; a failed allocation changes nothing;
otherwise the pane, with the canvas `canvas_init` gave filled, goes last. -/
def create (L : List Pane) (name : String) (fill : Color) (alloc : PaneAlloc) :
    Option (UiFailure × List Pane) :=
  if name ∈ L.map (·.name) then some (.duplicate, L)
  else if maxPanes ≤ L.length then none
  else match alloc.nameCopied, alloc.canvas with
    | true, some canvas => some (.ok, L ++ [⟨name, canvas.filled fill⟩])
    | _, _ => some (.oom, L)

/-- Removing a pane, on the list of live panes: the entry of that name goes, the others keep
their order; a name not there is refused. -/
def remove (L : List Pane) (name : String) : UiFailure × List Pane :=
  if name ∈ L.map (·.name) then (.ok, L.filter fun pane => pane.name != name)
  else (.noSuchPane, L)

end PaneSpec

/-! ## The slots and the list of live panes -/

namespace PaneStorage

variable {s : PaneStorage}

theorem lock_of_free (h : s.locked = false) : s.lock = some { s with locked := true } := by
  simp [lock, h]

theorem lock_of_held (h : s.locked = true) : s.lock = none := by
  simp [lock, h]

theorem unlock_of_free (h : s.locked = false) : { s with locked := true }.unlock = s := by
  cases s; cases h; rfl

theorem push_unlock_of_free (h : s.locked = false) (pane : Pane) :
    ({ s with locked := true }.push pane).unlock = s.push pane := by
  cases s; cases h; rfl

@[simp] theorem view_locked (b : Bool) : { s with locked := b }.view = s.view := rfl

@[simp] theorem length_view : s.view.length = s.count := by
  simp [view]

theorem mem_names {name : String} : name ∈ s.names ↔ ∃ i < s.count, (s.slots i).name = name := by
  simp [names, view]

theorem view_push (pane : Pane) : (s.push pane).view = s.view ++ [pane] := by
  simp only [view, push, List.range_succ, List.map_append, List.map_singleton,
    Function.update_same]
  exact congrArg (· ++ [pane])
    (List.map_congr_left fun i hi => Function.update_noteq (List.mem_range.mp hi).ne _ _)

end PaneStorage

/-! ## Creating a pane -/

section Create

variable {s : PaneStorage} (name : String) (fill : Color) (alloc : PaneAlloc)

/-- `ui_pane_create` on a store whose lock is free, branch by branch: a name already there is
refused with the lock released; past the `assert`, a name `strdup` cannot copy is refused with the
lock kept, and otherwise the call through the never-set `ctx->vt` does not return. -/
theorem uiPaneCreate_of_free (h : s.locked = false) :
    uiPaneCreate s name fill alloc =
      if name ∈ s.names then some (.duplicate, s)
      else if maxPanes ≤ s.count then none
      else if alloc.nameCopied then none else some (.oom, { s with locked := true }) := by
  simp only [PaneStorage.mem_names, uiPaneCreate, PaneStorage.lock_of_free h, Option.some_bind,
    List.any_eq_true, List.mem_range, beq_iff_eq, Option.pure_def, Option.bind_eq_bind]
  by_cases hn : ∃ i < s.count, (s.slots i).name = name
  · simp only [hn, if_true, Option.some_bind, PaneStorage.unlock_of_free h]
  · by_cases hc : maxPanes ≤ s.count
    · simp only [hn, hc, if_false, if_true, not_lt.mpr hc, Option.none_bind]
    · cases hcopied : alloc.nameCopied <;>
        simp only [hn, hc, hcopied, if_false, if_true, Nat.lt_of_not_le hc, not_true_eq_false,
          Bool.false_eq_true, Option.some_bind, neverSetVt, Option.none_bind]

end Create

/-- Wherever `ui_pane_create` returns, it does on the list of live panes what `PaneSpec.create`
says. It never returns where `PaneSpec.create` adds the pane. -/
theorem uiPaneCreate_view {s s' : PaneStorage} {name : String} {fill : Color} {alloc : PaneAlloc}
    {r : UiFailure} (hl : s.locked = false) (h : uiPaneCreate s name fill alloc = some (r, s')) :
    PaneSpec.create s.view name fill alloc = some (r, s'.view) := by
  rw [uiPaneCreate_of_free name fill alloc hl] at h
  rw [PaneSpec.create, PaneStorage.length_view]
  unfold PaneStorage.names at h
  split_ifs at h ⊢ with hn hc hcopied
  · cases h; rfl
  · obtain ⟨copied, canvas⟩ := alloc
    cases h
    obtain rfl : copied = false := by simpa using hcopied
    cases canvas <;> rfl

/-! ## Removing a pane -/

section Remove

/-- The compaction loop over the slots `a, .., a + n - 1`: each slot from `a - 1` takes the
pane one above it, and the others keep theirs. -/
theorem foldl_shift : ∀ (n a : Nat) (g : Nat → Pane), 1 ≤ a →
    (List.range' a n).foldl (fun slots j => Function.update slots (j - 1) (slots j)) g =
      fun k => if a - 1 ≤ k ∧ k < a + n - 1 then g (k + 1) else g k
  | 0, a, g, _ => funext fun k => by
    rw [List.range'_zero, List.foldl_nil, if_neg (by omega)]
  | n + 1, a, g, ha => by
    rw [List.range'_succ, List.foldl_cons, foldl_shift n (a + 1) _ (by omega)]
    funext k
    simp only [Function.update_apply]
    split_ifs <;> first | rfl | omega | (congr 1; omega)

theorem shiftDown_apply {slots : Nat → Pane} {i count : Nat} (hi : i < count) (k : Nat) :
    shiftDown slots i count k = if i ≤ k ∧ k < count - 1 then slots (k + 1) else slots k := by
  rw [shiftDown, foldl_shift _ _ _ (by omega)]
  simp only [show i + 1 - 1 = i by omega, show i + 1 + (count - (i + 1)) - 1 = count - 1 by omega]

/-- After the compaction the live slots hold the list of live panes without entry `i`. -/
theorem view_shiftDown {s : PaneStorage} {i : Nat} (hi : i < s.count) :
    (List.range (s.count - 1)).map (shiftDown s.slots i s.count) = s.view.eraseIdx i := by
  apply List.ext_getElem
  · simp [List.length_eraseIdx, hi]
  · intro k h1 h2
    rw [List.length_map, List.length_range] at h1
    simp only [List.getElem_map, List.getElem_range, List.getElem_eraseIdx, PaneStorage.view,
      shiftDown_apply hi]
    split_ifs <;> first | rfl | omega

/-- With distinct names, dropping entry `i` is dropping the entry of its name. -/
theorem eraseIdx_eq_filter : ∀ {L : List Pane} {i : Nat} (hi : i < L.length),
    (L.map (·.name)).Nodup → L.eraseIdx i = L.filter fun pane => pane.name != L[i].name
  | p :: L, 0, _, hnd => by
    have hp : p.name ∉ L.map (·.name) := (List.nodup_cons.mp hnd).1
    rw [List.eraseIdx_cons_zero, List.getElem_cons_zero, List.filter_cons, if_neg (by simp)]
    exact (List.filter_eq_self.mpr fun q hq => show (q.name != p.name) = true from
      bne_iff_ne.mpr fun e => hp (e ▸ List.mem_map_of_mem (·.name) hq)).symm
  | p :: L, i + 1, hi, hnd => by
    have hp : p.name ∉ L.map (·.name) := (List.nodup_cons.mp hnd).1
    have hi' : i < L.length := Nat.lt_of_succ_lt_succ hi
    have hne : (p.name != L[i].name) = true :=
      bne_iff_ne.mpr fun e => hp (e ▸ List.mem_map_of_mem (·.name) (List.getElem_mem hi'))
    rw [List.eraseIdx_cons_succ, List.getElem_cons_succ, List.filter_cons, if_pos hne,
      eraseIdx_eq_filter hi' (List.nodup_cons.mp hnd).2]

/-- `ui_pane_remove` on a store whose lock is free: it always releases the lock. -/
theorem uiPaneRemove_of_free {s : PaneStorage} (h : s.locked = false) (name : String) :
    uiPaneRemove s name =
      match (List.range s.count).find? fun i => (s.slots i).name == name with
      | some i => some (.ok, { s with slots := shiftDown s.slots i s.count, count := s.count - 1 })
      | none => some (.noSuchPane, s) := by
  obtain ⟨slots, count, locked⟩ := s
  cases h
  simp only [uiPaneRemove, PaneStorage.lock, PaneStorage.unlock, Bool.false_eq_true, if_false,
    Option.bind_eq_bind, Option.some_bind]
  split <;> rfl

/-- On the list of live panes, `ui_pane_remove` does what `PaneSpec.remove` says, when the
names are distinct. -/
theorem uiPaneRemove_refines {s : PaneStorage} (h : s.locked = false) (hnd : s.names.Nodup)
    (name : String) :
    (uiPaneRemove s name).map (fun r => (r.1, r.2.view)) = some (PaneSpec.remove s.view name) := by
  rw [uiPaneRemove_of_free h, PaneSpec.remove]
  split
  · rename_i i hfind
    obtain ⟨hname, hi, -⟩ := List.find?_range_eq_some.mp hfind
    have hi' : i < s.view.length := by simpa using hi
    have hvi : s.view[i].name = name := by simpa [PaneStorage.view] using hname
    have hmem : name ∈ s.view.map (·.name) :=
      hvi ▸ List.mem_map_of_mem (·.name) (List.getElem_mem hi')
    rw [if_pos hmem, Option.map_some', ← hvi, ← eraseIdx_eq_filter hi' hnd]
    exact congrArg (fun L => some (UiFailure.ok, L)) (view_shiftDown (by simpa using hi))
  · rename_i hfind
    rw [if_neg]
    · rfl
    · simpa [PaneStorage.view, List.find?_eq_none] using hfind

end Remove

/-! ## Drawing on a pane -/

section Draw

variable {s : PaneStorage} (raster : Canvas → Option Canvas) (name : String)

/-- The lookup loop ends at the first slot with the name, else at the last slot it visited,
else where `p` started. -/
theorem lookupPane_eq (slots : Nat → Pane) : ∀ (l : List Nat) (p : Option Nat),
    lookupPane slots name l p = (l.find? fun i => (slots i).name = name).or (l.getLast?.or p)
  | [], _ => rfl
  | i :: is, p => by
    by_cases hi : (slots i).name = name
    · simp [lookupPane, hi]
    · rw [lookupPane, if_neg hi, lookupPane_eq slots is, List.find?_cons_of_neg _ (by simpa using hi),
        List.getLast?_cons]
      cases is.getLast? <;> rfl

theorem lookupPane_range (slots : Nat → Pane) (count : Nat) :
    lookupPane slots name (List.range count) none =
      ((List.range count).find? fun i => (slots i).name = name).or
        (if count = 0 then none else some (count - 1)) := by
  rw [lookupPane_eq, List.getLast?_range, Option.or_none]

/-- The draw calls on a store whose lock is free: `NULL` only for an empty store, where the
lock is kept. -/
theorem uiPaneDraw_of_free (h : s.locked = false) :
    uiPaneDraw raster s name =
      match lookupPane s.slots name (List.range s.count) none with
      | none => some (.noSuchPane, { s with locked := true })
      | some i => (raster (s.slots i).canvas).map fun canvas => (.ok, s.setCanvas i canvas) := by
  obtain ⟨slots, count, locked⟩ := s
  cases h
  cases hl : lookupPane slots name (List.range count) none <;>
    simp only [uiPaneDraw, PaneStorage.lock, Bool.false_eq_true, if_false, Option.bind_eq_bind,
      Option.some_bind, hl, Option.map_eq_bind] <;> rfl

namespace PaneStorage

@[simp] theorem count_setCanvas (i : Nat) (canvas : Canvas) : (s.setCanvas i canvas).count = s.count :=
  rfl

@[simp] theorem names_setCanvas (i : Nat) (canvas : Canvas) :
    (s.setCanvas i canvas).names = s.names := by
  simp only [names, view, setCanvas, List.map_map]
  exact List.map_congr_left fun j _ => by
    by_cases hj : j = i
    · subst hj; simp
    · simp [Function.update_noteq hj]

theorem setCanvas_slots_of_ne {i j : Nat} (hj : j ≠ i) (canvas : Canvas) :
    (s.setCanvas i canvas).slots j = s.slots j :=
  Function.update_noteq hj _ _

end PaneStorage

/-- A name that is there is held by some first live slot. -/
theorem PaneStorage.find_name_of_mem (hn : name ∈ s.names) :
    ∃ j, ((List.range s.count).find? fun i => (s.slots i).name = name) = some j := by
  obtain ⟨i, hi, hname⟩ := PaneStorage.mem_names.mp hn
  exact Option.isSome_iff_exists.mp
    (List.find?_isSome.mpr ⟨i, List.mem_range.mpr hi, by simpa using hname⟩)

/-- The draw runs on the first live slot holding the name. -/
theorem uiPaneDraw_of_find (h : s.locked = false) {j : Nat}
    (hfind : ((List.range s.count).find? fun i => (s.slots i).name = name) = some j) :
    uiPaneDraw raster s name =
      (raster (s.slots j).canvas).map fun canvas => (.ok, s.setCanvas j canvas) := by
  rw [uiPaneDraw_of_free raster name h, lookupPane_range, hfind]
  rfl

/-- A name that is there: the draw runs on the first pane of that name, no live slot before it
holding the name, answers `UI_OK` when the rasterizer returns, and leaves every other slot as it
was. -/
theorem uiPaneDraw_of_mem (h : s.locked = false) (hn : name ∈ s.names) :
    ∃ i < s.count, (s.slots i).name = name ∧ (∀ j < i, (s.slots j).name ≠ name) ∧
      uiPaneDraw raster s name =
        (raster (s.slots i).canvas).map fun canvas => (.ok, s.setCanvas i canvas) := by
  obtain ⟨j, hfind⟩ := s.find_name_of_mem name hn
  obtain ⟨hj, hjr, hfirst⟩ := List.find?_range_eq_some.mp hfind
  exact ⟨j, List.mem_range.mp hjr, by simpa using hj, fun k hk => by simpa using hfirst k hk,
    uiPaneDraw_of_find raster name h hfind⟩

/-- A fill of `root` on the store `ui_ctx_new` makes runs on slot `0`. -/
theorem uiPaneDraw_root_fill :
    ∃ s, uiCtxNew ⟨true, some ⟨1, 1, 4, 4, fun _ => 0⟩⟩ (fun _ => ⟨"", ⟨0, 0, 4, 0, fun _ => 0⟩⟩) =
        some s ∧ s.locked = false ∧ "root" ∈ s.names ∧
      ∃ i < s.count, (s.slots i).name = "root" ∧ (∀ j < i, (s.slots j).name ≠ "root") ∧
        uiPaneDraw (renderingFill · ⟨1, 2, 3⟩) s "root" =
          (renderingFill (s.slots i).canvas ⟨1, 2, 3⟩).map fun canvas => (.ok, s.setCanvas i canvas) :=
  ⟨_, rfl, rfl, by decide, uiPaneDraw_of_mem _ _ rfl (by decide)⟩

/-- A name that is not there, on a store with a pane: the loop leaves `p` at the last pane, so
the draw runs there and answers `UI_OK`. -/
theorem uiPaneDraw_of_not_mem (h : s.locked = false) (hc : 1 ≤ s.count) (hn : name ∉ s.names) :
    uiPaneDraw raster s name =
      (raster (s.slots (s.count - 1)).canvas).map fun canvas =>
        (.ok, s.setCanvas (s.count - 1) canvas) := by
  have hfind : ((List.range s.count).find? fun i => (s.slots i).name = name) = none :=
    List.find?_eq_none.mpr fun i hi => by
      simpa using fun e => hn (PaneStorage.mem_names.mpr ⟨i, List.mem_range.mp hi, e⟩)
  rw [uiPaneDraw_of_free raster name h, lookupPane_range, hfind, if_neg (by omega)]
  rfl

/-- On an empty store the draw calls answer `UI_NO_SUCH_PANE` and keep the lock. -/
theorem uiPaneDraw_of_empty (h : s.locked = false) (hc : s.count = 0) :
    uiPaneDraw raster s name = some (.noSuchPane, { s with locked := true }) := by
  rw [uiPaneDraw_of_free raster name h, lookupPane_range, hc]
  rfl

end Draw

/-! ## The rotation thread and the lock -/

/-- No pass of the rotation thread returns: one that takes the lock divides by a `count` of zero
or shows its pane through the never-set `ctx->vt`. -/
theorem rotateTick_eq_none (s : PaneStorage) (i : Nat) : rotateTick s i = none := by
  simp only [rotateTick, neverSetVt, Option.bind_eq_bind, Option.none_bind, Option.bind_none]

/-- A store whose lock is held answers no call: every public call and every pass of the rotation
thread blocks on the lock. -/
theorem Call.run_of_held {s : PaneStorage} (h : s.locked = true) (call : Call) :
    call.run s = none := by
  cases call <;> simp only [Call.run, uiPaneCreate, uiPaneRemove, uiPaneDrawRect,
    uiPaneDrawCircle, uiPaneDraw, rotateTick, PaneStorage.lock_of_held h, Option.bind_eq_bind,
    Option.none_bind, Option.map_none']

/-! ## The store `ui_ctx_new` makes -/

theorem uiCtxNew_eq_some {alloc : PaneAlloc} {garbage : Nat → Pane} {s : PaneStorage}
    (h : uiCtxNew alloc garbage = some s) :
    ∃ canvas c, alloc.canvas = some canvas ∧ renderingFill canvas rootBackground = some c ∧
      s = ⟨Function.update garbage 0 ⟨"root", c⟩, 1, false⟩ := by
  obtain ⟨copied, canvas⟩ := alloc
  cases copied
  · cases h
  · cases canvas with
    | none => cases h
    | some canvas =>
      obtain ⟨c, hc, h⟩ := Option.bind_eq_some.mp h
      exact ⟨canvas, c, rfl, hc, (Option.some.inj h).symm⟩

/-! ## Where the calls keep the lock -/

/-- From the store `ui_ctx_new` makes, a pane whose name `strdup` cannot copy is refused with
`UI_OOM` and the lock kept, after which no call and no pass of the rotation thread returns.
And once the root pane is removed, a draw answers `UI_NO_SUCH_PANE` with the lock kept. -/
theorem create_oom_keeps_lock :
    ∀ (fresh : Nat → UInt8) (garbage : Nat → Pane) (fill : Color) (canvas : Option Canvas)
      (rect : Rect) (color : Color),
      ∃ s, uiCtxNew ⟨true, some ⟨1, 1, 4, 4, fresh⟩⟩ garbage = some s ∧
        uiPaneCreate s "p" fill ⟨false, canvas⟩ = some (.oom, { s with locked := true }) ∧
        (∀ call : Call, call.run { s with locked := true } = none) ∧
        ∃ s₀, uiPaneRemove s "root" = some (.ok, s₀) ∧
          uiPaneDrawRect s₀ "root" rect color = some (.noSuchPane, { s₀ with locked := true }) := by
  intro fresh garbage fill canvas rect color
  refine ⟨_, rfl, ?_, Call.run_of_held rfl, ?_⟩
  · rw [uiPaneCreate_of_free _ _ _ rfl, if_neg (by simp [PaneStorage.names, PaneStorage.view]),
      if_neg (by simp [maxPanes]), if_neg Bool.false_ne_true]
  · rw [uiPaneRemove_of_free rfl]
    exact ⟨_, rfl, uiPaneDraw_of_empty _ _ rfl rfl⟩

/-- From the store `ui_ctx_new` makes on a three-by-three canvas, drawing on the pane `x`, which
is not there, draws on the root pane and answers `UI_OK`, for a rectangle and for a circle. -/
theorem draw_missing_pane_draws_last :
    ∀ (fresh : Nat → UInt8) (garbage : Nat → Pane) (color : Color),
      ∃ s, uiCtxNew ⟨true, some ⟨3, 3, 4, 36, fresh⟩⟩ garbage = some s ∧ s.names = ["root"] ∧
        (∃ s', uiPaneDrawRect s "x" ⟨0, 0, 1, 1⟩ color = some (.ok, s') ∧
          (s'.slots 0).canvas.buffer 2 = color.r) ∧
        ∃ s', uiPaneDrawCircle s "x" ⟨1, 1, 1⟩ color = some (.ok, s') ∧
          (s'.slots 0).canvas.buffer 18 = color.r := by
  intro fresh garbage color
  have hx : "x" ∉ ["root"] := by decide
  refine ⟨_, rfl, rfl, ?_, ?_⟩
  · rw [uiPaneDrawRect, uiPaneDraw_of_not_mem _ _ rfl le_rfl hx]
    exact ⟨_, rfl, rfl⟩
  · rw [uiPaneDrawCircle, uiPaneDraw_of_not_mem _ _ rfl le_rfl hx]
    exact ⟨_, rfl, rfl⟩

end Ttds
