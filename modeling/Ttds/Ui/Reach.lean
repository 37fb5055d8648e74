import Ttds.Ui.Store

/-!
# Runs of the pane store

A run starts from the store `ui_ctx_new` makes and makes calls one after another, each of which
returns: the four public calls with any names and arguments, and passes of the rotation
thread. Every call holds the lock for all its work, so any interleaving of callers is such a
run.

**The law** (`pane_store_contract`): the first store holds the one pane `root`, filled with the
background, and every store a run reaches has distinct names. The invariant is proved on
`PaneSpec` (`PaneSpec.create_cases`, `PaneSpec.remove_cases`) and carried to the slots by the
refinement lemmas. `PaneSpec.callAll` extends `PaneSpec` to every call, draws included, and
calls that return from a store with the invariant leave the list it gives, wherever it gives
one (`Call.runAll_view`). From such a store with its lock free, removals and draws return
wherever it gives one, with the lock free (`Call.runAll_of_spec`).

**What fails.** `ui_pane_create` calls `canvas_init` through the never-set `ctx->vt`, so no call
that returns adds a pane (`count_run_le`), and every store a run reaches holds at most the one
pane it started with. A store whose lock a call kept answers no call. Nothing stops
`ui_pane_remove` from removing the last pane: removing `root` from the first store leaves
`count` at zero, and the next pass of the rotation thread divides by it
(`remove_root_empties_store`). Runs that never remove the only pane keep one, and each pass then
selects a live pane (`pane_count_pos`), to show it through the never-set `ctx->vt`.
-/

namespace Ttds

/-- The stores reachable from `ui_ctx_new` by calls that return and that `allowed` lets
through. -/
inductive ReachableBy (allowed : PaneStorage → Call → Prop) : PaneStorage → Prop
  | init {s : PaneStorage} (alloc : PaneAlloc) (garbage : Nat → Pane) :
      uiCtxNew alloc garbage = some s → ReachableBy allowed s
  | step {s s' : PaneStorage} (call : Call) :
      ReachableBy allowed s → allowed s call → call.run s = some s' → ReachableBy allowed s'

/-- The stores reachable by any calls. -/
def Reachable (s : PaneStorage) : Prop :=
  ReachableBy (fun _ _ => True) s

/-! ## What one call does to the list of live panes -/

namespace PaneSpec

variable {L L' : List Pane} {name : String} {r : UiFailure}

/-- A creation leaves the list as it was or appends a pane of a new name below the bound. -/
theorem create_cases {fill : Color} {alloc : PaneAlloc}
    (h : create L name fill alloc = some (r, L')) :
    L' = L ∨ ∃ c, name ∉ L.map (·.name) ∧ L.length < maxPanes ∧ L' = L ++ [⟨name, c⟩] := by
  unfold create at h
  split_ifs at h with hn hc
  · exact .inl (Prod.mk.inj (Option.some.inj h)).2.symm
  · obtain ⟨copied, canvas⟩ := alloc
    cases copied <;> cases canvas <;> simp only [Option.some.injEq, Prod.mk.injEq] at h
    · exact .inl h.2.symm
    · exact .inl h.2.symm
    · exact .inl h.2.symm
    · exact .inr ⟨_, hn, by omega, h.2.symm⟩

/-- A removal keeps a sublist of the panes. -/
theorem remove_cases (h : remove L name = (r, L')) : L'.Sublist L := by
  unfold remove at h
  split_ifs at h
  · rw [← (Prod.mk.inj h).2]; exact List.filter_sublist L
  · rw [← (Prod.mk.inj h).2]

end PaneSpec

/-- A removal that returns, read on the list of live panes. -/
theorem uiPaneRemove_view {s s' : PaneStorage} {name : String} {r : UiFailure}
    (hl : s.locked = false) (hnd : s.names.Nodup) (h : uiPaneRemove s name = some (r, s')) :
    PaneSpec.remove s.view name = (r, s'.view) := by
  have := uiPaneRemove_refines hl hnd name
  rw [h] at this
  exact (Option.some.inj this).symm

/-! ## The invariant -/

/-- Distinct names and at most `MAX_PANES` panes. -/
structure StoreInv (s : PaneStorage) : Prop where
  nodup : s.names.Nodup
  bound : s.count ≤ maxPanes

theorem StoreInv.of_view {s s' : PaneStorage} (hs : StoreInv s)
    (h : s'.view = s.view ∨ ∃ c name, name ∉ s.names ∧ s.count < maxPanes ∧
      s'.view = s.view ++ [⟨name, c⟩]) : StoreInv s' := by
  have hn : s'.names = s'.view.map (·.name) := rfl
  have hc : s'.count = s'.view.length := (@PaneStorage.length_view s').symm
  rcases h with h | ⟨c, name, hname, hcount, h⟩
  · exact ⟨hn ▸ h ▸ hs.nodup, hc ▸ h ▸ s.length_view ▸ hs.bound⟩
  · refine ⟨?_, ?_⟩
    · rw [hn, h, List.map_append]
      exact hs.nodup.append (List.nodup_singleton _) (List.disjoint_singleton.mpr hname)
    · rw [hc, h, List.length_append, PaneStorage.length_view]
      exact hcount

theorem uiPaneDraw_frame {raster : Canvas → Option Canvas} {s s' : PaneStorage} {name : String}
    {r : UiFailure} (h : uiPaneDraw raster s name = some (r, s')) :
    s'.names = s.names ∧ s'.count = s.count := by
  cases hl : s.locked
  · rw [uiPaneDraw_of_free raster name hl] at h
    split at h
    · cases h; exact ⟨rfl, rfl⟩
    · obtain ⟨c, -, hc⟩ := Option.map_eq_some'.mp h
      cases hc
      exact ⟨PaneStorage.names_setCanvas _ _, rfl⟩
  · simp [uiPaneDraw, PaneStorage.lock_of_held hl, Option.bind_eq_bind] at h

/-- Every call that returns keeps the invariant. -/
theorem StoreInv.run {s s' : PaneStorage} (hs : StoreInv s) :
    ∀ call : Call, call.run s = some s' → StoreInv s' := by
  cases hl : s.locked
  case true => intro call h; rw [Call.run_of_held hl] at h; cases h
  intro call h
  cases call with
  | create name fill alloc =>
    obtain ⟨⟨r, s''⟩, hc, rfl⟩ := Option.map_eq_some'.mp h
    rcases PaneSpec.create_cases (uiPaneCreate_view hl hc) with h' | ⟨c, hn, hlt, h'⟩
    · exact hs.of_view (.inl h')
    · exact hs.of_view (.inr ⟨c, name, hn, by simpa using hlt, h'⟩)
  | remove name =>
    obtain ⟨⟨r, s''⟩, hc, rfl⟩ := Option.map_eq_some'.mp h
    have hsub := PaneSpec.remove_cases (uiPaneRemove_view hl hs.nodup hc)
    exact ⟨(hsub.map _).nodup hs.nodup,
      s''.length_view ▸ le_trans hsub.length_le (s.length_view ▸ hs.bound)⟩
  | drawRect name rect color | drawCircle name circ color =>
    obtain ⟨⟨r, s''⟩, hc, rfl⟩ := Option.map_eq_some'.mp h
    obtain ⟨hn, hcount⟩ := uiPaneDraw_frame hc
    exact ⟨hn ▸ hs.nodup, hcount ▸ hs.bound⟩
  | tick i => rw [Call.run, rotateTick_eq_none] at h; cases h

theorem StoreInv.of_uiCtxNew {alloc : PaneAlloc} {garbage : Nat → Pane} {s : PaneStorage}
    (h : uiCtxNew alloc garbage = some s) : StoreInv s := by
  obtain ⟨-, c, -, -, rfl⟩ := uiCtxNew_eq_some h
  exact ⟨List.nodup_singleton _, (by decide : 1 ≤ maxPanes)⟩

/-- Every reachable store keeps the invariant, whatever calls the run let through. -/
theorem StoreInv.of_reachableBy {allowed : PaneStorage → Call → Prop} {s : PaneStorage}
    (hs : ReachableBy allowed s) : StoreInv s := by
  induction hs with
  | init alloc garbage h => exact .of_uiCtxNew h
  | step call _ _ hrun ih => exact ih.run call hrun

/-! ## The count of panes -/

/-- A creation that returns refuses the name: it keeps the count. -/
theorem uiPaneCreate_count {s s' : PaneStorage} {name : String} {fill : Color}
    {alloc : PaneAlloc} {r : UiFailure} (h : uiPaneCreate s name fill alloc = some (r, s')) :
    s'.count = s.count := by
  cases hl : s.locked
  · rw [uiPaneCreate_of_free name fill alloc hl] at h
    split_ifs at h <;> cases h <;> rfl
  · simp only [uiPaneCreate, PaneStorage.lock_of_held hl, Option.bind_eq_bind, Option.none_bind,
      reduceCtorEq] at h

/-- No call that returns adds a pane. -/
theorem count_run_le {s s' : PaneStorage} : ∀ call : Call, call.run s = some s' →
    s'.count ≤ s.count
  | .create name fill alloc, h => by
    obtain ⟨⟨r, s''⟩, hc, rfl⟩ := Option.map_eq_some'.mp h
    exact (uiPaneCreate_count hc).le
  | .remove name, h => by
    obtain ⟨⟨r, s''⟩, hc, rfl⟩ := Option.map_eq_some'.mp h
    cases hl : s.locked
    · rw [uiPaneRemove_of_free hl] at hc
      split at hc <;> (cases hc; dsimp only; omega)
    · rw [Call.run_of_held hl] at h; cases h
  | .drawRect name rect color, h | .drawCircle name circ color, h => by
    obtain ⟨⟨r, s''⟩, hc, rfl⟩ := Option.map_eq_some'.mp h
    exact (uiPaneDraw_frame hc).2.le
  | .tick i, h => by rw [Call.run, rotateTick_eq_none] at h; cases h

/-- Every store a run reaches holds at most the one pane `ui_ctx_new` made. -/
theorem count_le_one_of_reachableBy {allowed : PaneStorage → Call → Prop} {s : PaneStorage}
    (hs : ReachableBy allowed s) : s.count ≤ 1 := by
  induction hs with
  | init alloc garbage h => obtain ⟨-, c, -, -, rfl⟩ := uiCtxNew_eq_some h; exact le_rfl
  | step call _ _ hrun ih => exact le_trans (count_run_le call hrun) ih

/-- The contract of the pane store, as the code keeps it. `ui_ctx_new` makes the store of the one
pane `root`, filled with the background, its lock free. Every store a run reaches has distinct
names and at most one pane. On such a store whose lock a call kept, no call returns. On one whose
lock is free, `ui_pane_create` refuses a name that is there with `UI_DUPLICATE`, refuses a name
`strdup` cannot copy with `UI_OOM` and the lock kept, and otherwise does not return, where
`PaneSpec.create` adds the pane; `ui_pane_remove` acts on the list of live panes as
`PaneSpec.remove` says. -/
theorem pane_store_contract :
    (∀ alloc garbage s, uiCtxNew alloc garbage = some s →
      ∃ canvas c, alloc.canvas = some canvas ∧ renderingFill canvas rootBackground = some c ∧
        s.view = [⟨"root", c⟩] ∧ s.locked = false) ∧
    ∀ s, Reachable s → s.names.Nodup ∧ s.count ≤ 1 ∧
      (s.locked = true → ∀ call : Call, call.run s = none) ∧
      (s.locked = false →
        (∀ name fill alloc, uiPaneCreate s name fill alloc =
          if name ∈ s.names then some (.duplicate, s)
          else if alloc.nameCopied then none else some (.oom, { s with locked := true })) ∧
        ∀ name, (uiPaneRemove s name).map (fun r => (r.1, r.2.view)) =
          some (PaneSpec.remove s.view name)) := by
  refine ⟨fun alloc garbage s h => ?_, fun s hs => ?_⟩
  · obtain ⟨canvas, c, hcanvas, hfill, rfl⟩ := uiCtxNew_eq_some h
    exact ⟨canvas, c, hcanvas, hfill, rfl, rfl⟩
  · have inv := StoreInv.of_reachableBy hs
    have hone := count_le_one_of_reachableBy hs
    refine ⟨inv.nodup, hone, Call.run_of_held, fun hl => ⟨fun name fill alloc => ?_,
      fun name => uiPaneRemove_refines hl inv.nodup name⟩⟩
    rw [uiPaneCreate_of_free name fill alloc hl,
      if_neg (show ¬maxPanes ≤ s.count by simp only [maxPanes]; omega)]

/-- Removing `root` from a store `ui_ctx_new` makes leaves a reachable store with no pane and
its lock free, on which every pass of the rotation thread divides by zero. -/
theorem remove_root_empties_store :
    ∃ s, Reachable s ∧ s.count = 0 ∧ s.locked = false ∧ ∀ i, rotateIdx s.count i = none :=
  ⟨_, .step (.remove "root")
      (.init ⟨true, some ⟨1, 1, 4, 4, fun _ => 0⟩⟩
        (fun _ => ⟨"", ⟨0, 0, 4, 0, fun _ => 0⟩⟩) rfl)
      trivial rfl,
    rfl, rfl, fun _ => rfl⟩

/-- A call that keeps a pane in the store: anything but removing the only one. -/
def KeepsPane (s : PaneStorage) : Call → Prop
  | .remove name => s.names ≠ [name]
  | _ => True

/-- A call that keeps a pane leaves one in a store that has one. -/
theorem count_pos_run {s s' : PaneStorage} (hpos : 1 ≤ s.count) :
    ∀ call : Call, KeepsPane s call → call.run s = some s' → 1 ≤ s'.count
  | .create name fill alloc, _, h => by
    obtain ⟨⟨r, s''⟩, hc, rfl⟩ := Option.map_eq_some'.mp h
    exact (uiPaneCreate_count hc).symm ▸ hpos
  | .remove name, hkeep, h => by
    cases hl : s.locked
    · obtain ⟨⟨r, s''⟩, hc, rfl⟩ := Option.map_eq_some'.mp h
      rw [uiPaneRemove_of_free hl] at hc
      split at hc
      · rename_i i hfind
        cases hc
        obtain ⟨hname, hi, -⟩ := List.find?_range_eq_some.mp hfind
        have hi' := List.mem_range.mp hi
        show 1 ≤ s.count - 1
        by_contra hone
        have hcount : s.count = 1 := by omega
        obtain rfl : i = 0 := by omega
        refine hkeep ?_
        rw [PaneStorage.names, PaneStorage.view, hcount]
        exact congrArg (· :: []) (by simpa using hname)
      · cases hc; exact hpos
    · rw [Call.run_of_held hl] at h; cases h
  | .drawRect name rect color, _, h | .drawCircle name circ color, _, h => by
    obtain ⟨⟨r, s''⟩, hc, rfl⟩ := Option.map_eq_some'.mp h
    exact (uiPaneDraw_frame hc).2 ▸ hpos
  | .tick i, _, h => by rw [Call.run, rotateTick_eq_none] at h; cases h

/-- In every store reachable by calls none of which removes the store's only pane, there is a
pane, and every pass of the rotation thread takes `idx = i % count` without dividing by zero:
it selects a live pane. -/
theorem pane_count_pos (s : PaneStorage) (hs : ReachableBy KeepsPane s) :
    1 ≤ s.count ∧ ∀ i, rotateIdx s.count i = some (i % s.count) ∧ i % s.count < s.count := by
  have hpos : 1 ≤ s.count := by
    induction hs with
    | init alloc garbage h => obtain ⟨-, c, -, -, rfl⟩ := uiCtxNew_eq_some h; exact le_rfl
    | step call _ hkeep hrun ih => exact count_pos_run ih call hkeep hrun
  exact ⟨hpos, fun i => ⟨if_neg (by omega), Nat.mod_lt _ hpos⟩⟩

/-- The first store, with its one pane `root`, keeps a pane. -/
theorem pane_count_pos_root :
    ∃ s, uiCtxNew ⟨true, some ⟨1, 1, 4, 4, fun _ => 0⟩⟩ (fun _ => ⟨"", ⟨0, 0, 4, 0, fun _ => 0⟩⟩) =
        some s ∧
      1 ≤ s.count ∧ ∀ i, rotateIdx s.count i = some (i % s.count) ∧ i % s.count < s.count :=
  ⟨_, rfl, pane_count_pos _
    (.init ⟨true, some ⟨1, 1, 4, 4, fun _ => 0⟩⟩ (fun _ => ⟨"", ⟨0, 0, 4, 0, fun _ => 0⟩⟩)
      rfl)⟩

/-! ## Runs of calls against the list of live panes -/

/-- The store after calls one after another, each of which returns. -/
def Call.runAll : List Call → PaneStorage → Option PaneStorage
  | [], s => some s
  | c :: cs, s => (c.run s).bind (Call.runAll cs)

/-- Calls from a store whose lock is held end, if they return, with the lock held. -/
theorem Call.runAll_of_held {s s' : PaneStorage} (h : s.locked = true) :
    ∀ {cs : List Call}, Call.runAll cs s = some s' → s'.locked = true
  | [], hrun => by cases hrun; exact h
  | c :: cs, hrun => by simp [Call.runAll, Call.run_of_held h] at hrun

namespace PaneSpec

/-- Drawing on a pane, on the list of live panes: the first pane of that name gets the canvas the
rasterizer returns. What a draw on a name that is not there should do is left open (`none`). -/
def draw (raster : Canvas → Option Canvas) (name : String) : List Pane → Option (List Pane)
  | [] => none
  | pane :: L =>
    if pane.name = name then (raster pane.canvas).map fun canvas => ⟨name, canvas⟩ :: L
    else (draw raster name L).map (pane :: ·)

/-- A call, on the list of live panes. A pass of the rotation thread changes none. -/
def call : Call → List Pane → Option (List Pane)
  | .create name fill alloc, L => (create L name fill alloc).map (·.2)
  | .remove name, L => some (remove L name).2
  | .drawRect name rect color, L => draw (renderingDrawRect · rect color) name L
  | .drawCircle name circ color, L => draw (renderingDrawCircle · circ color) name L
  | .tick _, L => some L

/-- Calls one after another, on the list of live panes. -/
def callAll : List Call → List Pane → Option (List Pane)
  | [], L => some L
  | c :: cs, L => (call c L).bind (callAll cs)

variable {raster : Canvas → Option Canvas} {name : String}

theorem draw_of_not_mem : ∀ {L : List Pane}, name ∉ L.map (·.name) → draw raster name L = none
  | [], _ => rfl
  | pane :: L, h => by
    rw [List.map_cons, List.mem_cons, not_or] at h
    rw [draw, if_neg (Ne.symm h.1), draw_of_not_mem h.2]
    rfl

/-- The draw lands on the first pane of the name. -/
theorem draw_of_first {L : List Pane} {i : Nat} (hi : i < L.length) (hname : L[i].name = name)
    (hfirst : ∀ j (hj : j < i), L[j].name ≠ name) :
    draw raster name L = (raster L[i].canvas).map fun canvas => L.set i ⟨name, canvas⟩ := by
  induction L generalizing i with
  | nil => exact absurd hi (Nat.not_lt_zero _)
  | cons pane L ih =>
    cases i with
    | zero =>
      rw [draw, if_pos (show pane.name = name from hname)]
      rfl
    | succ i =>
      rw [draw, if_neg (show pane.name ≠ name from hfirst 0 i.succ_pos),
        ih (Nat.lt_of_succ_lt_succ hi) hname fun j hj => hfirst (j + 1) (by omega), Option.map_map]
      rfl

end PaneSpec

theorem PaneStorage.view_setCanvas (s : PaneStorage) (i : Nat) (canvas : Canvas) :
    (s.setCanvas i canvas).view = s.view.set i { s.slots i with canvas } := by
  refine List.ext_getElem (by simp [PaneStorage.view, PaneStorage.setCanvas]) fun j _ _ => ?_
  simp only [PaneStorage.view, PaneStorage.setCanvas, List.getElem_map, List.getElem_range,
    List.getElem_set, Function.update_apply]
  by_cases hj : i = j
  · simp [hj]
  · simp [hj, Ne.symm hj]

theorem PaneSpec.mem_of_draw {raster : Canvas → Option Canvas} {name : String} {L L' : List Pane}
    (h : PaneSpec.draw raster name L = some L') : name ∈ L.map (·.name) := by
  by_contra hn
  rw [PaneSpec.draw_of_not_mem hn] at h
  cases h

/-- On the list of live panes, a draw on a name that is there does what `PaneSpec.draw` says. -/
theorem uiPaneDraw_refines (raster : Canvas → Option Canvas) {s : PaneStorage} {name : String}
    (hl : s.locked = false) (hn : name ∈ s.names) :
    (uiPaneDraw raster s name).map (fun r => (r.1, r.2.view)) =
      (PaneSpec.draw raster name s.view).map fun L => (.ok, L) := by
  obtain ⟨i, hi, hname⟩ := PaneStorage.mem_names.mp hn
  obtain ⟨i, hfind⟩ :
      ∃ j, ((List.range s.count).find? fun i => (s.slots i).name = name) = some j :=
    Option.isSome_iff_exists.mp
      (List.find?_isSome.mpr ⟨i, List.mem_range.mpr hi, by simpa using hname⟩)
  obtain ⟨hname, hi, hbefore⟩ := List.find?_range_eq_some.mp hfind
  have hname : (s.slots i).name = name := of_decide_eq_true hname
  have hi : i < s.view.length := by simpa using List.mem_range.mp hi
  have hvi : s.view[i] = s.slots i := by simp [PaneStorage.view]
  rw [uiPaneDraw_of_free raster name hl, lookupPane_range, hfind, Option.or_some,
    PaneSpec.draw_of_first hi (hvi ▸ hname)
      fun j hj => by simpa [PaneStorage.view] using hbefore j hj, hvi]
  simp only [Option.map_map, Function.comp_def, PaneStorage.view_setCanvas, hname]

/-- A draw that returns, read on the list of live panes: wherever `PaneSpec.draw` says what it
does, it does that. -/
theorem uiPaneDraw_view {raster : Canvas → Option Canvas} {s s' : PaneStorage} {name : String}
    {r : UiFailure} (hl : s.locked = false) (h : uiPaneDraw raster s name = some (r, s'))
    {L' : List Pane} (hspec : PaneSpec.draw raster name s.view = some L') : L' = s'.view := by
  have := uiPaneDraw_refines raster hl (PaneSpec.mem_of_draw hspec)
  rw [h, hspec] at this
  exact (Prod.mk.inj (Option.some.inj this)).2.symm

/-- Wherever `PaneSpec.draw` says what a draw does, the draw returns with the lock free and
leaves that list. -/
theorem uiPaneDraw_of_spec {raster : Canvas → Option Canvas} {s : PaneStorage} {name : String}
    (hl : s.locked = false) {L' : List Pane} (hspec : PaneSpec.draw raster name s.view = some L') :
    ∃ s', uiPaneDraw raster s name = some (.ok, s') ∧ s'.locked = false ∧ s'.view = L' := by
  have hn := PaneSpec.mem_of_draw hspec
  obtain ⟨i, hfind⟩ := s.find_name_of_mem name hn
  have hdraw := uiPaneDraw_of_find raster name hl hfind
  have := uiPaneDraw_refines raster hl hn
  rw [hspec, hdraw, Option.map_map] at this
  obtain ⟨c, hc, hv⟩ := Option.map_eq_some'.mp this
  rw [hdraw, hc]
  exact ⟨_, rfl, hl, (Prod.mk.inj hv).2⟩

/-- Every removal releases the lock. -/
theorem uiPaneRemove_unlocks {s s' : PaneStorage} {name : String} {r : UiFailure}
    (hl : s.locked = false) (h : uiPaneRemove s name = some (r, s')) : s'.locked = false := by
  rw [uiPaneRemove_of_free hl] at h
  split at h <;> (cases h; exact hl)

/-- One call that returns, read on the list of live panes: wherever `PaneSpec.call` says what it
does, it does that. -/
theorem Call.run_view {s s' : PaneStorage} (hl : s.locked = false) (hnd : s.names.Nodup) :
    ∀ c : Call, c.run s = some s' → ∀ {L'}, PaneSpec.call c s.view = some L' → L' = s'.view
  | .create name fill alloc, h, L', hspec => by
    obtain ⟨⟨r, s''⟩, hc, rfl⟩ := Option.map_eq_some'.mp h
    rw [PaneSpec.call, uiPaneCreate_view hl hc] at hspec
    exact (Option.some.inj hspec).symm
  | .remove name, h, L', hspec => by
    obtain ⟨⟨r, s''⟩, hc, rfl⟩ := Option.map_eq_some'.mp h
    rw [PaneSpec.call, uiPaneRemove_view hl hnd hc] at hspec
    exact (Option.some.inj hspec).symm
  | .drawRect name rect color, h, L', hspec | .drawCircle name circ color, h, L', hspec => by
    obtain ⟨⟨r, s''⟩, hc, rfl⟩ := Option.map_eq_some'.mp h
    exact uiPaneDraw_view hl hc hspec
  | .tick i, h, _, _ => by rw [Call.run, rotateTick_eq_none] at h; cases h

/-- Calls that return, from a store with the invariant, read on the list of live panes: wherever
`PaneSpec.callAll` says what they do, they do that. -/
theorem Call.runAll_view : ∀ {cs : List Call} {s s' : PaneStorage}, StoreInv s →
    Call.runAll cs s = some s' → ∀ {L'}, PaneSpec.callAll cs s.view = some L' → L' = s'.view
  | [], _, _, _, h, _, hspec => by cases h; exact (Option.some.inj hspec).symm
  | c :: cs, s, s', hs, h, L', hspec => by
    obtain ⟨s₁, hrun, hrest⟩ := Option.bind_eq_some.mp h
    obtain ⟨L₁, hcall, hspec'⟩ := Option.bind_eq_some.mp hspec
    cases hl : s.locked
    · rw [Call.run_view hl hs.nodup c hrun hcall] at hspec'
      exact Call.runAll_view (hs.run c hrun) hrest hspec'
    · rw [Call.run_of_held hl] at hrun; cases hrun

/-- A call of the command thread that returns wherever `PaneSpec` says what it does, with the lock
free: a removal or a draw. A creation of a new name does not return, and one `strdup` refuses
keeps the lock. -/
def Call.Granted : Call → Prop
  | .create .. | .tick _ => False
  | _ => True

/-- A granted call from a store whose lock is free: wherever `PaneSpec.call` says what it does,
it returns with the lock free and leaves that list. -/
theorem Call.run_of_spec {s : PaneStorage} (hl : s.locked = false) (hnd : s.names.Nodup) :
    ∀ c : Call, c.Granted → ∀ {L'}, PaneSpec.call c s.view = some L' →
      ∃ s', c.run s = some s' ∧ s'.locked = false ∧ s'.view = L'
  | .create .., h, _, _ | .tick _, h, _, _ => h.elim
  | .remove name, _, L', hspec => by
    obtain ⟨⟨r, s'⟩, hc, hv⟩ := Option.map_eq_some'.mp (uiPaneRemove_refines hl hnd name)
    rw [PaneSpec.call, ← hv] at hspec
    exact ⟨s', by rw [Call.run, hc]; rfl, uiPaneRemove_unlocks hl hc, Option.some.inj hspec⟩
  | .drawRect name rect color, _, L', hspec | .drawCircle name circ color, _, L', hspec => by
    obtain ⟨s', hc, hl', hv⟩ := uiPaneDraw_of_spec hl hspec
    exact ⟨s', by simp only [Call.run, uiPaneDrawRect, uiPaneDrawCircle, hc, Option.map_some'],
      hl', hv⟩

/-- Granted calls from a store with the invariant whose lock is free: wherever `PaneSpec.callAll`
says what they do, they return with the lock free and leave that list. -/
theorem Call.runAll_of_spec : ∀ {cs : List Call} {s : PaneStorage}, StoreInv s →
    s.locked = false → (∀ c ∈ cs, c.Granted) → ∀ {L'}, PaneSpec.callAll cs s.view = some L' →
      ∃ s', Call.runAll cs s = some s' ∧ s'.locked = false ∧ s'.view = L'
  | [], s, _, hl, _, _, hspec => ⟨s, rfl, hl, Option.some.inj hspec⟩
  | c :: cs, s, hs, hl, hg, L', hspec => by
    obtain ⟨hc, hcs⟩ := List.forall_mem_cons.mp hg
    obtain ⟨L₁, hcall, hrest⟩ := Option.bind_eq_some.mp hspec
    obtain ⟨s₁, hrun, hl₁, rfl⟩ := Call.run_of_spec hl hs.nodup c hc hcall
    obtain ⟨s', hrun', hl', hv⟩ := Call.runAll_of_spec (hs.run c hrun) hl₁ hcs hrest
    exact ⟨s', by rw [Call.runAll, hrun, Option.some_bind, hrun'], hl', hv⟩

end Ttds
