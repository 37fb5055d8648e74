import Mathlib.Data.List.Basic

/-!
# Stopping the rotation thread

`ui_thread` starts `rotate_panes`, waits for a termination signal, writes one byte to the
cancellation pipe, joins the rotation thread, and frees the panes and the backend.
`rotate_panes` loops: take the lock, show a pane, release the lock, `poll` the pipe for one
second, and leave the loop when `poll` reported the pipe readable:

```c
for (size_t i = 0;; i++) {
	pthread_mutex_lock(&ctx->panes.lock);
	...
	ctx->vt.rendering_show(ctx->r_ctx, p->canvas);
	pthread_mutex_unlock(&ctx->panes.lock);
	poll(fds, 1, 1000);
	if (fds[0].revents &= POLLIN)
		break;
}
```

Each thread is a step function on its program counter; an interleaving is any path of steps of
either thread. A `poll` that succeeds returns at one instant, on readiness or on its timeout,
and reports the pipe readable exactly when the byte is in it then; the byte is never read, so
once written it stays. Which pane is shown, and the lock's contention with the store's calls,
are the pane store's business (`rotateTick`).

**The law** (`shutdown_order`): in every interleaving, the rotation thread leaves its loop only
after the byte is written; at most one `rendering_show` begins after the write, and none after
the `poll` that sees the byte; and the teardown starts only after the rotation thread has
returned. The write may land between a `poll` that timed out and its check: that pass then
shows one more pane (`shutdown_order_late_write`).
-/

namespace Ttds

/-- Where `rotate_panes` is: at the statement it runs next, or returned. -/
inductive RotatePc
  | atLock
  | atShow
  | atUnlock
  | atPoll
  | atCheck
  | returned
  deriving DecidableEq, Repr

/-- Where `ui_thread` is after `term_block`: at the write, the join, the teardown, or done. -/
inductive UiPc
  | atWrite
  | atJoin
  | atTeardown
  | finished
  deriving DecidableEq, Repr

/-- The two threads and what they share: whether the cancellation byte is in the pipe, and
`fds[0].revents & POLLIN` after the last `poll`. -/
structure Shutdown where
  rotate : RotatePc
  ui : UiPc
  pipeByte : Bool
  revents : Bool
  deriving DecidableEq, Repr

/-- The threads as `ui_thread` leaves them when it blocks in `term_block`. -/
def Shutdown.init : Shutdown := ⟨.atLock, .atWrite, false, false⟩

/-- What a step does, as a trace sees it. -/
inductive Event
  | mutexLock
  | renderingShow
  | mutexUnlock
  /-- `poll` returns; `ready` is whether it reports the pipe readable. -/
  | poll (ready : Bool)
  /-- The readiness check fails: `i++` and the next pass. -/
  | nextPass
  /-- The readiness check succeeds: `break`, and `rotate_panes` returns. -/
  | leaveLoop
  | writeCancel
  | join
  | teardown
  deriving DecidableEq, Repr

/-- One step of `rotate_panes`. -/
def rotateStep (s : Shutdown) : Option (Event × Shutdown) :=
  match s.rotate with
  | .atLock => some (.mutexLock, { s with rotate := .atShow })
  | .atShow => some (.renderingShow, { s with rotate := .atUnlock })
  | .atUnlock => some (.mutexUnlock, { s with rotate := .atPoll })
  | .atPoll => some (.poll s.pipeByte, { s with rotate := .atCheck, revents := s.pipeByte })
  | .atCheck =>
    if s.revents then some (.leaveLoop, { s with rotate := .returned })
    else some (.nextPass, { s with rotate := .atLock })
  | .returned => none

/-- One step of `ui_thread`: `pthread_join` waits for `rotate_panes` to return. -/
def uiStep (s : Shutdown) : Option (Event × Shutdown) :=
  match s.ui with
  | .atWrite => some (.writeCancel, { s with ui := .atJoin, pipeByte := true })
  | .atJoin => if s.rotate = .returned then some (.join, { s with ui := .atTeardown }) else none
  | .atTeardown => some (.teardown, { s with ui := .finished })
  | .finished => none

/-- A step of either thread. -/
def Step (s : Shutdown) (e : Event) (s' : Shutdown) : Prop :=
  rotateStep s = some (e, s') ∨ uiStep s = some (e, s')

/-- An interleaving from `s` to `s'`, with the events it shows. -/
inductive Path : Shutdown → List Event → Shutdown → Prop
  | nil (s : Shutdown) : Path s [] s
  | cons {s s' s'' : Shutdown} {e : Event} {l : List Event} :
      Step s e s' → Path s' l s'' → Path s (e :: l) s''

/-! ## What one step can do -/

/-- When event `e` can happen. -/
def Event.Enabled (s : Shutdown) : Event → Prop
  | .mutexLock => s.rotate = .atLock
  | .renderingShow => s.rotate = .atShow
  | .mutexUnlock => s.rotate = .atUnlock
  | .poll ready => s.rotate = .atPoll ∧ ready = s.pipeByte
  | .nextPass => s.rotate = .atCheck ∧ s.revents = false
  | .leaveLoop => s.rotate = .atCheck ∧ s.revents = true
  | .writeCancel => s.ui = .atWrite
  | .join => s.ui = .atJoin ∧ s.rotate = .returned
  | .teardown => s.ui = .atTeardown

/-- The state event `e` leads to. -/
def Event.apply (s : Shutdown) : Event → Shutdown
  | .mutexLock => { s with rotate := .atShow }
  | .renderingShow => { s with rotate := .atUnlock }
  | .mutexUnlock => { s with rotate := .atPoll }
  | .poll ready => { s with rotate := .atCheck, revents := ready }
  | .nextPass => { s with rotate := .atLock }
  | .leaveLoop => { s with rotate := .returned }
  | .writeCancel => { s with ui := .atJoin, pipeByte := true }
  | .join => { s with ui := .atTeardown }
  | .teardown => { s with ui := .finished }

theorem rotateStep_cases {s s' : Shutdown} {e : Event} (h : rotateStep s = some (e, s')) :
    e.Enabled s ∧ s' = e.apply s := by
  obtain ⟨rotate, ui, pipeByte, revents⟩ := s
  cases rotate <;> cases revents <;> simp [rotateStep] at h <;> obtain ⟨rfl, rfl⟩ := h <;>
    exact ⟨by simp [Event.Enabled], rfl⟩

theorem uiStep_cases {s s' : Shutdown} {e : Event} (h : uiStep s = some (e, s')) :
    e.Enabled s ∧ s' = e.apply s := by
  obtain ⟨rotate, ui, pipeByte, revents⟩ := s
  cases ui <;> simp only [uiStep] at h
  case atWrite | atTeardown =>
    obtain ⟨rfl, rfl⟩ := Prod.mk.inj (Option.some.inj h)
    exact ⟨rfl, rfl⟩
  case atJoin =>
    split at h
    · obtain ⟨rfl, rfl⟩ := Prod.mk.inj (Option.some.inj h)
      exact ⟨⟨rfl, ‹_›⟩, rfl⟩
    · cases h
  case finished => cases h

/-- Every step is one of the events, enabled where it happens. -/
theorem Step.cases {s s' : Shutdown} {e : Event} (h : Step s e s') :
    e.Enabled s ∧ s' = e.apply s :=
  h.elim rotateStep_cases uiStep_cases

/-! ## Along an interleaving -/

theorem Path.split {c : Shutdown} {post : List Event} :
    ∀ {a : Shutdown} {pre : List Event}, Path a (pre ++ post) c →
      ∃ b, Path a pre b ∧ Path b post c
  | a, [], h => ⟨a, .nil a, h⟩
  | _, _ :: _, .cons hstep h =>
    let ⟨b, h₁, h₂⟩ := Path.split h
    ⟨b, .cons hstep h₁, h₂⟩

/-- What holds in every state an interleaving from the start reaches. -/
structure ShutdownInv (s : Shutdown) : Prop where
  byte_of_ready : s.revents = true → s.pipeByte = true
  returned_of_joined : s.ui = .atTeardown ∨ s.ui = .finished → s.rotate = .returned

theorem ShutdownInv.step {s : Shutdown} (hs : ShutdownInv s) :
    ∀ e : Event, e.Enabled s → ShutdownInv (e.apply s) := by
  obtain ⟨hready, hjoined⟩ := hs
  intro e he
  cases e <;> refine ⟨fun hr => ?_, fun hu => ?_⟩ <;>
    simp_all [Event.Enabled, Event.apply]

theorem Path.inv {a b : Shutdown} {l : List Event} (h : Path a l b) (ha : ShutdownInv a) :
    ShutdownInv b := by
  induction h with
  | nil => exact ha
  | cons hstep _ ih =>
    obtain ⟨he, rfl⟩ := hstep.cases
    exact ih (ha.step _ he)

/-- A property that only event `e` can bring about holds at the end of an interleaving only if it
held at its start or `e` is on it. -/
theorem Path.flag (P : Shutdown → Prop) (e : Event)
    (hstep : ∀ s e', e'.Enabled s → e' ≠ e → P (e'.apply s) → P s) :
    ∀ {a b : Shutdown} {l : List Event}, Path a l b → P b → P a ∨ e ∈ l
  | _, _, _, .nil _, hb => .inl hb
  | _, _, e' :: _, .cons hs h, hb => by
    obtain ⟨he, rfl⟩ := hs.cases
    rcases Path.flag P e hstep h hb with hp | hmem
    · by_cases heq : e' = e
      · exact .inr (heq ▸ List.mem_cons_self _ _)
      · exact .inl (hstep _ _ he heq hp)
    · exact .inr (List.mem_cons_of_mem _ hmem)

theorem Path.pipeByte {a b : Shutdown} {l : List Event} (h : Path a l b)
    (hb : b.pipeByte = true) : a.pipeByte = true ∨ .writeCancel ∈ l :=
  Path.flag (·.pipeByte = true) .writeCancel (fun s e' _ hne hp => by
    cases e' <;> simp_all [Event.apply]) h hb

theorem Path.returned {a b : Shutdown} {l : List Event} (h : Path a l b)
    (hb : b.rotate = .returned) : a.rotate = .returned ∨ .leaveLoop ∈ l :=
  Path.flag (·.rotate = .returned) .leaveLoop (fun s e' he hne hp => by
    cases e' <;> simp_all [Event.Enabled, Event.apply]) h hb

/-- The `rendering_show` calls the rotation thread can still begin once the byte is in the
pipe: one before its next `poll`, none after it. -/
def showBudget (s : Shutdown) : Nat :=
  match s.rotate, s.revents with
  | .atLock, _ | .atShow, _ | .atCheck, false => 1
  | _, _ => 0

theorem showBudget_le_one (s : Shutdown) : showBudget s ≤ 1 := by
  unfold showBudget; split <;> omega

/-- Once the byte is in the pipe, an interleaving begins at most `showBudget` more
`rendering_show` calls. -/
theorem Path.count_show_le {a b : Shutdown} {l : List Event} (h : Path a l b)
    (hw : a.pipeByte = true) : l.count .renderingShow ≤ showBudget a := by
  induction h with
  | nil => exact Nat.zero_le _
  | @cons s s' s'' e l hstep _ ih =>
    obtain ⟨he, rfl⟩ := hstep.cases
    have ih := ih (by cases e <;> simp_all [Event.apply])
    rw [List.count_cons]
    cases e <;> simp_all [Event.Enabled, Event.apply, showBudget]

/-! ## The order of the shutdown -/

/-- The order the shutdown promises, on a trace. -/
structure ShutdownOrdered (tr : List Event) : Prop where
  leave_after_write : ∀ pre post, tr = pre ++ .leaveLoop :: post → .writeCancel ∈ pre
  one_show_after_write :
    ∀ pre post, tr = pre ++ .writeCancel :: post → post.count .renderingShow ≤ 1
  no_show_after_ready : ∀ pre post, tr = pre ++ .poll true :: post → .renderingShow ∉ post
  teardown_after_return : ∀ pre post, tr = pre ++ .teardown :: post → .leaveLoop ∈ pre

/-- An event of an interleaving from the start happens in a state that keeps the invariant. -/
theorem Path.at_event {s : Shutdown} {pre post : List Event} {e : Event}
    (h : Path Shutdown.init (pre ++ e :: post) s) :
    ∃ b, ShutdownInv b ∧ e.Enabled b ∧ Path Shutdown.init pre b ∧ Path (e.apply b) post s := by
  obtain ⟨b, h₁, h₂⟩ := Path.split h
  cases h₂ with
  | cons hstep h₂ =>
    obtain ⟨he, rfl⟩ := hstep.cases
    exact ⟨b, h₁.inv ⟨by decide, by decide⟩, he, h₁, h₂⟩

/-- In every interleaving of `rotate_panes` with `ui_thread`, the rotation thread leaves its
loop only after the byte is written, begins at most one `rendering_show` after the write and
none after the `poll` that sees the byte, and the teardown starts only after it returned. -/
theorem shutdown_order (tr : List Event) (s : Shutdown) (h : Path Shutdown.init tr s) :
    ShutdownOrdered tr := by
  constructor
  · rintro pre post rfl
    obtain ⟨b, hinv, ⟨-, hready⟩, hpre, -⟩ := Path.at_event h
    exact (hpre.pipeByte (hinv.byte_of_ready hready)).resolve_left (by decide)
  · rintro pre post rfl
    obtain ⟨b, -, -, -, hpost⟩ := Path.at_event h
    exact le_trans (hpost.count_show_le rfl) (showBudget_le_one _)
  · rintro pre post rfl
    obtain ⟨b, -, ⟨hpoll, hbyte⟩, -, hpost⟩ := Path.at_event h
    have := hpost.count_show_le hbyte.symm
    simp only [Event.apply, showBudget, Nat.le_zero, List.count_eq_zero] at this
    exact this
  · rintro pre post rfl
    obtain ⟨b, hinv, hteardown, hpre, -⟩ := Path.at_event h
    exact (hpre.returned (hinv.returned_of_joined (.inl hteardown))).resolve_left (by decide)

/-! ## Schedules -/

/-- The thread a scheduler lets move. -/
inductive Thread
  | rotate
  | ui
  deriving DecidableEq, Repr

/-- The step of a thread. -/
def Thread.step : Thread → Shutdown → Option (Event × Shutdown)
  | .rotate => rotateStep
  | .ui => uiStep

/-- Run a schedule: each entry moves its thread one step, or lets it wait when it cannot. -/
def schedule : List Thread → Shutdown → List Event × Shutdown
  | [], s => ([], s)
  | t :: ts, s =>
    match t.step s with
    | some (e, s') => ((schedule ts s').1.cons e, (schedule ts s').2)
    | none => schedule ts s

/-- Every schedule gives an interleaving. -/
theorem path_schedule : ∀ (ts : List Thread) (s : Shutdown),
    Path s (schedule ts s).1 (schedule ts s).2
  | [], s => .nil s
  | t :: ts, s => by
    unfold schedule
    split
    · rename_i e s' h
      exact .cons (by cases t <;> simp_all [Step, Thread.step]) (path_schedule ts s')
    · exact path_schedule ts s

/-- The write lands after a `poll` timed out and before its check: the rotation thread starts
one more pass, shows one more pane, and leaves after the next `poll`. -/
def lateWrite : List Thread :=
  [.rotate, .rotate, .rotate, .rotate, .ui, .rotate, .rotate, .rotate, .rotate, .rotate, .rotate,
    .ui, .ui]

example : (schedule lateWrite Shutdown.init).1 =
    [.mutexLock, .renderingShow, .mutexUnlock, .poll false, .writeCancel, .nextPass, .mutexLock,
      .renderingShow, .mutexUnlock, .poll true, .leaveLoop, .join, .teardown] := by
  decide

theorem shutdown_order_late_write : ShutdownOrdered (schedule lateWrite Shutdown.init).1 :=
  shutdown_order _ _ (path_schedule _ _)

end Ttds
