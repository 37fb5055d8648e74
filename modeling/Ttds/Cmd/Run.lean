import Ttds.Cmd.Number
import Ttds.Ui.Reach

/-!
# The command thread

`cmd_inner` reads a line with `fgets`, parses it, and hands the command to `run`, which looks
its action up in `actions` and calls the hook: `act_create`, `act_remove`, `act_rect` or
`act_circle`. Each hook checks its arguments, printing a refusal, and otherwise makes one call
into the pane store. What the thread prints is modelled as the lines it writes, each with the
stream it goes to; what it does to the store is the store's own call.

**The law** (`cmd_run_reachable`). A line changes the store by at most one public call
(`cmdLine_call`), so every store the command thread leaves behind, after any lines, is one the
store's runs reach, and `pane_store_contract` holds of it.

**What fails** (`act_circle_reports_radius`). When `ui_pane_draw_circle` fails, `act_circle`
prints `ui_failure_str(r)` with `r` the radius it parsed, not the failure: the text of another
failure for a radius below four, and a read past the end of `ui_failure_strs` for any larger one.
-/

namespace Ttds

/-- The stream a line is written to. -/
inductive Fd
  | stdout
  | stderr
  deriving DecidableEq, Repr

/-- What a piece of the thread prints, line by line. -/
abbrev Output := List (Fd × String)

/-- `ui_failure_strs`. -/
def uiFailureStrs : List String :=
  ["no failure", "duplicate pane", "oom", "targeted pane doesn't exist"]

/-- `ui_failure_str`: the entry at index `f`, `none` for a read past the end of the table. -/
def uiFailureStr (f : Nat) : Option String := uiFailureStrs.get? f

/-- The value of an enumerator of `enum ui_failure`. -/
def UiFailure.toNat : UiFailure → Nat
  | .ok => 0
  | .duplicate => 1
  | .oom => 2
  | .noSuchPane => 3

/-- Every enumerator has its text. -/
theorem uiFailureStr_toNat (r : UiFailure) : ∃ msg, uiFailureStr r.toNat = some msg := by
  cases r <;> exact ⟨_, rfl⟩

/-- The low sixteen bits of a `long` stored through `size_t` into a `uint16_t`. -/
def toU16 (v : Int) : Fin (2 ^ 16) := ⟨(v % 2 ^ 16).toNat, by omega⟩

/-! ## The hooks -/

/-- One numeric argument of `act_rect` or `act_circle`: `strtol(arg, &end, 0)`, refused with
`msg` unless `end` is at the terminating NUL. -/
def numberArg (arg : String) (msg : String) : Except String Int :=
  let (value, endptr, _) := strtol arg.toList 0
  if endptr = [] then .ok value else .error msg

/-- What a hook prints after its store call: nothing for `UI_OK`, otherwise `report` of the
failure. -/
def reportFailure (r : UiFailure) (report : UiFailure → Option Output) (s : PaneStorage) :
    Option (Output × PaneStorage) :=
  if r = .ok then some ([], s) else (report r).map fun out => (out, s)

/-- `act_create`: exactly one argument, a colour, then `ui_pane_create`; a failure goes to
`stderr`. -/
def actCreate (alloc : PaneAlloc) (s : PaneStorage) (target : String) :
    List String → Option (Output × PaneStorage)
  | [color] =>
    match parseColor color.toList with
    | none => some ([(.stdout, "failure: given color is not valid.\n")], s)
    | some fill => (uiPaneCreate s target fill alloc).bind fun (r, s') =>
        reportFailure r (fun r => (uiFailureStr r.toNat).map fun msg =>
          [(.stderr, "act_create: failed: " ++ msg ++ "\n")]) s'
  | _ => some ([(.stdout, "failure: CREATE requires exactly one argument\n")], s)

/-- `act_remove`: no argument, then `ui_pane_remove`; a failure goes to `stderr`, without a
newline. -/
def actRemove (s : PaneStorage) (target : String) : List String → Option (Output × PaneStorage)
  | [] => (uiPaneRemove s target).bind fun (r, s') =>
      reportFailure r (fun r => (uiFailureStr r.toNat).map fun msg =>
        [(.stderr, "act_remove: failed: " ++ msg)]) s'
  | _ => some ([(.stdout, "failure: REMOVE requires no arguments.\n")], s)

/-- The arguments of `act_rect`: a colour and four numbers, each refused with its own text. -/
def rectArgs : List String → Except String (Color × Rect)
  | [color, x, y, w, h] => do
    let some color := parseColor color.toList
      | throw "failure: first argument is not a color.\n"
    let x ← numberArg x "failure: second argument (x) is not a number.\n"
    let y ← numberArg y "failure: third argument (y) is not a number.\n"
    let w ← numberArg w "failure: fourth argument (w) is not a number.\n"
    let h ← numberArg h "failure: fifth argument (h) is not a number.\n"
    return (color, ⟨toU16 x, toU16 y, toU16 w, toU16 h⟩)
  | _ => throw "failure: RECT requires args color x y w h.\n"

/-- `act_rect`: then `ui_pane_draw_rect`; a failure goes to `stdout`. -/
def actRect (s : PaneStorage) (target : String) (argv : List String) :
    Option (Output × PaneStorage) :=
  match rectArgs argv with
  | .error msg => some ([(.stdout, msg)], s)
  | .ok (color, rect) => (uiPaneDrawRect s target rect color).bind fun (r, s') =>
      reportFailure r (fun r => (uiFailureStr r.toNat).map fun msg =>
        [(.stdout, "failure: ui_pane_draw_rect: " ++ msg ++ "\n")]) s'

/-- The arguments of `act_circle`: a colour and three numbers, kept as the `long`s `strtol`
gave. -/
def circleArgs : List String → Except String (Color × Int × Int × Int)
  | [color, x, y, r] => do
    let some color := parseColor color.toList
      | throw "failure: first argument is not a color.\n"
    let x ← numberArg x "failure: second argument (x) is not a number.\n"
    let y ← numberArg y "failure: third argument (y) is not a number.\n"
    let r ← numberArg r "failure: fourth argument (r) is not a number.\n"
    return (color, x, y, r)
  | _ => throw "failure: RECT requires args color x y r.\n"

/-- `act_circle`: then `ui_pane_draw_circle`. On a failure it prints `ui_failure_str(r)` of the
radius `r`, which converts to the `enum` by its low thirty-two bits. -/
def actCircle (s : PaneStorage) (target : String) (argv : List String) :
    Option (Output × PaneStorage) :=
  match circleArgs argv with
  | .error msg => some ([(.stdout, msg)], s)
  | .ok (color, x, y, r) =>
    (uiPaneDrawCircle s target ⟨toU16 x, toU16 y, toU16 r⟩ color).bind fun (result, s') =>
      reportFailure result (fun _ => (uiFailureStr (r % 2 ^ 32).toNat).map fun msg =>
        [(.stdout, "failure: ui_pane_draw_rect: " ++ msg ++ "\n")]) s'

/-- The hooks of `actions`. -/
inductive Hook
  | create
  | remove
  | rect
  | circle
  deriving DecidableEq, Repr

/-- `actions`: the name each hook answers to, in the order `run` tries them. -/
def actions : List (String × Hook) :=
  [("CREATE", .create), ("REMOVE", .remove), ("RECT", .rect), ("CIRCLE", .circle)]

/-- Calling a hook; `alloc` answers the allocations of `ui_pane_create`. -/
def Hook.act (alloc : PaneAlloc) : Hook → PaneStorage → String → List String →
    Option (Output × PaneStorage)
  | .create => actCreate alloc
  | .remove => actRemove
  | .rect => actRect
  | .circle => actCircle

/-- `run`: the hook of the first entry of `actions` named like the action, and the error text
that `run` returns, `NULL` once a hook ran. With `argc` and `argv` unwritten by `parse` the
hook reads indeterminate values, which is undefined. Without a hook, the text is cut by
`snprintf` to the `511` characters its buffer holds. -/
def run (alloc : PaneAlloc) (s : PaneStorage) (c : Command) :
    Option (Option String × Output × PaneStorage) :=
  match actions.find? (·.1 = c.action) with
  | some (_, hook) =>
    match c.args with
    | some argv => (hook.act alloc s c.targetName argv).map fun (out, s') => (none, out, s')
    | none => none
  | none => some (some (("no such action found: " ++ c.action).take 511), [], s)

/-! ## The loop of `cmd_inner` -/

/-- What one pass of `cmd_inner`'s loop needs from outside: the answers to `collect_args`'s
`realloc`s and to the allocations of a new pane. -/
structure LineEnv where
  grow : Nat → Bool
  alloc : PaneAlloc

/-- One pass of `cmd_inner`'s loop after `fgets`: a line `parse` refuses prints its error, and
a command runs and prints the error `run` answers, on both streams. -/
def cmdLine (env : LineEnv) (s : PaneStorage) (line : List Char) :
    Option (Output × PaneStorage) := do
  match ← parse env.grow line with
  | .err msg => return ([(.stdout, "parsing failed: " ++ msg ++ "\n")], s)
  | .ok command =>
    let (err, out, s') ← run env.alloc s command
    match err with
    | none => return (out, s')
    | some err => return (out ++ [(.stdout, err ++ "\n"), (.stderr, "cmd: run: " ++ err ++ "\n")], s')

/-- `MAX_CMD_LEN`. -/
def maxCmdLen : Nat := 1024

/-- `fgets(line, MAX_CMD_LEN, stdin)`: the input through its first newline, but at most
`MAX_CMD_LEN - 1` characters, and the rest; `none` at the end of the input. -/
def fgets (input : List Char) : Option (List Char × List Char) :=
  if input = [] then none
  else
    let n := min (maxCmdLen - 1) ((input.takeWhile (· != '\n')).length + 1)
    some (input.take n, input.drop n)

/-- The string `parse` reads from the buffer: up to its first NUL. -/
def cString (buf : List Char) : List Char := buf.takeWhile (· != Char.ofNat 0)

/-- `cmd_inner`, one entry of `envs` for each pass of its loop that gets past `poll` (the
cancellation pipe empty and the kernel's pipe on standard input readable), and then the
cancellation. Passes that find standard input not readable change nothing and are left out.
Which passes get past `poll` is not this function's to say: `poll` sees the kernel's pipe,
not what `fgets` has already buffered: when the first `fgets` buffers the whole of a script the
client wrote in one go, only its first line runs until the client writes more or hangs up
(`cmd_buffered_lines_wait`). `none` when a pass does not return, and when the input ends
first: `fgets` fails and `FATAL_ERR` ends the process. -/
def cmdInner : List LineEnv → PaneStorage → List Char → Option (Output × PaneStorage)
  | [], s, _ => some ([], s)
  | env :: envs, s, input => do
    let (buf, rest) ← fgets input
    let (out, s') ← cmdLine env s (cString buf)
    let (out', s'') ← cmdInner envs s' rest
    return (out ++ out', s'')

/-! ## Each line is at most one call into the store -/

section Calls

variable {s s' : PaneStorage} {out : Output}

theorem reportFailure_store {r : UiFailure} {report : UiFailure → Option Output}
    (h : reportFailure r report s = some (out, s')) : s' = s := by
  unfold reportFailure at h
  split at h
  · cases h; rfl
  · obtain ⟨_, -, h⟩ := Option.map_eq_some'.mp h
    cases h; rfl

/-- A store call and then its report: the store is the one the call left. -/
theorem map_of_bind_report {x : Option (UiFailure × PaneStorage)}
    {report : UiFailure → Option Output}
    (h : (x.bind fun p => reportFailure p.1 report p.2) = some (out, s')) :
    x.map (·.2) = some s' := by
  obtain ⟨⟨r, s''⟩, hx, h⟩ := Option.bind_eq_some.mp h
  rw [hx, reportFailure_store h]
  rfl

/-- A hook leaves the store as it was, or makes one call into it. -/
theorem Hook.act_call (alloc : PaneAlloc) (hook : Hook) {target : String} {argv : List String}
    (h : hook.act alloc s target argv = some (out, s')) :
    s' = s ∨ ∃ call : Call, call.run s = some s' := by
  cases hook with
  | create =>
    simp only [Hook.act, actCreate] at h
    split at h
    · split at h
      · cases h; exact .inl rfl
      · exact .inr ⟨.create _ _ alloc, map_of_bind_report h⟩
    · cases h; exact .inl rfl
  | remove =>
    simp only [Hook.act, actRemove] at h
    split at h
    · exact .inr ⟨.remove _, map_of_bind_report h⟩
    · cases h; exact .inl rfl
  | rect =>
    simp only [Hook.act, actRect] at h
    split at h
    · cases h; exact .inl rfl
    · exact .inr ⟨.drawRect _ _ _, map_of_bind_report h⟩
  | circle =>
    simp only [Hook.act, actCircle] at h
    split at h
    · cases h; exact .inl rfl
    · exact .inr ⟨.drawCircle _ _ _, map_of_bind_report h⟩

theorem run_call {alloc : PaneAlloc} {c : Command} {err : Option String}
    (h : run alloc s c = some (err, out, s')) : s' = s ∨ ∃ call : Call, call.run s = some s' := by
  unfold run at h
  split at h
  · split at h
    · obtain ⟨⟨out', s''⟩, hact, h⟩ := Option.map_eq_some'.mp h
      cases h
      exact Hook.act_call alloc _ hact
    · cases h
  · cases h; exact .inl rfl

/-- One line of input leaves the store as it was, or makes one call into it. -/
theorem cmdLine_call {env : LineEnv} {line : List Char} (h : cmdLine env s line = some (out, s')) :
    s' = s ∨ ∃ call : Call, call.run s = some s' := by
  obtain ⟨r, -, h⟩ := Option.bind_eq_some.mp h
  split at h
  · cases h; exact .inl rfl
  · obtain ⟨⟨err, out', s''⟩, hrun, h⟩ := Option.bind_eq_some.mp h
    cases err <;> simp only [Option.pure_def, Option.some.injEq, Prod.mk.injEq] at h <;>
      obtain ⟨-, rfl⟩ := h <;> exact run_call hrun

/-- Every store the command thread leaves behind, from a store the store's runs reach, is one
they reach. -/
theorem cmdInner_reachable :
    ∀ (envs : List LineEnv) {s s' : PaneStorage} {input : List Char} {out : Output},
      Reachable s → cmdInner envs s input = some (out, s') → Reachable s'
  | [], _, _, _, _, hs, h => by cases h; exact hs
  | env :: envs, s, s', input, out, hs, h => by
    obtain ⟨⟨buf, rest⟩, -, h⟩ := Option.bind_eq_some.mp h
    obtain ⟨⟨out₁, s₁⟩, hline, h⟩ := Option.bind_eq_some.mp h
    obtain ⟨⟨out₂, s₂⟩, hrest, h⟩ := Option.bind_eq_some.mp h
    cases h
    have hs₁ : Reachable s₁ := by
      rcases cmdLine_call hline with rfl | ⟨call, hcall⟩
      · exact hs
      · exact .step call hs trivial hcall
    exact cmdInner_reachable envs hs₁ hrest

/-- From any store the store's runs reach, whatever lines the command thread reads and however
its allocations answer, every store it leaves behind is one they reach: its names are distinct
and it holds at most `MAX_PANES` panes. -/
theorem cmd_run_reachable (envs : List LineEnv) (input : List Char) (hs : Reachable s)
    (h : cmdInner envs s input = some (out, s')) :
    Reachable s' ∧ s'.names.Nodup ∧ s'.count ≤ maxPanes :=
  have hs' := cmdInner_reachable envs hs h
  ⟨hs', (StoreInv.of_reachableBy hs').nodup, (StoreInv.of_reachableBy hs').bound⟩

end Calls

/-- From the store `ui_ctx_new` makes on a one-pixel canvas, the line `root: CREATE #ff0000` is
refused as a duplicate, and the store the thread leaves behind is one the store's runs reach. -/
theorem cmd_run_create_duplicate :
    ∃ s, uiCtxNew ⟨true, some ⟨1, 1, 4, 4, fun _ => 0⟩⟩
        (fun _ => ⟨"", ⟨0, 0, 4, 0, fun _ => 0⟩⟩) = some s ∧ ∃ out s',
      cmdInner [⟨fun _ => true, ⟨true, some ⟨1, 1, 4, 4, fun _ => 0⟩⟩⟩] s
        "root: CREATE #ff0000\n".toList = some (out, s') ∧
      s'.names = ["root"] ∧ Reachable s' ∧ s'.names.Nodup ∧ s'.count ≤ maxPanes := by
  have hf : fgets "root: CREATE #ff0000\n".toList =
      some ("root: CREATE #ff0000\n".toList, []) := by
    decide
  have hp : parse (fun _ => true) (cString "root: CREATE #ff0000\n".toList) =
      some (.ok ⟨"root", "CREATE", some ["#ff0000"]⟩) := by
    rw [parse, if_neg, if_neg, if_neg, collectArgs_eq _ fun _ => rfl]
    · rfl
    all_goals decide
  refine ⟨_, rfl, ?_⟩
  refine' ⟨_, _, ?hline, ?names, cmd_run_reachable _ _
    (.init ⟨true, some ⟨1, 1, 4, 4, fun _ => 0⟩⟩ (fun _ => ⟨"", ⟨0, 0, 4, 0, fun _ => 0⟩⟩)
      rfl) ?hline⟩
  case hline =>
    simp only [cmdInner, hf, cmdLine, hp, Option.bind_eq_bind, Option.some_bind]
    rfl
  case names => rfl

/-! ## What `act_circle` prints -/

/-- On a store whose lock is free and which has no pane, a circle whose arguments parse is not
drawn, the lock is kept, and `act_circle` prints the entry of `ui_failure_strs` at the radius:
past the end of the table for a radius of four or more. -/
theorem act_circle_reports_radius {s : PaneStorage} (hl : s.locked = false) (hc : s.count = 0)
    (target : String) {argv : List String} {color : Color} {x y r : Int}
    (hargs : circleArgs argv = .ok (color, x, y, r)) :
    actCircle s target argv = (uiFailureStr (r % 2 ^ 32).toNat).map fun msg =>
      ([(.stdout, "failure: ui_pane_draw_rect: " ++ msg ++ "\n")], { s with locked := true }) := by
  simp only [actCircle, hargs, uiPaneDrawCircle, uiPaneDraw_of_empty _ _ hl hc, Option.some_bind,
    reportFailure, reduceCtorEq, if_false, Option.map_map]
  rfl

/-- On a store without panes, `CIRCLE #000000 1 1 5` reads `ui_failure_strs[5]`, past the end of
the table, and `CIRCLE #000000 1 1 1` prints the text of `UI_DUPLICATE`. -/
example :
    actCircle ⟨fun _ => ⟨"", ⟨0, 0, 4, 0, fun _ => 0⟩⟩, 0, false⟩ "x"
        ["#000000", "1", "1", "5"] = none ∧
      actCircle ⟨fun _ => ⟨"", ⟨0, 0, 4, 0, fun _ => 0⟩⟩, 0, false⟩ "x"
        ["#000000", "1", "1", "1"] =
        some ([(.stdout, "failure: ui_pane_draw_rect: duplicate pane\n")],
          ⟨fun _ => ⟨"", ⟨0, 0, 4, 0, fun _ => 0⟩⟩, 0, true⟩) :=
  ⟨@act_circle_reports_radius ⟨fun _ => ⟨"", ⟨0, 0, 4, 0, fun _ => 0⟩⟩, 0, false⟩
      rfl rfl "x" ["#000000", "1", "1", "5"] ⟨0, 0, 0⟩ 1 1 5 rfl,
    @act_circle_reports_radius ⟨fun _ => ⟨"", ⟨0, 0, 4, 0, fun _ => 0⟩⟩, 0, false⟩
      rfl rfl "x" ["#000000", "1", "1", "1"] ⟨0, 0, 0⟩ 1 1 1 rfl⟩

end Ttds
