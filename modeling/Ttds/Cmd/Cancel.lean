import Ttds.Cmd.Run

/-!
# Cancelling the command reader

`cmd_thread` starts `cmd_inner` on a pipe, waits for a termination signal, writes one byte to
the pipe and joins the reader; when the write fails it prints a message and does not join.
`cmd_inner` loops: `poll` the pipe and `stdin` without waiting, leave the loop when the pipe is
readable, go round again when `stdin` is not, and otherwise read a line with `fgets` and run it.

```c
for (;;) {
	if (poll(fds, 2, 0) < 0) FATAL_ERR(...);
	if (fds[0].revents &= POLLIN) break;
	if (!(fds[1].revents & POLLIN)) continue;
	if (!fgets(line, MAX_CMD_LEN, stdin)) FATAL_ERR(...);
	...
}
```

The client is a third party: it writes bytes into `stdin`'s pipe and may hang up. The bytes pass
through two places. The kernel holds those written and not yet read (`queued`); `stdio` holds
those it has read into `stdin`'s buffer and `fgets` has not yet returned (`buffered`). `fgets`
returns a line from the buffer once it holds one: a newline among its first `MAX_CMD_LEN - 1`
bytes, that many bytes, or, at the end of the input, what is left. Otherwise it calls `read(2)`,
which moves some of the queued bytes into the buffer and blocks while there are none. `poll`
reports `stdin` readable when bytes are queued, not while none are and the client is there, and
either way at the end of the input, where systems differ: it never sees the buffer. A `FATAL_ERR`
ends the process, after which nothing moves.

**The law** (`cmd_cancel_order`): in every interleaving the reader leaves its loop only after
the byte is written, runs at most one line after the write and none after the `poll` that sees
the byte, and `cmd_thread` joins only a reader that has returned. And the lines the reader runs
are the lines `fgets` cuts from everything the client sent, in order, whatever chunks `read(2)`
returned (`cmd_reads_lines_as_sent`).

**What fails** (`cmd_buffered_lines_wait`): `poll` looks at the pipe, not at `stdio`'s buffer. Once
the pipe is empty and the client waits, the reader runs none of the lines the buffer holds until
the client sends more or hangs up: a script written in one go can run only its first line, and a
cancellation then drops the rest. A reader blocked in `fgets` on part of a line stays there, and
`cmd_thread` with it in `pthread_join`.
-/

namespace Ttds

/-- Where `cmd_inner` is: at the statement it runs next, returned, or ended by `FATAL_ERR`. -/
inductive ReaderPc
  | atPoll
  | atCancel
  | atInput
  | atFgets
  | returned
  | exited
  deriving DecidableEq, Repr

/-- Where `cmd_thread` is after `term_block`. -/
inductive CmdPc
  | atWrite
  | atJoin
  | finished
  | gaveUp
  deriving DecidableEq, Repr

/-- The reader, `cmd_thread`, and what they share with the client: whether the byte is in the
cancellation pipe, the two `revents & POLLIN` of the last `poll`, the bytes in `stdin`'s pipe,
those in `stdin`'s `stdio` buffer, and whether the client hung up. -/
structure Cancel where
  reader : ReaderPc
  main : CmdPc
  pipeByte : Bool
  cancelReady : Bool
  inputReady : Bool
  queued : List Char
  buffered : List Char
  closed : Bool
  deriving DecidableEq, Repr

/-- The threads as `cmd_thread` leaves them when it blocks in `term_block`, before any input. -/
def Cancel.init : Cancel := ⟨.atPoll, .atWrite, false, false, false, [], [], false⟩

/-- What a step does, as a trace sees it. -/
inductive CancelEvent
  /-- `poll` returns, reporting the pipe and `stdin` readable or not. -/
  | poll (cancel input : Bool)
  /-- The pipe is readable: `break`, and `cmd_inner` returns. -/
  | leaveLoop
  | noCancel
  /-- `stdin` is not readable: `continue`. -/
  | idle
  | toFgets
  /-- `fgets` finds no line in the buffer and `read(2)` moves `n` queued bytes into it. -/
  | refill (n : Nat)
  /-- `fgets` returns `line`, which is parsed and run. -/
  | readLine (line : List Char)
  /-- `fgets` returns `NULL` at the end of the input: `FATAL_ERR`. -/
  | readFails
  | writeCancel
  /-- `write` does not write the byte: `cmd_thread` prints and returns without joining. -/
  | writeFails
  | join
  /-- The client sends a byte. -/
  | send (c : Char)
  /-- The client closes its end of `stdin`. -/
  | hangUp
  deriving DecidableEq, Repr

/-- `fgets` finds a line in `buf` without reading more: a newline among the first
`MAX_CMD_LEN - 1` bytes, or that many bytes. -/
def HasLine (buf : List Char) : Prop :=
  '\n' ∈ buf.take (maxCmdLen - 1) ∨ maxCmdLen - 1 ≤ buf.length

instance : DecidablePred HasLine := fun _ => inferInstanceAs (Decidable (_ ∨ _))

/-- `fgets` can return: the buffer holds a line, or the client hung up, nothing is queued, and the
buffer holds the end of the input. -/
def Cancel.LineReady (s : Cancel) : Prop :=
  HasLine s.buffered ∨ (s.closed = true ∧ s.queued = [] ∧ s.buffered ≠ [])

/-- When event `e` can happen. -/
def CancelEvent.Enabled (s : Cancel) : CancelEvent → Prop
  | .poll cancel input => s.reader = .atPoll ∧ cancel = s.pipeByte ∧
      (s.queued ≠ [] → input = true) ∧ (s.queued = [] → s.closed = false → input = false)
  | .leaveLoop => s.reader = .atCancel ∧ s.cancelReady = true
  | .noCancel => s.reader = .atCancel ∧ s.cancelReady = false
  | .idle => s.reader = .atInput ∧ s.inputReady = false
  | .toFgets => s.reader = .atInput ∧ s.inputReady = true
  | .refill n => s.reader = .atFgets ∧ ¬HasLine s.buffered ∧ 0 < n ∧ n ≤ s.queued.length
  | .readLine line => s.reader = .atFgets ∧ s.LineReady ∧ (fgets s.buffered).map (·.1) = some line
  | .readFails => s.reader = .atFgets ∧ s.buffered = [] ∧ s.queued = [] ∧ s.closed = true
  | .writeCancel => s.main = .atWrite ∧ s.reader ≠ .exited
  | .writeFails => s.main = .atWrite ∧ s.reader ≠ .exited
  | .join => s.main = .atJoin ∧ s.reader = .returned
  | .send _ => s.closed = false ∧ s.reader ≠ .exited
  | .hangUp => s.closed = false ∧ s.reader ≠ .exited

/-- The state event `e` leads to. -/
def CancelEvent.apply (s : Cancel) : CancelEvent → Cancel
  | .poll cancel input => { s with reader := .atCancel, cancelReady := cancel, inputReady := input }
  | .leaveLoop => { s with reader := .returned }
  | .noCancel => { s with reader := .atInput }
  | .idle => { s with reader := .atPoll }
  | .toFgets => { s with reader := .atFgets }
  | .refill n => { s with buffered := s.buffered ++ s.queued.take n, queued := s.queued.drop n }
  | .readLine _ => { s with reader := .atPoll, buffered := ((fgets s.buffered).map (·.2)).getD [] }
  | .readFails => { s with reader := .exited }
  | .writeCancel => { s with main := .atJoin, pipeByte := true }
  | .writeFails => { s with main := .gaveUp }
  | .join => { s with main := .finished }
  | .send c => { s with queued := s.queued ++ [c] }
  | .hangUp => { s with closed := true }

instance (s : Cancel) : Decidable s.LineReady := inferInstanceAs (Decidable (_ ∨ _))

instance (s : Cancel) : (e : CancelEvent) → Decidable (e.Enabled s)
  | .poll _ _ | .refill _ | .readFails =>
    inferInstanceAs (Decidable (_ ∧ _ ∧ _ ∧ _))
  | .leaveLoop | .noCancel | .idle | .toFgets | .writeCancel | .writeFails | .join | .send _
  | .hangUp => inferInstanceAs (Decidable (_ ∧ _))
  | .readLine _ => inferInstanceAs (Decidable (_ ∧ _ ∧ _))

/-- An interleaving of the reader, `cmd_thread` and the client, from `s` to `s'`. -/
inductive CancelPath : Cancel → List CancelEvent → Cancel → Prop
  | nil (s : Cancel) : CancelPath s [] s
  | cons {s s' : Cancel} {e : CancelEvent} {l : List CancelEvent} :
      e.Enabled s → CancelPath (e.apply s) l s' → CancelPath s (e :: l) s'

/-- Run a trace from `s`, each event where it is enabled; `none` at the first that is not. -/
def Cancel.run (s : Cancel) : List CancelEvent → Option Cancel
  | [] => some s
  | e :: l => if e.Enabled s then (e.apply s).run l else none

theorem CancelPath.of_run : ∀ {s s' : Cancel} {l : List CancelEvent}, s.run l = some s' →
    CancelPath s l s'
  | s, _, [], h => by cases h; exact .nil s
  | s, _, e :: l, h => by
    unfold Cancel.run at h
    split at h
    · exact .cons ‹_› (CancelPath.of_run h)
    · cases h

/-! ## Along an interleaving -/

theorem CancelPath.split {c : Cancel} {post : List CancelEvent} :
    ∀ {a : Cancel} {pre : List CancelEvent}, CancelPath a (pre ++ post) c →
      ∃ b, CancelPath a pre b ∧ CancelPath b post c
  | a, [], h => ⟨a, .nil a, h⟩
  | _, _ :: _, .cons he h =>
    let ⟨b, h₁, h₂⟩ := CancelPath.split h
    ⟨b, .cons he h₁, h₂⟩

/-- What holds in every state an interleaving from the start reaches. -/
structure CancelInv (s : Cancel) : Prop where
  byte_of_ready : s.cancelReady = true → s.pipeByte = true
  returned_of_joined : s.main = .finished → s.reader = .returned

theorem CancelInv.step {s : Cancel} (hs : CancelInv s) :
    ∀ e : CancelEvent, e.Enabled s → CancelInv (e.apply s) := by
  obtain ⟨hready, hjoined⟩ := hs
  intro e he
  cases e <;> refine ⟨fun hr => ?_, fun hm => ?_⟩ <;>
    simp_all only [CancelEvent.Enabled, CancelEvent.apply, reduceCtorEq]

theorem CancelPath.inv {a b : Cancel} {l : List CancelEvent} (h : CancelPath a l b)
    (ha : CancelInv a) : CancelInv b := by
  induction h with
  | nil => exact ha
  | cons he _ ih => exact ih (ha.step _ he)

/-- A property that only event `e` can bring about holds at the end of an interleaving only if
it held at its start or `e` is on it. -/
theorem CancelPath.flag (P : Cancel → Prop) (e : CancelEvent)
    (hstep : ∀ s e', e'.Enabled s → e' ≠ e → P (e'.apply s) → P s) :
    ∀ {a b : Cancel} {l : List CancelEvent}, CancelPath a l b → P b → P a ∨ e ∈ l
  | _, _, _, .nil _, hb => .inl hb
  | _, _, e' :: _, .cons he h, hb => by
    rcases CancelPath.flag P e hstep h hb with hp | hmem
    · by_cases heq : e' = e
      · exact .inr (heq ▸ List.mem_cons_self _ _)
      · exact .inl (hstep _ _ he heq hp)
    · exact .inr (List.mem_cons_of_mem _ hmem)

theorem CancelPath.pipeByte {a b : Cancel} {l : List CancelEvent} (h : CancelPath a l b)
    (hb : b.pipeByte = true) : a.pipeByte = true ∨ .writeCancel ∈ l :=
  CancelPath.flag (·.pipeByte = true) .writeCancel (fun s e' _ hne hp => by
    cases e' <;> simp_all [CancelEvent.apply]) h hb

theorem CancelPath.returned {a b : Cancel} {l : List CancelEvent} (h : CancelPath a l b)
    (hb : b.reader = .returned) : a.reader = .returned ∨ .leaveLoop ∈ l :=
  CancelPath.flag (·.reader = .returned) .leaveLoop (fun s e' he hne hp => by
    cases e' <;> simp_all [CancelEvent.Enabled, CancelEvent.apply]) h hb

/-- Whether an event is a line read and run. -/
def CancelEvent.isReadLine : CancelEvent → Bool
  | .readLine _ => true
  | _ => false

/-- The lines the reader can still run once the byte is in the pipe: one before its next
`poll`, none after it. -/
def lineBudget (s : Cancel) : Nat :=
  match s.reader, s.cancelReady with
  | .atCancel, false | .atInput, _ | .atFgets, _ => 1
  | _, _ => 0

theorem lineBudget_le_one (s : Cancel) : lineBudget s ≤ 1 := by
  unfold lineBudget; split <;> omega

/-- With the byte in the pipe, a step spends the budget on the line it runs, if any. -/
theorem lineBudget_step {s : Cancel} {e : CancelEvent} (he : e.Enabled s)
    (hw : s.pipeByte = true) :
    lineBudget (e.apply s) + (if e.isReadLine then 1 else 0) ≤ lineBudget s := by
  cases e <;> simp_all only [CancelEvent.Enabled, CancelEvent.apply, lineBudget,
    CancelEvent.isReadLine, reduceCtorEq, if_true, if_false, Bool.false_eq_true, Nat.add_zero,
    Nat.le_refl, Nat.zero_le]

/-- Once the byte is in the pipe, an interleaving runs at most `lineBudget` more lines. -/
theorem CancelPath.count_lines_le {a b : Cancel} {l : List CancelEvent} (h : CancelPath a l b)
    (hw : a.pipeByte = true) : l.countP CancelEvent.isReadLine ≤ lineBudget a := by
  induction h with
  | nil => exact Nat.zero_le _
  | @cons s s' e l he _ ih =>
    have ih := ih (by cases e <;> simp_all [CancelEvent.apply])
    have := lineBudget_step he hw
    rw [List.countP_cons]
    omega

/-! ## The order of the cancellation -/

/-- The order the cancellation promises, on a trace. -/
structure CancelOrdered (tr : List CancelEvent) : Prop where
  leave_after_write : ∀ pre post, tr = pre ++ .leaveLoop :: post → .writeCancel ∈ pre
  one_line_after_write :
    ∀ pre post, tr = pre ++ .writeCancel :: post → post.countP CancelEvent.isReadLine ≤ 1
  no_line_after_ready : ∀ pre post input, tr = pre ++ .poll true input :: post →
    post.countP CancelEvent.isReadLine = 0
  join_after_return : ∀ pre post, tr = pre ++ .join :: post → .leaveLoop ∈ pre

/-- An event of an interleaving from the start happens in a state that keeps the invariant. -/
theorem CancelPath.at_event {s : Cancel} {pre post : List CancelEvent} {e : CancelEvent}
    (h : CancelPath Cancel.init (pre ++ e :: post) s) :
    ∃ b, CancelInv b ∧ e.Enabled b ∧ CancelPath Cancel.init pre b ∧ CancelPath (e.apply b) post s := by
  obtain ⟨b, h₁, h₂⟩ := CancelPath.split h
  cases h₂ with
  | cons he h₂ => exact ⟨b, h₁.inv ⟨by decide, by decide⟩, he, h₁, h₂⟩

/-- In every interleaving of `cmd_inner`, `cmd_thread` and the client, the reader leaves its
loop only after the byte is written, runs at most one line after the write and none after the
`poll` that sees the byte, and `cmd_thread` joins only after the reader has returned. -/
theorem cmd_cancel_order (tr : List CancelEvent) (s : Cancel) (h : CancelPath Cancel.init tr s) :
    CancelOrdered tr := by
  constructor
  · rintro pre post rfl
    obtain ⟨b, hinv, ⟨-, hready⟩, hpre, -⟩ := CancelPath.at_event h
    exact (hpre.pipeByte (hinv.byte_of_ready hready)).resolve_left (by decide)
  · rintro pre post rfl
    obtain ⟨b, -, -, -, hpost⟩ := CancelPath.at_event h
    exact le_trans (hpost.count_lines_le rfl) (lineBudget_le_one _)
  · rintro pre post input rfl
    obtain ⟨b, -, ⟨-, hbyte, -⟩, -, hpost⟩ := CancelPath.at_event h
    have := hpost.count_lines_le hbyte.symm
    simpa [CancelEvent.apply, lineBudget] using this
  · rintro pre post rfl
    obtain ⟨b, -, ⟨-, hret⟩, hpre, -⟩ := CancelPath.at_event h
    exact (hpre.returned hret).resolve_left (by decide)

/-- The client sends the line `x`; the byte is written while the reader is in `fgets`; the
reader reads the line into the buffer, runs it, sees the byte at its next `poll`, and is
joined. -/
def lineThenStop : List CancelEvent :=
  [.send 'x', .send '\n', .poll false true, .noCancel, .toFgets, .writeCancel, .refill 2,
    .readLine ['x', '\n'], .poll true false, .leaveLoop, .join]

theorem cmd_cancel_order_line_then_stop :
    ∃ s, CancelPath Cancel.init lineThenStop s ∧ CancelOrdered lineThenStop :=
  ⟨_, CancelPath.of_run rfl, cmd_cancel_order _ _ (CancelPath.of_run rfl)⟩

/-! ## The lines the reader runs -/

/-- The bytes the client sends on a trace. -/
def sentBytes : List CancelEvent → List Char
  | [] => []
  | .send c :: l => c :: sentBytes l
  | _ :: l => sentBytes l

/-- The lines the reader reads on a trace. -/
def linesRead : List CancelEvent → List (List Char)
  | [] => []
  | .readLine line :: l => line :: linesRead l
  | _ :: l => linesRead l

/-- `n` calls of `fgets` one after another on `input`: the lines they return, in order, and what
is left. -/
def fgetsLines : Nat → List Char → Option (List (List Char) × List Char)
  | 0, input => some ([], input)
  | n + 1, input => (fgetsLines n input).bind fun (lines, rest) =>
      (fgets rest).map fun (line, rest') => (lines ++ [line], rest')

/-- A buffer that holds a line gives `fgets` the same line whatever follows it. -/
theorem fgets_append_of_hasLine {buf line rest : List Char} (hline : HasLine buf)
    (h : fgets buf = some (line, rest)) (more : List Char) :
    fgets (buf ++ more) = some (line, rest ++ more) := by
  have hne : buf ≠ [] := by rintro rfl; cases h
  rw [fgets, if_neg hne] at h
  obtain ⟨rfl, rfl⟩ := Prod.mk.inj (Option.some.inj h)
  have hle := (List.takeWhile_prefix (· != '\n') (l := buf)).length_le
  have hn : min (maxCmdLen - 1) (((buf ++ more).takeWhile (· != '\n')).length + 1) =
      min (maxCmdLen - 1) ((buf.takeWhile (· != '\n')).length + 1) ∧
      min (maxCmdLen - 1) ((buf.takeWhile (· != '\n')).length + 1) ≤ buf.length := by
    rw [List.takeWhile_append]
    split
    · rename_i hall
      have hself : buf.takeWhile (· != '\n') = buf :=
        (List.takeWhile_prefix _).eq_of_length hall
      have hlong : maxCmdLen - 1 ≤ buf.length := hline.resolve_left fun hmem => by
        have := List.takeWhile_eq_self_iff.mp hself _ (List.mem_of_mem_take hmem)
        simp at this
      rw [List.length_append, hall]
      omega
    · exact ⟨rfl, by omega⟩
  rw [fgets, if_neg (by simp [hne])]
  simp only [hn.1, List.take_append_of_le_length hn.2, List.drop_append_of_le_length hn.2]

/-- The lines `lines` the reader has run are the successive `fgets` cuts of the bytes `sent`,
with the buffer and then the queue left, and the cuts stay put under whatever the client may
still send. -/
def Cancel.Cuts (s : Cancel) (lines : List (List Char)) (sent : List Char) : Prop :=
  ∀ more, (s.closed = false ∨ more = []) →
    fgetsLines lines.length (sent ++ more) = some (lines, s.buffered ++ (s.queued ++ more))

/-- Every step keeps the cuts, with the line it runs and the byte it sends added. -/
theorem Cancel.Cuts.step {s : Cancel} {lines : List (List Char)} {sent : List Char}
    (hs : s.Cuts lines sent) {e : CancelEvent} (he : e.Enabled s) :
    (e.apply s).Cuts (lines ++ linesRead [e]) (sent ++ sentBytes [e]) := by
  intro more hmore
  cases e with
  | refill n =>
    have h := hs more hmore
    rw [← List.take_append_drop n s.queued, List.append_assoc (List.take n s.queued)] at h
    simpa [CancelEvent.apply, linesRead, sentBytes] using h
  | readLine line =>
    obtain ⟨-, hready, hline⟩ := he
    obtain ⟨⟨line', rest⟩, hf, rfl⟩ := Option.map_eq_some'.mp hline
    have hcut : fgets (s.buffered ++ (s.queued ++ more)) = some (line', rest ++ (s.queued ++ more)) := by
      rcases hready with hready | ⟨hclosed, hq, -⟩
      · exact fgets_append_of_hasLine hready hf _
      · obtain rfl : more = [] := hmore.resolve_left (by simpa [CancelEvent.apply] using hclosed)
        simpa [hq] using hf
    simp only [linesRead, sentBytes, List.append_nil, List.length_append, List.length_singleton,
      fgetsLines, CancelEvent.apply, hf, Option.map_some', Option.getD_some]
    rw [hs more (by simpa [CancelEvent.apply] using hmore), Option.some_bind, hcut]
    rfl
  | send c =>
    have := hs (c :: more) (.inl he.1)
    simpa [CancelEvent.apply, linesRead, sentBytes] using this
  | hangUp =>
    obtain rfl : more = [] := hmore.resolve_left (by simp [CancelEvent.apply])
    simpa [CancelEvent.apply, linesRead, sentBytes] using hs [] (.inr rfl)
  | _ => simpa [CancelEvent.apply, linesRead, sentBytes] using hs more hmore

theorem CancelPath.cuts {a b : Cancel} {l : List CancelEvent} (h : CancelPath a l b) :
    ∀ {lines : List (List Char)} {sent : List Char}, a.Cuts lines sent →
      b.Cuts (lines ++ linesRead l) (sent ++ sentBytes l) := by
  induction h with
  | nil => intro lines sent ha; simpa [linesRead, sentBytes] using ha
  | @cons s s' e l he _ ih =>
    intro lines sent ha
    have hl : linesRead (e :: l) = linesRead [e] ++ linesRead l := by cases e <;> rfl
    have hs : sentBytes (e :: l) = sentBytes [e] ++ sentBytes l := by cases e <;> rfl
    rw [hl, hs, ← List.append_assoc, ← List.append_assoc]
    exact ih (ha.step he)

/-- In every interleaving, the lines the reader has run are the lines `fgets`, called once a
line, cuts from everything the client has sent, whatever chunks `read(2)` moved into the buffer:
none lost, split otherwise or read twice. What it has not run is what the buffer and then the
pipe hold. -/
theorem cmd_reads_lines_as_sent (tr : List CancelEvent) (s : Cancel)
    (h : CancelPath Cancel.init tr s) :
    fgetsLines (linesRead tr).length (sentBytes tr) = some (linesRead tr, s.buffered ++ s.queued) := by
  have := @CancelPath.cuts _ _ _ h [] [] fun more _ => rfl
  simpa using this [] (.inr rfl)

theorem cmd_reads_lines_line_then_stop :
    ∃ s, CancelPath Cancel.init lineThenStop s ∧
      fgetsLines (linesRead lineThenStop).length (sentBytes lineThenStop) =
        some (linesRead lineThenStop, s.buffered ++ s.queued) :=
  ⟨_, CancelPath.of_run rfl, cmd_reads_lines_as_sent _ _ (CancelPath.of_run rfl)⟩

/-! ## Lines left in the buffer -/

/-- Whether an event is the client's. -/
def CancelEvent.byClient : CancelEvent → Bool
  | .send _ | .hangUp => true
  | _ => false

/-- Nothing is queued, the client is there, and the reader cannot reach a line without more
bytes: it is at its `poll`, past a `poll` that found `stdin` unreadable, in `fgets` with no line
in the buffer, or returned. -/
def Cancel.Stalled (s : Cancel) : Prop :=
  s.queued = [] ∧ s.closed = false ∧
    (s.reader = .atPoll ∨ (s.reader = .atCancel ∧ s.inputReady = false) ∨
      (s.reader = .atInput ∧ s.inputReady = false) ∨ (s.reader = .atFgets ∧ ¬HasLine s.buffered) ∨
      s.reader = .returned)

instance (s : Cancel) : Decidable s.Stalled :=
  inferInstanceAs (Decidable (_ ∧ _ ∧ (_ ∨ (_ ∧ _) ∨ (_ ∧ _) ∨ (_ ∧ _) ∨ _)))

/-- A step that is not the client's keeps a stalled state stalled, runs no line, leaves the buffer
as it was, and leaves a reader in `fgets` there. -/
theorem Cancel.Stalled.step {s : Cancel} (hs : s.Stalled) {e : CancelEvent} (he : e.Enabled s)
    (hc : e.byClient = false) :
    (e.apply s).Stalled ∧ e.isReadLine = false ∧ (e.apply s).buffered = s.buffered ∧
      (s.reader = .atFgets → (e.apply s).reader = .atFgets) := by
  obtain ⟨hq, hopen, hpc⟩ := hs
  cases e with
  | send _ | hangUp => cases hc
  | refill n =>
    obtain ⟨-, -, hn, hle⟩ := he
    simp only [hq, List.length_nil] at hle
    omega
  | readLine line =>
    obtain ⟨hf, hready, -⟩ := he
    rcases hready with hready | ⟨hclosed, -⟩
    · rcases hpc with h | ⟨h, -⟩ | ⟨h, -⟩ | ⟨-, hno⟩ | h <;> simp_all
    · simp_all
  | poll cancel input =>
    obtain ⟨hpoll, -, -, hinput⟩ := he
    simp_all [Cancel.Stalled, CancelEvent.apply, CancelEvent.isReadLine]
  | _ =>
    simp_all [Cancel.Stalled, CancelEvent.Enabled, CancelEvent.apply, CancelEvent.isReadLine]

/-- From a stalled state, until the client sends more or hangs up: the reader runs no line
whatever lines the buffer holds, the buffer keeps them, and a reader in `fgets` stays there, so
that `cmd_thread`, once it has written the byte, waits in `pthread_join`. -/
theorem cmd_buffered_lines_wait {s s' : Cancel} {tr : List CancelEvent} (h : CancelPath s tr s')
    (hs : s.Stalled) (hquiet : ∀ e ∈ tr, e.byClient = false) :
    tr.countP CancelEvent.isReadLine = 0 ∧ s'.buffered = s.buffered ∧ s'.Stalled ∧
      (s.reader = .atFgets → s'.reader = .atFgets) := by
  induction h with
  | nil => exact ⟨rfl, rfl, hs, id⟩
  | @cons s s₁ e l he _ ih =>
    obtain ⟨hc, hquiet⟩ := List.forall_mem_cons.mp hquiet
    obtain ⟨hs₁, hread, hbuf, hfgets⟩ := hs.step he hc
    obtain ⟨hcount, hbuf', hs', hfgets'⟩ := ih hs₁ hquiet
    refine ⟨by simp [List.countP_cons, hcount, hread], hbuf'.trans hbuf, hs', fun h => hfgets' (hfgets h)⟩

/-- A client writes `a` and `b`, one line each, in one go; `read(2)` moves both into the buffer
and the reader runs `a`. -/
def scriptInOneGo : List CancelEvent :=
  [.send 'a', .send '\n', .send 'b', .send '\n', .poll false true, .noCancel, .toFgets, .refill 4,
    .readLine ['a', '\n']]

/-- Then the client waits: the reader polls in vain, the byte is written, and the reader returns
with `b` never run. -/
def cancelAfterScript : List CancelEvent :=
  [.poll false false, .noCancel, .idle, .writeCancel, .poll true false, .leaveLoop, .join]

theorem cmd_buffered_lines_wait_script :
    ∃ s s', CancelPath Cancel.init scriptInOneGo s ∧ s.Stalled ∧ s.buffered = ['b', '\n'] ∧
      CancelPath s cancelAfterScript s' ∧ s'.reader = .returned ∧
      (cancelAfterScript.countP CancelEvent.isReadLine = 0 ∧ s'.buffered = s.buffered ∧
        s'.Stalled ∧ (s.reader = .atFgets → s'.reader = .atFgets)) :=
  ⟨_, _, CancelPath.of_run rfl, by decide, rfl, CancelPath.of_run rfl, rfl,
    cmd_buffered_lines_wait (CancelPath.of_run rfl) (by decide) (by decide)⟩

end Ttds
