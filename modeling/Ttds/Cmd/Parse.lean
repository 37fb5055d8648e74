import Mathlib.Data.List.Basic

/-!
# The command parser

The command thread reads lines of the form `<target>: <action> <args>...` and `parse` cuts
one in place: it finds the first `:`, skips whitespace to the action, ends the action at the
next whitespace, and hands the rest to `collect_args`, which gathers the remaining words into
a `realloc`ed `argv`. A line is modelled by its characters up to the terminating NUL, so the
end of the list is the `'\0'` every loop of the C tests for; characters stand for the bytes
of the buffer.

`collect_args` recurses on the suffix past each word, so it is defined by well-founded
recursion on the length of its input, and `collectArgs_spec` says what it gathers: the maximal
runs of non-whitespace characters, `words`, given by the library's `List.splitOnP`, as long as
each `realloc` succeeds.

**What `parse` answers.** It refuses a line exactly when the line has no `:`, starts with one,
or has only whitespace after its first one (`parse_fails_iff`). Otherwise the target is the
text before the first `:` and the action is the first word after it. When whitespace follows
the action, `argv` holds the other words in order (`parse_collects_words`).

**What fails** (`parse_leaves_args_unwritten`). When no whitespace follows the action, `parse`
returns before it writes `argc` and `argv`, and the command carries whatever the stack held
there: `Command.args` is `none` for that case. That is every line whose action ends the input:
the last line when it has no newline, or a line that `fgets` cuts inside its action.
-/

namespace Ttds

/-- `isspace` in the C locale: the space and `\t`, `\n`, `\v`, `\f`, `\r`. -/
def isspace (c : Char) : Bool :=
  c = ' ' || (9 ≤ c.toNat && c.toNat ≤ 13)

/-- `eat_whitespace`: the string from its first character that is not whitespace. -/
def eatWhitespace (x : List Char) : List Char := x.dropWhile isspace

/-- The maximal runs of non-whitespace characters of a string, in order. -/
def words (l : List Char) : List String :=
  ((l.splitOnP isspace).filter (· ≠ [])).map String.mk

theorem length_eatWhitespace_le (x : List Char) : (eatWhitespace x).length ≤ x.length :=
  (List.dropWhile_suffix _).length_le

/-- `collect_args`, with `argc` the length of `argv`: skip whitespace, end the word at the next
whitespace, and go on past that character. Each word grows `argv` by one slot: `grow n` says
whether the `realloc` to `n` slots succeeds; a failed one is `FATAL_ERR`, which ends the
process. -/
def collectArgs (grow : Nat → Bool) (input : List Char) (argv : List String) :
    Option (List String) :=
  let start := eatWhitespace input
  if start = [] then some argv
  else if grow (argv.length + 1) then
    let word : String := ⟨start.takeWhile (! isspace ·)⟩
    if _ : start.dropWhile (! isspace ·) = [] then some (argv ++ [word])
    else collectArgs grow (start.dropWhile (! isspace ·)).tail (argv ++ [word])
  else none
termination_by input.length
decreasing_by
  have h1 := (List.dropWhile_suffix (! isspace ·) (l := eatWhitespace input)).length_le
  have h2 := length_eatWhitespace_le input
  have h3 : 0 < ((eatWhitespace input).dropWhile (! isspace ·)).length := List.length_pos.mpr ‹_›
  simp only [List.length_tail]
  omega

/-- `struct command`. `args` is `argc` and `argv`, `none` where `parse` never writes them. -/
structure Command where
  targetName : String
  action : String
  args : Option (List String)
  deriving DecidableEq, Repr

/-- `struct parse_result`: the command, or the error text. -/
inductive ParseResult
  | ok (command : Command)
  | err (msg : String)
  deriving DecidableEq, Repr

/-- `parse`: the target runs to the first `:`, the action is the first word after it, and
`collect_args` takes what follows the character that ends the action. `none` when
`collect_args` ends the process. -/
def parse (grow : Nat → Bool) (input : List Char) : Option ParseResult :=
  let targetEnd := input.dropWhile (· != ':')
  let target : String := ⟨input.takeWhile (· != ':')⟩
  if input.takeWhile (· != ':') = [] ∨ targetEnd = [] then
    some (.err "target name must be provided.")
  else
    let action := eatWhitespace targetEnd.tail
    if action = [] then some (.err "action required")
    else
      let actionEnd := action.dropWhile (! isspace ·)
      let command := fun args => ParseResult.ok ⟨target, ⟨action.takeWhile (! isspace ·)⟩, args⟩
      if actionEnd = [] then some (command none)
      else (collectArgs grow actionEnd.tail []).map fun argv => command (some argv)

/-! ## Words -/

@[simp] theorem words_nil : words [] = [] := rfl

theorem words_cons_of_isspace {c : Char} (h : isspace c) (l : List Char) :
    words (c :: l) = words l := by
  simp [words, List.splitOnP_cons, h]

theorem words_eatWhitespace (l : List Char) : words (eatWhitespace l) = words l := by
  induction l with
  | nil => rfl
  | cons c l ih =>
    unfold eatWhitespace at ih ⊢
    cases hc : isspace c
    · simp [List.dropWhile, hc]
    · simp only [List.dropWhile, hc, ih, words_cons_of_isspace hc]

theorem isspace_of_dropWhile_eq_cons {l rest : List Char} {sep : Char}
    (h : l.dropWhile (! isspace ·) = sep :: rest) : isspace sep := by
  have := List.head?_dropWhile_not (! isspace ·) l
  rw [h] at this
  simpa using this

theorem not_isspace_of_eatWhitespace_eq_cons {input cs : List Char} {c : Char}
    (h : eatWhitespace input = c :: cs) : ¬isspace c := by
  have := List.head?_dropWhile_not isspace input
  rw [← eatWhitespace, h] at this
  simpa using this

/-- A string that starts with a non-whitespace character: its first word is the run up to the
first whitespace, and the others are the words past that character. -/
theorem words_of_head {c : Char} (hc : ¬isspace c) (cs : List Char) :
    words (c :: cs) = ⟨(c :: cs).takeWhile (! isspace ·)⟩ ::
      words ((c :: cs).dropWhile (! isspace ·)).tail := by
  have hrun : ∀ x ∈ (c :: cs).takeWhile (! isspace ·), ¬isspace x := fun x hx => by
    simpa using List.mem_takeWhile_imp hx
  have hne : (c :: cs).takeWhile (! isspace ·) ≠ [] := by simp [List.takeWhile_cons, hc]
  conv_lhs => rw [← List.takeWhile_append_dropWhile (! isspace ·) (c :: cs)]
  cases hd : (c :: cs).dropWhile (! isspace ·) with
  | nil => simp [words, List.splitOnP_eq_single isspace _ hrun, hne]
  | cons sep rest =>
    simp [words, List.splitOnP_first isspace _ hrun sep (isspace_of_dropWhile_eq_cons hd), hne]

/-- The words of a string with a word in it, from the string past its leading whitespace. -/
theorem words_of_eatWhitespace_ne_nil {input : List Char} (hs : eatWhitespace input ≠ []) :
    words input = ⟨(eatWhitespace input).takeWhile (! isspace ·)⟩ ::
      words ((eatWhitespace input).dropWhile (! isspace ·)).tail := by
  obtain ⟨c, cs, h⟩ := List.exists_cons_of_ne_nil hs
  rw [← words_eatWhitespace, h]
  exact words_of_head (not_isspace_of_eatWhitespace_eq_cons h) cs

/-! ## `collect_args` -/

/-- `collect_args` appends the words of its input to `argv` when the `realloc` that makes room
for each of them succeeds, the `i`-th to `argc + i + 1` slots; at the first that fails,
`FATAL_ERR` ends the process. -/
theorem collectArgs_spec (grow : Nat → Bool) :
    ∀ (input : List Char) (argv : List String),
      collectArgs grow input argv =
        if ∀ i < (words input).length, grow (argv.length + i + 1) then
          some (argv ++ words input)
        else none := by
  intro input argv
  induction input, argv using collectArgs.induct grow with
  | case1 input argv start hs =>
    have hw : words input = [] := by
      rw [← words_eatWhitespace, show eatWhitespace input = [] from hs, words_nil]
    rw [collectArgs, if_pos hs, hw]
    simp
  | case2 input argv start hs hg hend =>
    rw [collectArgs, if_neg hs, if_pos hg, dif_pos hend, words_of_eatWhitespace_ne_nil hs, hend]
    simp [hg]
  | case3 input argv start hs hg word hend ih =>
    rw [collectArgs, if_neg hs, if_pos hg, dif_neg hend, ih, words_of_eatWhitespace_ne_nil hs]
    simp only [List.length_append, List.length_singleton, List.length_cons, List.length_nil,
      Nat.forall_lt_succ_left, Nat.add_zero, Nat.zero_add, hg, true_and, List.append_assoc,
      List.singleton_append, Nat.add_assoc, Nat.add_comm 1]
  | case4 input argv start hs hg =>
    rw [collectArgs, if_neg hs, if_neg hg, words_of_eatWhitespace_ne_nil hs, if_neg]
    exact fun h => hg (h 0 (Nat.succ_pos _))

/-- When every `realloc` succeeds, `collect_args` appends the words of its input to `argv`. -/
theorem collectArgs_eq (grow : Nat → Bool) (hgrow : ∀ n, grow n = true) :
    ∀ (input : List Char) (argv : List String),
      collectArgs grow input argv = some (argv ++ words input) := fun input argv => by
  rw [collectArgs_spec, if_pos fun _ _ => hgrow _]

/-! ## What `parse` answers -/

/-- `parse`'s first test, `target_end == input || *target_end == '\0'`, read on the characters:
the line has no `:`, or starts with one. -/
theorem takeWhile_dropWhile_colon_eq_nil_iff (s : List Char) :
    (s.takeWhile (· != ':') = [] ∨ s.dropWhile (· != ':') = []) ↔
      ':' ∉ s ∨ s.head? = some ':' := by
  cases s with
  | nil => simp
  | cons c cs =>
    by_cases hc : c = ':'
    · simp [hc]
    · simp [List.takeWhile_cons, List.dropWhile_cons, hc, List.dropWhile_eq_nil_iff, Ne.symm hc,
        List.forall_mem_ne']

/-- A line with a `:` that does not start with one passes `parse`'s first test. -/
theorem target_present {s : List Char} (hcolon : ':' ∈ s) (hfirst : s.head? ≠ some ':') :
    ¬(s.takeWhile (· != ':') = [] ∨ s.dropWhile (· != ':') = []) := by
  rw [takeWhile_dropWhile_colon_eq_nil_iff]; simp [hcolon, hfirst]

theorem eatWhitespace_eq_nil_iff {x : List Char} : eatWhitespace x = [] ↔ ∀ c ∈ x, isspace c :=
  List.dropWhile_eq_nil_iff

/-- `parse` refuses a line exactly when the line has no `:`, starts with one, or has nothing
but whitespace after its first one. -/
theorem parse_fails_iff (grow : Nat → Bool) (s : List Char) :
    (∃ msg, parse grow s = some (.err msg)) ↔
      ':' ∉ s ∨ s.head? = some ':' ∨ ∀ c ∈ (s.dropWhile (· != ':')).tail, isspace c := by
  rw [parse]
  by_cases h1 : s.takeWhile (· != ':') = [] ∨ s.dropWhile (· != ':') = []
  · rw [if_pos h1]
    exact iff_of_true ⟨_, rfl⟩
      (or_assoc.mp (.inl ((takeWhile_dropWhile_colon_eq_nil_iff s).mp h1)))
  · rw [if_neg h1]
    by_cases h2 : eatWhitespace (s.dropWhile (· != ':')).tail = []
    · rw [if_pos h2]
      exact iff_of_true ⟨_, rfl⟩ (.inr (.inr (eatWhitespace_eq_nil_iff.mp h2)))
    · rw [if_neg h2]
      refine iff_of_false ?_ ?_
      · dsimp only
        split
        · simp
        · cases collectArgs grow _ [] <;> simp
      · rw [← or_assoc, ← takeWhile_dropWhile_colon_eq_nil_iff, ← eatWhitespace_eq_nil_iff]
        exact not_or.mpr ⟨h1, h2⟩

/-- A line with a target, and whitespace after the word that follows its first `:`: the target
is the text before that `:`, the action is the first word after it, and `argv` is the list of
the other words, in order, when each `realloc` of `collect_args` succeeds. -/
theorem parse_collects_words (grow : Nat → Bool) {s : List Char} (hcolon : ':' ∈ s)
    (hfirst : s.head? ≠ some ':')
    (hsep : ∃ c ∈ eatWhitespace (s.dropWhile (· != ':')).tail, isspace c) :
    ∃ action args, words (s.dropWhile (· != ':')).tail = action :: args ∧
      parse grow s =
        if ∀ i < args.length, grow (i + 1) then
          some (.ok ⟨⟨s.takeWhile (· != ':')⟩, action, some args⟩)
        else none := by
  obtain ⟨c, hc, hsp⟩ := hsep
  have h1 := target_present hcolon hfirst
  have h2 : eatWhitespace (s.dropWhile (· != ':')).tail ≠ [] := List.ne_nil_of_mem hc
  have h3 : (eatWhitespace (s.dropWhile (· != ':')).tail).dropWhile (! isspace ·) ≠ [] := by
    rw [Ne, List.dropWhile_eq_nil_iff]
    exact fun h => by simpa [hsp] using h c hc
  refine ⟨_, _, words_of_eatWhitespace_ne_nil h2, ?_⟩
  rw [parse, if_neg h1, if_neg h2, if_neg h3, collectArgs_spec]
  simp only [List.length_nil, Nat.zero_add, List.nil_append]
  split <;> rfl

/-- `p: CREATE #ff0000` and its newline. -/
theorem parse_create_pane :
    ':' ∈ "p: CREATE #ff0000\n".toList ∧ "p: CREATE #ff0000\n".toList.head? ≠ some ':' ∧
      (∃ c ∈ eatWhitespace ("p: CREATE #ff0000\n".toList.dropWhile (· != ':')).tail,
        isspace c) ∧
      parse (fun _ => true) "p: CREATE #ff0000\n".toList =
        some (.ok ⟨"p", "CREATE", some ["#ff0000"]⟩) := by
  refine ⟨by decide, by decide, by decide, ?_⟩
  obtain ⟨action, args, hw, hp⟩ := parse_collects_words (fun _ => true)
    (s := "p: CREATE #ff0000\n".toList) (by decide) (by decide) (by decide)
  have hws : words ("p: CREATE #ff0000\n".toList.dropWhile (· != ':')).tail =
      ["CREATE", "#ff0000"] := by decide
  obtain ⟨rfl, rfl⟩ := List.cons.inj (hws.symm.trans hw)
  rw [hp]
  decide

/-- A line whose action runs to its end, as the last line of the input does when it has no
newline: `parse` succeeds and never writes `argc` and `argv`. -/
theorem parse_leaves_args_unwritten (grow : Nat → Bool) {s : List Char} (hcolon : ':' ∈ s)
    (hfirst : s.head? ≠ some ':') (haction : ∃ c ∈ (s.dropWhile (· != ':')).tail, ¬isspace c)
    (hend : ∀ c ∈ eatWhitespace (s.dropWhile (· != ':')).tail, ¬isspace c) :
    parse grow s =
      some (.ok ⟨⟨s.takeWhile (· != ':')⟩, ⟨eatWhitespace (s.dropWhile (· != ':')).tail⟩,
        none⟩) := by
  have h1 := target_present hcolon hfirst
  have h2 : eatWhitespace (s.dropWhile (· != ':')).tail ≠ [] := by
    rw [Ne, eatWhitespace_eq_nil_iff]
    obtain ⟨c, hc, hsp⟩ := haction
    exact fun h => hsp (h c hc)
  have hrun : ∀ c ∈ eatWhitespace (s.dropWhile (· != ':')).tail, (! isspace c) = true := by
    simpa using hend
  rw [parse, if_neg h1, if_neg h2, if_pos (List.dropWhile_eq_nil_iff.mpr hrun),
    List.takeWhile_eq_self_iff.mpr hrun]

/-- `root: REMOVE` as the last line of the input, without a newline. -/
theorem parse_root_remove :
    ':' ∈ "root: REMOVE".toList ∧ "root: REMOVE".toList.head? ≠ some ':' ∧
      (∃ c ∈ ("root: REMOVE".toList.dropWhile (· != ':')).tail, ¬isspace c) ∧
      (∀ c ∈ eatWhitespace ("root: REMOVE".toList.dropWhile (· != ':')).tail, ¬isspace c) ∧
      parse (fun _ => true) "root: REMOVE".toList = some (.ok ⟨"root", "REMOVE", none⟩) :=
  ⟨by decide, by decide, by decide, by decide,
    parse_leaves_args_unwritten _ (by decide) (by decide) (by decide) (by decide)⟩

end Ttds
