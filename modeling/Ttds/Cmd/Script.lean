import Ttds.Cmd.Run

/-!
# Scripts

A client drives the program by writing lines to its standard input, one command a line:
`target: ACTION arg ...`, with colours as `#rrggbb` and numbers in decimal. This module says
what the command thread makes of such text. `Request` is the command a client means, and
`Request.line` the line it writes. The two are read against each other: `cmd_inner` reads the
line back with `fgets`, `parse` splits it, `run` finds the hook, and the hook reads the
arguments back with `parse_color` and `strtol`. `CNumeral` is how C writes a number for
`strtol` in base `0`, and every such number is read back in the base its prefix selects
(`number_arg_c_numeral`): a client who pads a coordinate with a leading `0` writes it in octal.

**The law** (`parse_request_line`, `cmd_inner_runs_script`, `cmd_inner_refines_panes`,
`cmd_inner_completes_script`). `parse` gives back the target,
action and arguments of every request a client writes, when its target is not empty and has
no `:`. On the text of a script of such requests, each line short enough for the buffer and
its target free of newlines and NULs, every store the command thread leaves behind is the
store the requests' calls leave, one call a line and in order. Whenever those calls end with
the lock free, the thread returns with that store. Read on the list of live panes, from a
store a run reaches, what the thread leaves is what `PaneSpec` says the calls do, wherever it
says: `PaneSpec.draw` leaves open a draw on a name that is not there, which the code carries
out on the last pane. Conversely, from such a store with its lock free, on a script with no
`CREATE`, wherever `PaneSpec` says what the calls do, the thread returns with that list.

A `CREATE` is the exception (`cmd_inner_create_undefined`): on a name the store does not hold,
once `strdup` has copied it, `ui_pane_create` calls `canvas_init` through `ctx->vt`, which
nothing sets, so the pass does not return.

The lock is what the second half needs: the calls that keep it (an `UI_OOM`, a draw on an empty
store) leave the command thread stuck at its next call, and the failed circle draw is the one
line whose report (`act_circle_reports_radius`) can read past the end of `ui_failure_strs`.
-/

namespace Ttds

/-! ## Numbers and colours -/

/-- The decimal digits of `n`, most significant first and with no leading zero: how a client
writes a number. -/
def decimal (n : Nat) : List Char :=
  if n < 10 then [Nat.digitChar n] else decimal (n / 10) ++ [Nat.digitChar (n % 10)]
termination_by n
decreasing_by omega

theorem decimal_of_lt {n : Nat} (h : n < 10) : decimal n = [Nat.digitChar n] := by
  rw [decimal, if_pos h]

/-- A channel as its two lower-case hex digits. -/
def hexByte (b : UInt8) : List Char :=
  [Nat.digitChar (b.toNat / 16), Nat.digitChar (b.toNat % 16)]

/-- A colour as `#rrggbb`. -/
def Color.format (c : Color) : List Char := '#' :: hexByte c.r ++ hexByte c.g ++ hexByte c.b

theorem digitValue_digitChar : ∀ d < 16, digitValue (Nat.digitChar d) = some d := by decide

theorem isDigitIn_digitChar {base d : Nat} (hd : d < base) (hb : base ≤ 16) :
    isDigitIn base (Nat.digitChar d) := by
  simp [isDigitIn, digitValue_digitChar d (by omega), hd]

theorem digitChar_ne_zero : ∀ d < 10, 0 < d → Nat.digitChar d ≠ '0' := by decide

theorem decimal_digits (n : Nat) : ∀ c ∈ decimal n, isDigitIn 10 c := by
  induction n using Nat.strong_induction_on with
  | _ n ih =>
    rw [decimal]
    split
    · intro c hc
      rw [List.mem_singleton.mp hc]
      exact isDigitIn_digitChar ‹n < 10› (by decide)
    · intro c hc
      rcases List.mem_append.mp hc with hc | hc
      · exact ih (n / 10) (by omega) c hc
      · rw [List.mem_singleton.mp hc]
        exact isDigitIn_digitChar (Nat.mod_lt n (by decide)) (by decide)

theorem digitsValue_decimal (n : Nat) : digitsValue 10 0 (decimal n) = n := by
  induction n using Nat.strong_induction_on with
  | _ n ih =>
    rw [decimal]
    split
    · simp [digitsValue, digitValue_digitChar n (by omega)]
    · have h := ih (n / 10) (by omega)
      rw [digitsValue] at h
      rw [digitsValue, List.foldl_append, h]
      simp only [List.foldl_cons, List.foldl_nil, digitValue_digitChar (n % 10) (by omega),
        Option.getD_some]
      omega

/-- A positive number's text starts with a digit other than `0`. -/
theorem decimal_eq_cons (n : Nat) (hn : 0 < n) :
    ∃ c ds, decimal n = c :: ds ∧ c ≠ '0' := by
  induction n using Nat.strong_induction_on with
  | _ n ih =>
    rw [decimal]
    split
    · exact ⟨_, [], rfl, digitChar_ne_zero n ‹_› hn⟩
    · obtain ⟨c, ds, h, hc⟩ := ih (n / 10) (by omega) (by omega)
      exact ⟨c, ds ++ _, by rw [h, List.cons_append], hc⟩

/-- In base `0`, a first character other than `0` reads the number in decimal. -/
theorem strtolPrefix_zero_of_ne {c : Char} (h0 : c ≠ '0') (s : List Char) :
    strtolPrefix 0 (c :: s) = (10, c :: s, none) := by
  unfold strtolPrefix
  split
  · rename_i heq; exact absurd (List.cons.inj heq).1 h0
  · simp [h0]

/-! ## Numbers in base `0` -/

theorem isDigitIn_mono {a b : Nat} {c : Char} (h : isDigitIn a c) (hab : a ≤ b) :
    isDigitIn b c := by
  obtain ⟨d, hd, hlt⟩ := digitValue_of_isDigitIn h
  simp [isDigitIn, hd]; omega

/-- A number as C writes it for `strtol` in base `0`, after its sign: decimal digits with no
leading zero, a `0` and octal digits, or a `0x` (`upper` for `0X`) and hex digits. -/
inductive CNumeral
  | decimal (d : Char) (ds : List Char)
  | octal (ds : List Char)
  | hex (upper : Bool) (d : Char) (ds : List Char)

namespace CNumeral

/-- The text of the number. -/
def text : CNumeral → List Char
  | decimal d ds => d :: ds
  | octal ds => '0' :: ds
  | hex upper d ds => '0' :: (if upper then 'X' else 'x') :: d :: ds

/-- The base its prefix selects. -/
def base : CNumeral → Nat
  | decimal .. => 10
  | octal _ => 8
  | hex .. => 16

/-- The digits the loop of `strtol` reads: an octal number's `0` is one of them. -/
def digits : CNumeral → List Char
  | decimal d ds => d :: ds
  | octal ds => '0' :: ds
  | hex _ d ds => d :: ds

/-- The value of the digits in the base. -/
def value (n : CNumeral) : Nat := digitsValue n.base 0 n.digits

/-- Every digit lies below the base, and a decimal number has no leading zero. -/
def WellFormed : CNumeral → Prop
  | decimal d ds => d ≠ '0' ∧ ∀ c ∈ d :: ds, isDigitIn 10 c
  | octal ds => ∀ c ∈ ds, isDigitIn 8 c
  | hex _ d ds => ∀ c ∈ d :: ds, isDigitIn 16 c

instance : DecidablePred WellFormed
  | decimal d ds => inferInstanceAs (Decidable (d ≠ '0' ∧ ∀ c ∈ d :: ds, isDigitIn 10 c))
  | octal ds => inferInstanceAs (Decidable (∀ c ∈ ds, isDigitIn 8 c))
  | hex _ d ds => inferInstanceAs (Decidable (∀ c ∈ d :: ds, isDigitIn 16 c))

variable {n : CNumeral}

theorem digits_of_wellFormed (hwf : n.WellFormed) : ∀ c ∈ n.digits, isDigitIn n.base c := by
  cases n with
  | decimal d ds => exact hwf.2
  | octal ds => exact List.forall_mem_cons.mpr ⟨(by decide : isDigitIn 8 '0'), hwf⟩
  | hex upper d ds => exact hwf

/-- The prefix `strtol` skips in base `0` leaves the base and the digits. -/
theorem strtolPrefix_text (hwf : n.WellFormed) :
    ∃ az, strtolPrefix 0 n.text = (n.base, n.digits, az) := by
  cases n with
  | decimal d ds => exact ⟨none, strtolPrefix_zero_of_ne hwf.1 ds⟩
  | octal ds =>
    cases ds with
    | nil => exact ⟨none, rfl⟩
    | cons x s =>
      have hx : isDigitIn 16 x := isDigitIn_mono (hwf x (List.mem_cons_self _ _)) (by decide)
      refine ⟨none, ?_⟩
      simp only [text, strtolPrefix, toUpper_ne_X_of_isDigitIn hx, and_false, if_false]
      rfl
  | hex upper d ds =>
    refine ⟨some ((if upper then 'X' else 'x') :: d :: ds), ?_⟩
    cases upper <;> rfl

/-- The text starts with a digit. -/
theorem text_cons (hwf : n.WellFormed) : ∃ c t, n.text = c :: t ∧ isDigitIn 10 c := by
  cases n with
  | decimal d ds => exact ⟨d, ds, rfl, hwf.2 d (List.mem_cons_self _ _)⟩
  | octal ds => exact ⟨'0', ds, rfl, by decide⟩
  | hex upper d ds => exact ⟨'0', _, rfl, by decide⟩

end CNumeral

/-- `strtol(arg, &end, 0)` reads a well-formed number, with or without a `-`, to the end of its
text, as long as its value is within `LONG_MAX`. -/
theorem strtol_cNumeral (n : CNumeral) (hwf : n.WellFormed) (negative : Bool)
    (hmax : (n.value : Int) ≤ longMax) :
    strtol ((if negative then ['-'] else []) ++ n.text) 0 =
      (if negative then -(n.value : Int) else n.value, [], false) := by
  obtain ⟨c, t, htext, hc⟩ := n.text_cons hwf
  obtain ⟨az, hlead⟩ := n.strtolPrefix_text hwf
  have hsp : ¬isspace c := not_isspace_of_isDigitIn hc
  have hsign : strtolSign
      (((if negative then ['-'] else []) ++ n.text).dropWhile isspace) = (negative, n.text) := by
    rw [htext]
    cases negative
    · rw [if_neg Bool.false_ne_true, List.nil_append, List.dropWhile_cons_of_neg (by simpa using hsp),
        strtolSign_of_ne (fun h => by subst h; exact absurd hc (by decide))
          (fun h => by subst h; exact absurd hc (by decide))]
    · rfl
  obtain ⟨d, ds, hds⟩ : ∃ d ds, n.digits = d :: ds := by cases n <;> exact ⟨_, _, rfl⟩
  have hdigits := n.digits_of_wellFormed hwf
  have hloop : digitsLoop n.base 0 n.digits = (n.value, []) := by
    simpa using @digitsLoop_append n.base [] rfl n.digits 0 hdigits
  have hd : isDigitIn n.base d := hdigits d (hds ▸ List.mem_cons_self _ _)
  rw [strtol, hsign]
  dsimp only
  rw [hlead]
  dsimp only
  rw [hds, List.head?_cons, Option.map_some', hd, Option.getD_some, if_pos rfl, ← hds, hloop]
  dsimp only
  have hmin : ¬(n.value : Int) > -longMin := by simp only [longMin, longMax] at hmax ⊢; omega
  cases negative
  · simp only [if_neg (not_lt.mpr hmax), Bool.false_eq_true, if_false]
  · simp only [if_neg hmin, if_true]

/-- The hooks' numbers in full: `act_rect` and `act_circle` accept every well-formed number
within `LONG_MAX`, with or without a `-`, and read it in the base its prefix selects. A leading
`0` makes the rest octal, and a `-` negates the value, which the `uint16_t` fields of a
rectangle keep modulo `2 ^ 16`. -/
theorem number_arg_c_numeral (n : CNumeral) (hwf : n.WellFormed) (negative : Bool)
    (hmax : (n.value : Int) ≤ longMax) (msg : String) :
    numberArg ⟨(if negative then ['-'] else []) ++ n.text⟩ msg =
      .ok (if negative then -(n.value : Int) else n.value) := by
  simp only [numberArg, String.toList, strtol_cNumeral n hwf negative hmax]
  rfl

/-- `-010` is minus eight. -/
theorem number_arg_minus_octal :
    (CNumeral.octal ['1', '0']).WellFormed ∧ ((CNumeral.octal ['1', '0']).value : Int) ≤ longMax ∧
      numberArg ⟨['-', '0', '1', '0']⟩ "m" = .ok (-8) :=
  ⟨by decide, by decide, number_arg_c_numeral (.octal ['1', '0']) (by decide) true (by decide) "m"⟩

/-- `strtol(arg, &end, 0)` reads back every number a client writes up to `LONG_MAX`, to the
end of the text. -/
theorem strtol_decimal (n : Nat) (hn : (n : Int) ≤ longMax) :
    strtol (decimal n) 0 = ((n : Int), [], false) := by
  rcases Nat.eq_zero_or_pos n with rfl | hpos
  · rw [decimal, if_pos (by decide)]
    decide
  obtain ⟨c, ds, hcs, h0⟩ := decimal_eq_cons n hpos
  have hval : (CNumeral.decimal c ds).value = n := by
    rw [CNumeral.value, CNumeral.base, CNumeral.digits, ← hcs, digitsValue_decimal]
  have h := strtol_cNumeral (.decimal c ds) ⟨h0, hcs ▸ decimal_digits n⟩ false (hval ▸ hn)
  rwa [if_neg Bool.false_ne_true, if_neg Bool.false_ne_true, List.nil_append, hval, CNumeral.text,
    ← hcs] at h

/-- The hooks' numbers: every number a client writes up to `LONG_MAX` is read back. -/
theorem numberArg_decimal (n : Nat) (hn : (n : Int) ≤ longMax) (msg : String) :
    numberArg ⟨decimal n⟩ msg = .ok n := by
  simp only [numberArg, String.toList, strtol_decimal n hn]
  rfl

/-! ## Colours -/

theorem toU16_natCast {n : Nat} (hn : n < 2 ^ 16) : toU16 n = ⟨n, hn⟩ := by
  simp only [toU16, Fin.mk.injEq]
  omega

theorem UInt8.ofNat_toNat' (b : UInt8) : UInt8.ofNat b.toNat = b :=
  UInt8.toNat.inj (UInt8.toNat_ofNat_of_lt b.toNat_lt_size)

theorem hexByte_digits (b : UInt8) : ∀ x ∈ hexByte b, isDigitIn 16 x := fun x hx => by
  simp only [hexByte, List.mem_cons, List.mem_singleton, List.not_mem_nil, or_false] at hx
  rcases hx with rfl | rfl
  · exact isDigitIn_digitChar (Nat.div_lt_of_lt_mul (by simpa using b.toNat_lt_size)) le_rfl
  · exact isDigitIn_digitChar (Nat.mod_lt _ (by decide)) le_rfl

/-- `parse_color` reads back every colour a client writes. -/
theorem parseColor_format (c : Color) : parseColor c.format = some c := by
  have hval : ∀ b : UInt8, UInt8.ofNat (16 * (digitValue (Nat.digitChar (b.toNat / 16))).getD 0 +
      (digitValue (Nat.digitChar (b.toNat % 16))).getD 0) = b := fun b => by
    have hb := b.toNat_lt_size
    rw [digitValue_digitChar _ (Nat.div_lt_of_lt_mul (by simpa using hb)),
      digitValue_digitChar _ (Nat.mod_lt _ (by decide)), Option.getD_some, Option.getD_some,
      Nat.div_add_mod, UInt8.ofNat_toNat']
  have hall : ∀ x ∈ hexByte c.r ++ hexByte c.g ++ hexByte c.b, isDigitIn 16 x := by
    simp only [List.mem_append]
    rintro x ((hx | hx) | hx)
    exacts [hexByte_digits _ x hx, hexByte_digits _ x hx, hexByte_digits _ x hx]
  simp only [Color.format, hexByte, List.cons_append, List.nil_append] at hall ⊢
  rw [parseColor_of_hexDigits _ _ _ _ _ _ hall, hval, hval, hval]

/-! ## The line -/

/-- The line a client writes for a command: the target, `: `, the action, each argument behind a
space, and the newline. -/
def commandLine (target action : String) (args : List String) : List Char :=
  target.toList ++ ':' :: ' ' :: action.toList ++
    (args.map fun arg => ' ' :: arg.toList).flatten ++ ['\n']

/-- A word of a command line: at least one character, none of them whitespace. -/
structure IsWord (w : String) : Prop where
  ne_nil : w.toList ≠ []
  no_space : ∀ c ∈ w.toList, ¬isspace c

/-- A word and then whitespace: the word is the first of the words. -/
theorem words_word_append {w l : List Char} {c : Char} (hw : w ≠ [])
    (hsp : ∀ x ∈ w, ¬isspace x) (hc : isspace c) : words (w ++ c :: l) = ⟨w⟩ :: words l := by
  obtain ⟨x, xs, rfl⟩ := List.exists_cons_of_ne_nil hw
  have hrun : ∀ y ∈ x :: xs, (! isspace y) = true := fun y hy => by simpa using hsp y hy
  rw [List.cons_append, words_of_head (hsp x (List.mem_cons_self _ _)), ← List.cons_append,
    List.takeWhile_append_of_pos hrun, List.dropWhile_append_of_pos hrun,
    List.takeWhile_cons_of_neg (by simpa using hc), List.dropWhile_cons_of_neg (by simpa using hc),
    List.append_nil, List.tail_cons]

/-- The arguments' text ends in the newline and starts with whitespace. -/
theorem args_text_cons (args : List String) :
    ∃ c l, (args.map fun arg => ' ' :: arg.toList).flatten ++ ['\n'] = c :: l ∧ isspace c := by
  cases args with
  | nil => exact ⟨'\n', [], rfl, by decide⟩
  | cons a as => exact ⟨' ', _, rfl, by decide⟩

/-- The words of the arguments' text are the arguments. -/
theorem words_args {args : List String} (hargs : ∀ arg ∈ args, IsWord arg) :
    words ((args.map fun arg => ' ' :: arg.toList).flatten ++ ['\n']) = args := by
  induction args with
  | nil => decide
  | cons arg args ih =>
    obtain ⟨hne, hsp⟩ := hargs arg (List.mem_cons_self _ _)
    obtain ⟨c, l, hcl, hc⟩ := args_text_cons args
    have ih := ih fun a ha => hargs a (List.mem_cons_of_mem _ ha)
    rw [hcl, words_cons_of_isspace hc] at ih
    simp only [List.map_cons, List.flatten_cons, List.cons_append, List.append_assoc]
    rw [words_cons_of_isspace (by decide), hcl, words_word_append hne hsp hc, ih]
    rfl

/-- `parse` gives back the target, the action and the arguments of the line a client writes,
when the `realloc`s of `collect_args` succeed. -/
theorem parse_commandLine (grow : Nat → Bool) {target action : String} {args : List String}
    (htarget : target.toList ≠ []) (hcolon : ':' ∉ target.toList) (haction : IsWord action)
    (hargs : ∀ arg ∈ args, IsWord arg) :
    parse grow (commandLine target action args) =
      if ∀ i < args.length, grow (i + 1) then some (.ok ⟨target, action, some args⟩) else none := by
  obtain ⟨c, l, hcl, hc⟩ := args_text_cons args
  obtain ⟨a, as, ha⟩ := List.exists_cons_of_ne_nil haction.ne_nil
  have hrunT : ∀ x ∈ target.toList, (x != ':') = true := fun x hx => by
    simpa using fun h : x = ':' => hcolon (h ▸ hx)
  have hrunA : ∀ x ∈ action.toList, (! isspace x) = true := fun x hx => by
    simpa using haction.no_space x hx
  have hline : commandLine target action args =
      target.toList ++ ':' :: ' ' :: (action.toList ++ c :: l) := by
    rw [commandLine, ← hcl]
    simp only [List.append_assoc, List.cons_append]
  have htake : (commandLine target action args).takeWhile (· != ':') = target.toList := by
    rw [hline, List.takeWhile_append_of_pos hrunT, List.takeWhile_cons_of_neg (by simp),
      List.append_nil]
  have hdrop : (commandLine target action args).dropWhile (· != ':') =
      ':' :: ' ' :: (action.toList ++ c :: l) := by
    rw [hline, List.dropWhile_append_of_pos hrunT, List.dropWhile_cons_of_neg (by simp)]
  have heat : eatWhitespace (' ' :: (action.toList ++ c :: l)) = action.toList ++ c :: l := by
    rw [eatWhitespace, List.dropWhile_cons_of_pos (by decide), ha, List.cons_append,
      List.dropWhile_cons_of_neg (by simpa using haction.no_space a (ha ▸ List.mem_cons_self _ _))]
  have hword : (action.toList ++ c :: l).takeWhile (! isspace ·) = action.toList := by
    rw [List.takeWhile_append_of_pos hrunA, List.takeWhile_cons_of_neg (by simp [hc]),
      List.append_nil]
  have hend : (action.toList ++ c :: l).dropWhile (! isspace ·) = c :: l := by
    rw [List.dropWhile_append_of_pos hrunA, List.dropWhile_cons_of_neg (by simp [hc])]
  have hwords : words l = args := by
    rw [← words_cons_of_isspace hc, ← hcl, words_args hargs]
  unfold parse
  simp only [htake, hdrop, htarget, List.tail_cons, heat, hword, hend, collectArgs_spec, hwords,
    false_or, reduceCtorEq, if_false, List.append_eq_nil, and_false, List.length_nil,
    Nat.zero_add, List.nil_append]
  split <;> rfl

/-! ## Requests -/

/-- A command a client means: an action with arguments of the types its hook reads. -/
inductive Request
  | create (target : String) (fill : Color)
  | remove (target : String)
  | rect (target : String) (color : Color) (rect : Rect)
  | circle (target : String) (color : Color) (circle : Circle)

namespace Request

/-- The pane the request is for. -/
def target : Request → String
  | .create t _ | .remove t | .rect t _ _ | .circle t _ _ => t

/-- The action's name in `actions`. -/
def action : Request → String
  | .create .. => "CREATE"
  | .remove _ => "REMOVE"
  | .rect .. => "RECT"
  | .circle .. => "CIRCLE"

/-- A coordinate or a size, in decimal. -/
def number (v : Fin (2 ^ 16)) : String := ⟨decimal v⟩

/-- The arguments, in the order the hook reads them. -/
def args : Request → List String
  | .create _ fill => [⟨fill.format⟩]
  | .remove _ => []
  | .rect _ color r => [⟨color.format⟩, number r.x, number r.y, number r.w, number r.h]
  | .circle _ color c => [⟨color.format⟩, number c.x, number c.y, number c.r]

/-- The line a client writes for the request. -/
def line (req : Request) : List Char := commandLine req.target req.action req.args

/-- The hook `actions` gives the request's action. -/
def hook : Request → Hook
  | .create .. => .create
  | .remove _ => .remove
  | .rect .. => .rect
  | .circle .. => .circle

/-- The call into the store the request asks for. -/
def call (alloc : PaneAlloc) : Request → Call
  | .create t fill => .create t fill alloc
  | .remove t => .remove t
  | .rect t color r => .drawRect t r color
  | .circle t color c => .drawCircle t c color

end Request

theorem decimal_ne_nil (n : Nat) : decimal n ≠ [] := by
  rw [decimal]; split <;> simp

theorem isWord_decimal (n : Nat) : IsWord ⟨decimal n⟩ :=
  ⟨decimal_ne_nil n, fun _ hc => not_isspace_of_isDigitIn (decimal_digits n _ hc)⟩

theorem isWord_format (c : Color) : IsWord ⟨c.format⟩ := by
  refine ⟨List.cons_ne_nil _ _, fun x hx => ?_⟩
  rcases List.mem_cons.mp hx with rfl | hx
  · decide
  rcases List.mem_append.mp hx with hx | hx
  · rcases List.mem_append.mp hx with hx | hx <;>
      exact not_isspace_of_isDigitIn (hexByte_digits _ x hx)
  · exact not_isspace_of_isDigitIn (hexByte_digits _ x hx)

theorem Request.isWord_action (req : Request) : IsWord req.action := by
  cases req <;> (simp only [Request.action]; exact ⟨by decide, by decide⟩)

theorem Request.isWord_args (req : Request) : ∀ arg ∈ req.args, IsWord arg := by
  cases req <;> simp only [Request.args, List.mem_cons, List.mem_singleton, List.not_mem_nil,
    or_false, forall_eq_or_imp, forall_eq, Request.number, isWord_format, isWord_decimal,
    and_self, IsEmpty.forall_iff, implies_true]

/-! ## What the hooks read -/

/-- Every character of an argument is a `#` or a hex digit. -/
theorem Request.args_chars (req : Request) :
    ∀ arg ∈ req.args, ∀ c ∈ arg.toList, c = '#' ∨ isDigitIn 16 c := by
  have hfmt : ∀ (color : Color), ∀ c ∈ color.format, c = '#' ∨ isDigitIn 16 c := fun color c hc => by
    rcases List.mem_cons.mp hc with rfl | hc
    · exact .inl rfl
    rcases List.mem_append.mp hc with hc | hc
    · rcases List.mem_append.mp hc with hc | hc <;> exact .inr (hexByte_digits _ c hc)
    · exact .inr (hexByte_digits _ c hc)
  have hnum : ∀ (v : Fin (2 ^ 16)), ∀ c ∈ decimal v, c = '#' ∨ isDigitIn 16 c := fun v c hc =>
    .inr (isDigitIn_mono (decimal_digits _ c hc) (by decide))
  cases req <;> simp only [Request.args, List.mem_cons, List.mem_singleton, List.not_mem_nil,
    or_false, forall_eq_or_imp, forall_eq, IsEmpty.forall_iff, implies_true]
  · exact hfmt _
  · exact ⟨hfmt _, hnum _, hnum _, hnum _, hnum _⟩
  · exact ⟨hfmt _, hnum _, hnum _, hnum _⟩

/-- `act_rect` reads back the colour and the rectangle a client writes. -/
theorem rectArgs_request (color : Color) (r : Rect) :
    rectArgs [⟨color.format⟩, Request.number r.x, Request.number r.y, Request.number r.w,
      Request.number r.h] = .ok (color, r) := by
  have hmax : ∀ v : Fin (2 ^ 16), ((v : Nat) : Int) ≤ longMax := fun v => by
    have := v.isLt; simp only [longMax]; omega
  simp only [rectArgs, Request.number, String.toList, parseColor_format, numberArg_decimal _ (hmax _)]
  simp only [bind, Except.bind, pure, Except.pure, toU16_natCast (Fin.isLt _)]

/-- `act_circle` reads back the colour and the circle's numbers a client writes. -/
theorem circleArgs_request (color : Color) (c : Circle) :
    circleArgs [⟨color.format⟩, Request.number c.x, Request.number c.y, Request.number c.r] =
      .ok (color, (c.x : Nat), (c.y : Nat), (c.r : Nat)) := by
  have hmax : ∀ v : Fin (2 ^ 16), ((v : Nat) : Int) ≤ longMax := fun v => by
    have := v.isLt; simp only [longMax]; omega
  simp only [circleArgs, Request.number, String.toList, parseColor_format,
    numberArg_decimal _ (hmax _)]
  rfl

/-! ## One line -/

/-- A request whose line `cmd_inner` reads whole and `parse` splits as written: a target of at
least one character with no `:`, newline or NUL, and a line that fits `fgets`'s buffer. -/
structure Request.Fits (req : Request) : Prop where
  target_ne : req.target.toList ≠ []
  no_colon : ':' ∉ req.target.toList
  no_newline : '\n' ∉ req.target.toList
  no_nul : Char.ofNat 0 ∉ req.target.toList
  short : req.line.length ≤ maxCmdLen - 1

/-- What a request's line holds before its newline. -/
def Request.body (req : Request) : List Char :=
  req.target.toList ++ ':' :: ' ' :: req.action.toList ++
    (req.args.map fun arg => ' ' :: arg.toList).flatten

theorem Request.line_eq (req : Request) : req.line = req.body ++ ['\n'] := rfl

/-- A line ending at its only newline, within the buffer: `fgets` returns it whole. -/
theorem fgets_line {pre : List Char} (hnl : '\n' ∉ pre) (hlen : pre.length + 1 ≤ maxCmdLen - 1)
    (rest : List Char) : fgets (pre ++ ['\n'] ++ rest) = some (pre ++ ['\n'], rest) := by
  have hrun : ∀ c ∈ pre, (c != '\n') = true := fun c hc => by
    simpa using fun h : c = '\n' => hnl (h ▸ hc)
  have hn : min (maxCmdLen - 1) ((List.takeWhile (· != '\n') (pre ++ ['\n'] ++ rest)).length + 1) =
      (pre ++ ['\n']).length := by
    rw [List.append_assoc, List.takeWhile_append_of_pos hrun, List.singleton_append,
      List.takeWhile_cons_of_neg (by simp), List.append_nil, List.length_append,
      List.length_singleton]
    omega
  rw [fgets, if_neg (by simp)]
  simp only [hn, List.take_left, List.drop_left]

/-- The arguments as the line writes them hold no NUL and no newline. -/
theorem Request.argsText_chars (req : Request) :
    ∀ c ∈ (req.args.map fun arg => ' ' :: arg.toList).flatten, c ≠ Char.ofNat 0 ∧ c ≠ '\n' := by
  intro c hc
  obtain ⟨l, hl, hc⟩ := List.mem_flatten.mp hc
  obtain ⟨arg, harg, rfl⟩ := List.mem_map.mp hl
  rcases List.mem_cons.mp hc with rfl | hc
  · decide
  · rcases req.args_chars arg harg c hc with rfl | h
    · decide
    · exact ⟨fun he => by subst he; exact absurd h (by decide),
        fun he => not_isspace_of_isDigitIn h (he ▸ rfl)⟩

/-- A request's line holds a NUL only where its target does. -/
theorem Request.nul_not_mem_line {req : Request} (hnul : Char.ofNat 0 ∉ req.target.toList) :
    Char.ofNat 0 ∉ req.line := by
  have haction : ∀ c ∈ req.action.toList, c ≠ Char.ofNat 0 := by
    cases req <;> (simp only [Request.action]; decide)
  intro h
  simp only [Request.line_eq, Request.body, List.mem_append, List.mem_cons,
    List.mem_singleton] at h
  rcases h with (((h | h | h | h) | h) | h)
  · exact hnul h
  · exact absurd h (by decide)
  · exact absurd h (by decide)
  · exact haction _ h rfl
  · exact (req.argsText_chars _ h).1 rfl
  · exact absurd h (by decide)

/-- With no NUL in the target, the C string `parse` reads is the whole line. -/
theorem Request.cString_line {req : Request} (hnul : Char.ofNat 0 ∉ req.target.toList) :
    cString req.line = req.line :=
  List.takeWhile_eq_self_iff.mpr fun c hc => by
    simpa using fun h : c = Char.ofNat 0 => req.nul_not_mem_line hnul (h ▸ hc)

/-- The characters of a request's line other than its last are not the newline. -/
theorem Request.newline_not_mem_body {req : Request} (hreq : req.Fits) : '\n' ∉ req.body := by
  intro h
  simp only [Request.body, List.mem_append, List.mem_cons] at h
  rcases h with ((h | h | h | h) | h)
  · exact hreq.no_newline h
  · exact absurd h (by decide)
  · exact absurd h (by decide)
  · exact req.isWord_action.no_space _ h rfl
  · exact (req.argsText_chars _ h).2 rfl

/-- `parse` gives back every request a client writes, when its target is not empty and holds no
`:` and no NUL, and the `realloc`s of `collect_args` succeed: its target, its action and its
arguments. It reads the line as `cmd_inner` hands it over, a C string ending at its first NUL. -/
theorem parse_request_line (grow : Nat → Bool) (req : Request) (htarget : req.target.toList ≠ [])
    (hcolon : ':' ∉ req.target.toList) (hnul : Char.ofNat 0 ∉ req.target.toList)
    (hgrow : ∀ i < req.args.length, grow (i + 1)) :
    parse grow (cString req.line) = some (.ok ⟨req.target, req.action, some req.args⟩) := by
  rw [req.cString_line hnul, Request.line,
    parse_commandLine grow htarget hcolon req.isWord_action req.isWord_args, if_pos hgrow]

/-- A pane `p` filled orange. -/
theorem parse_request_create_p :
    parse (fun _ => true) (cString (Request.create "p" ⟨255, 128, 0⟩).line) =
      some (.ok ⟨"p", "CREATE", some [⟨Color.format ⟨255, 128, 0⟩⟩]⟩) :=
  parse_request_line _ (.create "p" ⟨255, 128, 0⟩) (by decide) (by decide) (by decide)
    fun _ _ => rfl

/-- A pass of `cmd_inner`'s loop on a request's line runs the request's hook on the arguments
written. -/
theorem cmdLine_request (env : LineEnv) (s : PaneStorage) {req : Request} (hreq : req.Fits)
    (hgrow : ∀ n, env.grow n = true) :
    cmdLine env s req.line = req.hook.act env.alloc s req.target req.args := by
  have hparse : parse env.grow req.line = some (.ok ⟨req.target, req.action, some req.args⟩) := by
    rw [Request.line, parse_commandLine env.grow hreq.target_ne hreq.no_colon req.isWord_action
      req.isWord_args, if_pos fun _ _ => hgrow _]
  have hfind : actions.find? (·.1 = req.action) = some (req.action, req.hook) := by
    cases req <;> rfl
  simp only [cmdLine, hparse, run, hfind, Option.bind_eq_bind, Option.some_bind]
  rcases req.hook.act env.alloc s req.target req.args with _ | ⟨out, s'⟩ <;> rfl

/-! ## One call a line -/

theorem reportFailure_of_isSome {r : UiFailure} {report : UiFailure → Option Output}
    {s : PaneStorage} (hrep : r ≠ .ok → (report r).isSome) :
    ∃ out, reportFailure r report s = some (out, s) := by
  unfold reportFailure
  split
  · exact ⟨[], rfl⟩
  · obtain ⟨out, hout⟩ := Option.isSome_iff_exists.mp (hrep ‹_›)
    exact ⟨out, by rw [hout]; rfl⟩

/-- Every failure has its text, so the reports of `act_create`, `act_remove` and `act_rect`
are always printed. -/
theorem uiFailureStr_map_isSome (r : UiFailure) (f : String → Output) :
    ((uiFailureStr r.toNat).map f).isSome := by
  obtain ⟨msg, hmsg⟩ := uiFailureStr_toNat r
  rw [hmsg]; rfl

/-- A draw that leaves the lock free answered `UI_OK`: its `UI_NO_SUCH_PANE` keeps the lock. -/
theorem uiPaneDraw_ok_of_unlocked {raster : Canvas → Option Canvas} {s s' : PaneStorage}
    {name : String} {r : UiFailure} (h : uiPaneDraw raster s name = some (r, s'))
    (hl : s'.locked = false) : r = .ok := by
  cases hs : s.locked
  · rw [uiPaneDraw_of_free raster name hs] at h
    split at h
    · cases h; cases hl
    · obtain ⟨_, -, h⟩ := Option.map_eq_some'.mp h
      exact (Prod.mk.inj h).1.symm
  · simp [uiPaneDraw, PaneStorage.lock_of_held hs, Option.bind_eq_bind] at h

/-- A hook run on a request's arguments leaves the store its call leaves. -/
theorem Request.act_run {alloc : PaneAlloc} {s s' : PaneStorage} {out : Output} (req : Request)
    (h : req.hook.act alloc s req.target req.args = some (out, s')) :
    (req.call alloc).run s = some s' := by
  cases req with
  | create t fill =>
    rw [Request.hook, Hook.act, Request.args, Request.target, actCreate, String.toList,
      parseColor_format] at h
    exact map_of_bind_report h
  | remove t => exact map_of_bind_report h
  | rect t color r =>
    rw [Request.hook, Hook.act, Request.args, Request.target, actRect, rectArgs_request] at h
    exact map_of_bind_report h
  | circle t color c =>
    rw [Request.hook, Hook.act, Request.args, Request.target, actCircle, circleArgs_request] at h
    simp only [toU16_natCast (Fin.isLt _)] at h
    exact map_of_bind_report h

/-- When a request's call leaves the lock free, its hook returns with that store. -/
theorem Request.act_of_run {alloc : PaneAlloc} {s s' : PaneStorage} (req : Request)
    (h : (req.call alloc).run s = some s') (hl : s'.locked = false) :
    ∃ out, req.hook.act alloc s req.target req.args = some (out, s') := by
  cases req with
  | create t fill =>
    obtain ⟨⟨r, s''⟩, hans, rfl⟩ := Option.map_eq_some'.mp h
    simp only [Request.hook, Request.args, Request.target, Hook.act, actCreate, String.toList,
      parseColor_format, hans, Option.some_bind]
    exact reportFailure_of_isSome fun _ => uiFailureStr_map_isSome _ _
  | remove t =>
    obtain ⟨⟨r, s''⟩, hans, rfl⟩ := Option.map_eq_some'.mp h
    simp only [Request.hook, Request.args, Request.target, Hook.act, actRemove, hans,
      Option.some_bind]
    exact reportFailure_of_isSome fun _ => uiFailureStr_map_isSome _ _
  | rect t color r =>
    obtain ⟨⟨res, s''⟩, hans, rfl⟩ := Option.map_eq_some'.mp h
    simp only [Request.hook, Request.args, Request.target, Hook.act, actRect, rectArgs_request,
      hans, Option.some_bind]
    exact reportFailure_of_isSome fun _ => uiFailureStr_map_isSome _ _
  | circle t color c =>
    obtain ⟨⟨res, s''⟩, hans, rfl⟩ := Option.map_eq_some'.mp h
    have hok := uiPaneDraw_ok_of_unlocked hans hl
    simp only [Request.hook, Request.args, Request.target, Hook.act, actCircle,
      circleArgs_request, toU16_natCast (Fin.isLt _)]
    rw [show (⟨c.x, c.y, c.r⟩ : Circle) = c from rfl, hans, Option.some_bind]
    exact reportFailure_of_isSome fun hne => absurd hok hne

/-! ## A script -/

/-- A script's calls, each with the allocations of the pass that reads its line. -/
def Request.calls (reqs : List Request) (envs : List LineEnv) : List Call :=
  (reqs.zip envs).map fun p => p.1.call p.2.alloc

/-- A pass of `cmd_inner` on the text of a script: it reads the first request's line whole and
runs its hook on the arguments written. -/
theorem cmdInner_request (env : LineEnv) (envs : List LineEnv) (s : PaneStorage)
    {req : Request} (hreq : req.Fits) (hgrow : ∀ n, env.grow n = true) (rest : List Char) :
    cmdInner (env :: envs) s (req.line ++ rest) =
      (req.hook.act env.alloc s req.target req.args).bind fun r =>
        (cmdInner envs r.2 rest).map fun r' => (r.1 ++ r'.1, r'.2) := by
  have hlen : req.body.length + 1 ≤ maxCmdLen - 1 := by
    simpa [req.line_eq] using hreq.short
  have hcstr : cString req.line = req.line := req.cString_line hreq.no_nul
  have hfgets : fgets (req.line ++ rest) = some (req.line, rest) := by
    rw [req.line_eq]; exact fgets_line (Request.newline_not_mem_body hreq) hlen rest
  simp only [cmdInner, hfgets, hcstr, cmdLine_request env s hreq hgrow, Option.bind_eq_bind,
    Option.some_bind]
  congr 1
  funext r
  cases cmdInner envs r.2 rest <;> rfl

section Script

variable (reqs : List Request) (envs : List LineEnv)

/-- Whenever the command thread returns on a script, the calls of its requests return with the
same store. -/
theorem cmdInner_script_runAll : ∀ (reqs : List Request) (envs : List LineEnv),
    envs.length = reqs.length → (∀ req ∈ reqs, req.Fits) →
    (∀ env ∈ envs, ∀ n, env.grow n = true) → ∀ {s s' : PaneStorage} {out : Output},
    cmdInner envs s (reqs.flatMap Request.line) = some (out, s') →
      Call.runAll (Request.calls reqs envs) s = some s'
  | [], [], _, _, _, _, _, _, h => by cases h; rfl
  | [], _ :: _, hlen, _, _, _, _, _, _ => absurd hlen (by simp)
  | _ :: _, [], hlen, _, _, _, _, _, _ => absurd hlen (by simp)
  | req :: reqs, env :: envs, hlen, hreqs, hgrow, s, s', out, h => by
    obtain ⟨hreq, hreqs⟩ := List.forall_mem_cons.mp hreqs
    obtain ⟨hg, hgrow⟩ := List.forall_mem_cons.mp hgrow
    rw [List.flatMap_cons, cmdInner_request env envs s hreq hg] at h
    obtain ⟨⟨out₁, s₁⟩, hact, h⟩ := Option.bind_eq_some.mp h
    obtain ⟨⟨out₂, s₂⟩, hrest, h⟩ := Option.map_eq_some'.mp h
    cases h
    simp only [Request.calls, List.zip_cons_cons, List.map_cons, Call.runAll]
    rw [req.act_run hact, Option.some_bind]
    exact cmdInner_script_runAll reqs envs (by simpa using hlen) hreqs hgrow hrest

/-- Whenever the calls of a script's requests return with the lock free, the command thread
returns on the script with the same store. -/
theorem runAll_script_cmdInner : ∀ (reqs : List Request) (envs : List LineEnv),
    envs.length = reqs.length → (∀ req ∈ reqs, req.Fits) →
    (∀ env ∈ envs, ∀ n, env.grow n = true) → ∀ {s s' : PaneStorage},
    Call.runAll (Request.calls reqs envs) s = some s' → s'.locked = false →
      ∃ out, cmdInner envs s (reqs.flatMap Request.line) = some (out, s')
  | [], [], _, _, _, _, _, h, _ => by cases h; exact ⟨[], rfl⟩
  | [], _ :: _, hlen, _, _, _, _, _, _ => absurd hlen (by simp)
  | _ :: _, [], hlen, _, _, _, _, _, _ => absurd hlen (by simp)
  | req :: reqs, env :: envs, hlen, hreqs, hgrow, s, s', h, hl => by
    obtain ⟨hreq, hreqs⟩ := List.forall_mem_cons.mp hreqs
    obtain ⟨hg, hgrow⟩ := List.forall_mem_cons.mp hgrow
    simp only [Request.calls, List.zip_cons_cons, List.map_cons, Call.runAll] at h
    obtain ⟨s₁, hcall, hrest⟩ := Option.bind_eq_some.mp h
    have hl₁ : s₁.locked = false := by
      cases h₁ : s₁.locked
      · rfl
      · rw [Call.runAll_of_held h₁ hrest] at hl; cases hl
    obtain ⟨out₁, hact⟩ := req.act_of_run hcall hl₁
    obtain ⟨out₂, hrest'⟩ :=
      runAll_script_cmdInner reqs envs (by simpa using hlen) hreqs hgrow hrest hl
    rw [List.flatMap_cons, cmdInner_request env envs s hreq hg, hact, Option.some_bind, hrest']
    exact ⟨out₁ ++ out₂, rfl⟩

/-- On the text of a script of requests that fit their lines, with every `realloc` granted
and a pass for each line: every store the command thread leaves behind is the store the
requests' calls leave, one a line and in order. Whenever those calls end with the lock free,
the thread returns with that store. -/
theorem cmd_inner_runs_script : ∀ (reqs : List Request) (envs : List LineEnv),
    envs.length = reqs.length → (∀ req ∈ reqs, req.Fits) →
    (∀ env ∈ envs, ∀ n, env.grow n = true) → ∀ (s s' : PaneStorage),
      ((∃ out, cmdInner envs s (reqs.flatMap Request.line) = some (out, s')) →
        Call.runAll (Request.calls reqs envs) s = some s') ∧
      (Call.runAll (Request.calls reqs envs) s = some s' → s'.locked = false →
        ∃ out, cmdInner envs s (reqs.flatMap Request.line) = some (out, s')) :=
  fun reqs envs hlen hreqs hgrow _ _ =>
    ⟨fun ⟨_, h⟩ => cmdInner_script_runAll reqs envs hlen hreqs hgrow h,
      runAll_script_cmdInner reqs envs hlen hreqs hgrow⟩

/-- The script that fills the one pixel of `root` orange and then removes `root`. -/
def drawRemove : List Request := [.rect "root" ⟨255, 128, 0⟩ ⟨0, 0, 1, 1⟩, .remove "root"]

/-- A pass for each line of `drawRemove`, every allocation granted. -/
def drawRemoveEnvs : List LineEnv :=
  [⟨fun _ => true, ⟨true, none⟩⟩, ⟨fun _ => true, ⟨true, none⟩⟩]

/-- The store `ui_ctx_new` makes on a one-pixel canvas. -/
def onePixelStore : PaneStorage :=
  (uiCtxNew ⟨true, some ⟨1, 1, 4, 4, fun _ => 0⟩⟩ (fun _ => ⟨"", ⟨0, 0, 4, 0, fun _ => 0⟩⟩)).get rfl

theorem onePixelStore_reachable : Reachable onePixelStore :=
  .init _ _ (Option.some_get _).symm

theorem drawRemove_fits : ∀ req ∈ drawRemove, req.Fits := by
  simp only [drawRemove, List.mem_cons, List.mem_singleton, List.not_mem_nil, or_false,
    forall_eq_or_imp, forall_eq]
  exact ⟨⟨by decide, by decide, by decide, by decide, by
    simp [Request.line, commandLine, Request.args, Request.number, decimal_of_lt,
      Request.target, Request.action, maxCmdLen, Color.format, hexByte]⟩,
    ⟨by decide, by decide, by decide, by decide, by decide⟩⟩

theorem drawRemoveEnvs_grow : ∀ env ∈ drawRemoveEnvs, ∀ n, env.grow n = true := by
  simp [drawRemoveEnvs]

theorem drawRemove_runAll : ∃ s', Call.runAll (Request.calls drawRemove drawRemoveEnvs)
    onePixelStore = some s' ∧ s'.locked = false := by
  obtain ⟨s', hrun⟩ := Option.isSome_iff_exists.mp (rfl : (Call.runAll
    (Request.calls drawRemove drawRemoveEnvs) onePixelStore).isSome = true)
  have h : (Call.runAll (Request.calls drawRemove drawRemoveEnvs) onePixelStore).map
      (·.locked) = some false := rfl
  rw [hrun] at h
  exact ⟨s', hrun, Option.some.inj h⟩

/-- From the store `ui_ctx_new` makes, the script that fills `root` and then removes it. -/
theorem cmd_inner_runs_draw_remove :
    ∃ s', Call.runAll (Request.calls drawRemove drawRemoveEnvs) onePixelStore = some s' ∧
      ∃ out, cmdInner drawRemoveEnvs onePixelStore (drawRemove.flatMap Request.line) =
        some (out, s') := by
  obtain ⟨s', hrun, hl⟩ := drawRemove_runAll
  exact ⟨s', hrun, (cmd_inner_runs_script _ _ rfl drawRemove_fits
    drawRemoveEnvs_grow _ _).2 hrun hl⟩

/-- A script read by the command thread, against the list of live panes: from every store a run
reaches, whenever the thread returns on the script, it leaves the panes `PaneSpec` gives for
the requests' calls, wherever `PaneSpec` says what they do. -/
theorem cmd_inner_refines_panes (hlen : envs.length = reqs.length)
    (hreqs : ∀ req ∈ reqs, req.Fits) (hgrow : ∀ env ∈ envs, ∀ n, env.grow n = true)
    {s s' : PaneStorage} {out : Output} (hs : Reachable s)
    (h : cmdInner envs s (reqs.flatMap Request.line) = some (out, s')) {L' : List Pane}
    (hspec : PaneSpec.callAll (Request.calls reqs envs) s.view = some L') : s'.view = L' :=
  (Call.runAll_view (StoreInv.of_reachableBy hs)
    (cmdInner_script_runAll reqs envs hlen hreqs hgrow h) hspec).symm

theorem drawRemove_spec : ∃ L', PaneSpec.callAll (Request.calls drawRemove drawRemoveEnvs)
    onePixelStore.view = some L' ∧ L' = [] := by
  obtain ⟨L', hL⟩ := Option.isSome_iff_exists.mp (rfl : (PaneSpec.callAll
    (Request.calls drawRemove drawRemoveEnvs) onePixelStore.view).isSome = true)
  have hnil : (PaneSpec.callAll (Request.calls drawRemove drawRemoveEnvs)
      onePixelStore.view).map List.length = some 0 := rfl
  rw [hL] at hnil
  exact ⟨L', hL, List.length_eq_zero.mp (Option.some.inj hnil)⟩

/-- From the store `ui_ctx_new` makes, the script that fills `root` and then removes it leaves no
pane. -/
theorem cmd_inner_refines_draw_remove :
    onePixelStore.names = ["root"] ∧ ∃ out s' L',
      cmdInner drawRemoveEnvs onePixelStore (drawRemove.flatMap Request.line) =
        some (out, s') ∧
      PaneSpec.callAll (Request.calls drawRemove drawRemoveEnvs) onePixelStore.view =
        some L' ∧
      s'.view = L' ∧ L' = [] := by
  obtain ⟨s', hrun, hl⟩ := drawRemove_runAll
  obtain ⟨out, h⟩ :=
    runAll_script_cmdInner _ _ rfl drawRemove_fits drawRemoveEnvs_grow hrun hl
  obtain ⟨L', hL, hnil⟩ := drawRemove_spec
  exact ⟨rfl, out, s', L', h, hL, cmd_inner_refines_panes _ _ rfl drawRemove_fits
    drawRemoveEnvs_grow onePixelStore_reachable h hL, hnil⟩

/-- Every call of a script without a `CREATE` is granted. -/
theorem Request.calls_granted (hnocreate : ∀ req ∈ reqs, req.action ≠ "CREATE") :
    ∀ c ∈ Request.calls reqs envs, c.Granted := by
  intro c hc
  obtain ⟨⟨req, env⟩, hmem, rfl⟩ := List.mem_map.mp hc
  have := hnocreate req (List.of_mem_zip hmem).1
  cases req <;> simp_all [Request.call, Call.Granted, Request.action]

/-- A script without a `CREATE`, read by the command thread from a store a run reaches whose lock
is free: wherever `PaneSpec` says what the requests' calls do, the thread returns with the lock
free, leaving the panes `PaneSpec` gives. -/
theorem cmd_inner_completes_script (hlen : envs.length = reqs.length)
    (hreqs : ∀ req ∈ reqs, req.Fits) (hgrow : ∀ env ∈ envs, ∀ n, env.grow n = true)
    (hnocreate : ∀ req ∈ reqs, req.action ≠ "CREATE")
    {s : PaneStorage} (hs : Reachable s) (hl : s.locked = false) {L' : List Pane}
    (hspec : PaneSpec.callAll (Request.calls reqs envs) s.view = some L') :
    ∃ out s', cmdInner envs s (reqs.flatMap Request.line) = some (out, s') ∧
      s'.locked = false ∧ s'.view = L' := by
  obtain ⟨s', hrun, hl', hv⟩ := Call.runAll_of_spec (StoreInv.of_reachableBy hs) hl
    (Request.calls_granted reqs envs hnocreate) hspec
  obtain ⟨out, h⟩ := runAll_script_cmdInner reqs envs hlen hreqs hgrow hrun hl'
  exact ⟨out, s', h, hl', hv⟩

/-- From the store `ui_ctx_new` makes, the script that fills `root` and then removes it returns,
leaving no pane. -/
theorem cmd_inner_completes_draw_remove :
    ∃ L', PaneSpec.callAll (Request.calls drawRemove drawRemoveEnvs) onePixelStore.view =
        some L' ∧ L' = [] ∧
      ∃ out s', cmdInner drawRemoveEnvs onePixelStore (drawRemove.flatMap Request.line) =
        some (out, s') ∧ s'.locked = false ∧ s'.view = L' := by
  obtain ⟨L', hL, hnil⟩ := drawRemove_spec
  exact ⟨L', hL, hnil, cmd_inner_completes_script _ _ rfl drawRemove_fits
    drawRemoveEnvs_grow (by decide) onePixelStore_reachable rfl hL⟩

/-- From every store a run reaches whose lock is free, a pass that reads the line of a `CREATE`
of a name the store does not hold, whose name `strdup` copies, does not return, whatever follows
the line: `ui_pane_create` calls `canvas_init` through the never-set `ctx->vt`. No client can add
a pane. -/
theorem cmd_inner_create_undefined (env : LineEnv) (envs : List LineEnv) {s : PaneStorage}
    (hs : Reachable s) (hl : s.locked = false) {name : String} (fill : Color)
    (hreq : (Request.create name fill).Fits) (hgrow : ∀ n, env.grow n = true)
    (hcopied : env.alloc.nameCopied = true) (hnew : name ∉ s.names) (rest : List Char) :
    cmdInner (env :: envs) s ((Request.create name fill).line ++ rest) = none := by
  have hcount : ¬maxPanes ≤ s.count := by
    have := count_le_one_of_reachableBy hs
    simp only [maxPanes]; omega
  have hcreate : uiPaneCreate s name fill env.alloc = none := by
    rw [uiPaneCreate_of_free name fill env.alloc hl, if_neg hnew, if_neg hcount, if_pos hcopied]
  rw [cmdInner_request env envs s hreq hgrow]
  simp only [Request.hook, Request.args, Request.target, Hook.act, actCreate, String.toList,
    parseColor_format, hcreate, Option.bind_eq_bind, Option.none_bind]

/-- The line `p: CREATE #ff8000`, from the store `ui_ctx_new` makes on a one-pixel canvas. -/
theorem cmd_inner_create_p :
    cmdInner [⟨fun _ => true, ⟨true, none⟩⟩] onePixelStore
      ((Request.create "p" ⟨255, 128, 0⟩).line ++ []) = none :=
  cmd_inner_create_undefined _ [] onePixelStore_reachable rfl ⟨255, 128, 0⟩
    ⟨by decide, by decide, by decide, by decide, by decide⟩ (fun _ => rfl) rfl (by decide) []

end Script

end Ttds
