import Ttds.Canvas
import Ttds.Cmd.Parse

/-!
# `strtol` and `parse_color`

The command hooks read numbers with `strtol(arg, &end, 0)` and colours with `parse_color`,
which calls `strtol(&in[1], NULL, 16)`. Both take whatever `strtol` accepts, so `strtol` is
modelled as glibc computes it for a 64-bit `long`, in the C locale: leading whitespace, an
optional sign, the number prefix (`0x` or `0X` in bases `0` and `16`, a leading `0` making base
`0` octal), the longest run of digits below the base, and the clamp to `LONG_MIN` or
`LONG_MAX` with `ERANGE` past them. Without a digit it answers `0` and sets `endptr` back to
`nptr`, except after a `0x` prefix, where `endptr` points at the `x`.

`digitsLoop_append` says what the digit loop reads from a run of digits, and
`strtol_of_digits` what `strtol` answers for such a run behind no sign and no prefix.

**The law** (`parseColor_of_hexDigits`). On a `#` and six hex digits, `parse_color` sets each channel
to the value of its pair of digits.

**What fails** (`parse_color_accepts_iff`). `parse_color` never looks at the six characters
after the `#`: it takes whatever `strtol` reads from them. Six characters hold at most six hex
digits, far below `LONG_MAX`, so `ERANGE` never comes. Every `#` followed by six characters is
a colour: `#12345g` reads `0x12345`, `#-00001` is `-1` and so white, `# 12345`, `#0x1234` and
`#+12345` skip what `strtol` skips, and `#gggggg` reads no digit and is black.
-/

namespace Ttds

/-- A character's value as a digit, as `strtol` reads it: `0`–`9`, then the letters of either
case from ten. `none` for any other character. -/
def digitValue (c : Char) : Option Nat :=
  if c.isDigit then some (c.toNat - '0'.toNat)
  else if c.isAlpha then some (c.toUpper.toNat - 'A'.toNat + 10)
  else none

/-- Whether a character is a digit below `base`. -/
def isDigitIn (base : Nat) (c : Char) : Bool := (digitValue c).any (· < base)

/-- The digit loop: the value of the longest run of digits below `base`, accumulated onto
`acc`, and what follows the run. -/
def digitsLoop (base : Nat) : Nat → List Char → Nat × List Char
  | acc, [] => (acc, [])
  | acc, c :: cs =>
    match digitValue c with
    | some d => if d < base then digitsLoop base (acc * base + d) cs else (acc, c :: cs)
    | none => (acc, c :: cs)

/-- The sign: whether the number is negative, and what follows a `-` or `+`. -/
def strtolSign : List Char → Bool × List Char
  | '-' :: s => (true, s)
  | '+' :: s => (false, s)
  | s => (false, s)

/-- The number prefix: the base, where the digits start, and, after a skipped `0x`, the string
from its `x`. -/
def strtolPrefix (base : Nat) : List Char → Nat × List Char × Option (List Char)
  | '0' :: x :: s =>
    if (base = 0 ∨ base = 16) ∧ x.toUpper = 'X' then (16, s, some (x :: s))
    else (if base = 0 then 8 else base, '0' :: x :: s, none)
  | s => (if base = 0 then (if s.head? = some '0' then 8 else 10) else base, s, none)

/-- `LONG_MAX`. -/
def longMax : Int := 2 ^ 63 - 1

/-- `LONG_MIN`. -/
def longMin : Int := -2 ^ 63

/-- `strtol(nptr, &endptr, base)`, for a base of `0` or `2` to `36`: the value, the string from
`endptr`, and whether `errno` is set to `ERANGE`. -/
def strtol (nptr : List Char) (base : Nat) : Int × List Char × Bool :=
  let (negative, s) := strtolSign (nptr.dropWhile isspace)
  let (base, s, afterZero) := strtolPrefix base s
  if (s.head?.map (isDigitIn base)).getD false then
    let (i, endptr) := digitsLoop base 0 s
    if negative then
      if (i : Int) > -longMin then (longMin, endptr, true) else (-i, endptr, false)
    else if (i : Int) > longMax then (longMax, endptr, true) else (i, endptr, false)
  else (0, afterZero.getD nptr, false)

/-- The low byte of a `long`, as an assignment to a `uint8_t` keeps it. -/
def lowByte (v : Int) : UInt8 := UInt8.ofNat (v % 256).toNat

/-- `parse_color`, `none` for `false`: a `#` and seven characters in all, and `strtol` in base
sixteen after the `#` without `ERANGE`. The channels are the low bytes of `result >> 16`,
`result >> 8` and `result`. -/
def parseColor (input : List Char) : Option Color :=
  if input.head? ≠ some '#' then none
  else if input.length ≠ 7 then none
  else
    let (result, _, erange) := strtol input.tail 16
    if erange then none
    else some ⟨lowByte (result >>> (16 : Nat)), lowByte (result >>> (8 : Nat)), lowByte result⟩

/-! ## The digit loop -/

/-- The value of a run of digits read onto `acc`. -/
def digitsValue (base acc : Nat) (ds : List Char) : Nat :=
  ds.foldl (fun a c => a * base + (digitValue c).getD 0) acc

theorem digitValue_of_isDigitIn {base : Nat} {c : Char} (h : isDigitIn base c) :
    ∃ d, digitValue c = some d ∧ d < base := by
  unfold isDigitIn at h
  cases hd : digitValue c with
  | none => simp [hd] at h
  | some d => exact ⟨d, rfl, by simpa [hd] using h⟩

/-- Over a run of digits below the base and then a character that is not one, the loop reads
the run and stops at that character. -/
theorem digitsLoop_append (base : Nat) {rest : List Char}
    (hrest : (rest.head?.map (isDigitIn base)).getD false = false) :
    ∀ (ds : List Char) (acc : Nat), (∀ c ∈ ds, isDigitIn base c) →
      digitsLoop base acc (ds ++ rest) = (digitsValue base acc ds, rest)
  | [], acc, _ => by
    cases rest with
    | nil => rfl
    | cons c cs =>
      simp only [List.head?_cons, Option.map_some', Option.getD_some, isDigitIn] at hrest
      simp only [List.nil_append, digitsLoop, digitsValue, List.foldl_nil]
      cases hd : digitValue c with
      | none => rfl
      | some d => simp [hd] at hrest; simp [hrest]
  | c :: ds, acc, hds => by
    obtain ⟨d, hd, hlt⟩ := digitValue_of_isDigitIn (hds c (List.mem_cons_self _ _))
    rw [List.cons_append, digitsLoop, hd]
    dsimp only
    rw [if_pos hlt, digitsLoop_append base hrest ds _ fun x hx => hds x (List.mem_cons_of_mem _ hx)]
    simp [digitsValue, hd]

/-- The digit loop reads a value below `(acc + 1) * base ^ n` from `n` characters. -/
theorem digitsLoop_lt {base : Nat} (hb : 1 ≤ base) :
    ∀ (l : List Char) (acc : Nat), (digitsLoop base acc l).1 < (acc + 1) * base ^ l.length
  | [], acc => by simp [digitsLoop]
  | c :: cs, acc => by
    have hpow : 1 ≤ base ^ (cs.length + 1) := Nat.one_le_pow _ _ hb
    rw [digitsLoop]
    split
    · rename_i d _
      split
      · rename_i hd
        calc (digitsLoop base (acc * base + d) cs).1
            < (acc * base + d + 1) * base ^ cs.length := digitsLoop_lt hb cs _
          _ ≤ (acc + 1) * base * base ^ cs.length :=
            Nat.mul_le_mul_right _ (by rw [Nat.add_mul]; omega)
          _ = (acc + 1) * base ^ (c :: cs).length := by
            rw [List.length_cons, Nat.pow_succ, Nat.mul_assoc, Nat.mul_comm base]
      · calc acc < (acc + 1) * 1 := by omega
          _ ≤ _ := Nat.mul_le_mul_left _ hpow
    · calc acc < (acc + 1) * 1 := by omega
        _ ≤ _ := Nat.mul_le_mul_left _ hpow

/-! ## Sign and prefix -/

/-- A first character that is no sign: the number is not negative and starts there. -/
theorem strtolSign_of_ne {c : Char} (hm : c ≠ '-') (hp : c ≠ '+') (s : List Char) :
    strtolSign (c :: s) = (false, c :: s) := by
  unfold strtolSign
  split
  · rename_i heq; exact absurd (List.cons.inj heq).1 hm
  · rename_i heq; exact absurd (List.cons.inj heq).1 hp
  · rfl

theorem strtolSign_length_le (l : List Char) : (strtolSign l).2.length ≤ l.length := by
  unfold strtolSign; split <;> simp

/-- A first character other than `0`, in a base other than `0`: no prefix to skip. -/
theorem strtolPrefix_of_ne_zero {c : Char} (h0 : c ≠ '0') {base : Nat} (hb : base ≠ 0)
    (s : List Char) : strtolPrefix base (c :: s) = (base, c :: s, none) := by
  unfold strtolPrefix
  split
  · rename_i heq; exact absurd (List.cons.inj heq).1 h0
  · rw [if_neg hb]

/-- In base sixteen the prefix keeps the base and only drops characters. -/
theorem strtolPrefix_sixteen (s : List Char) :
    (strtolPrefix 16 s).1 = 16 ∧ (strtolPrefix 16 s).2.1.length ≤ s.length := by
  unfold strtolPrefix
  split
  · rename_i x s
    by_cases hx : x.toUpper = 'X'
    · simp [hx]; omega
    · simp [hx]
  · simp

/-- A hex digit is not the `x` of a `0x` prefix. -/
theorem toUpper_ne_X_of_isDigitIn {x : Char} (h : isDigitIn 16 x) : x.toUpper ≠ 'X' := by
  intro hX
  unfold isDigitIn digitValue at h
  by_cases hd : x.isDigit
  · have hle : x.toNat ≤ 57 := by
      simp only [Char.isDigit, Bool.and_eq_true, decide_eq_true_eq] at hd
      exact hd.2
    have : x.toUpper = x := by
      unfold Char.toUpper; rw [if_neg (by omega)]
    rw [this] at hX
    subst hX
    exact absurd hd (by decide)
  · rw [if_neg hd] at h
    split at h
    · rw [hX] at h; simp at h
    · simp at h

/-- A second character that is a hex digit leaves no `0x` prefix to skip. -/
theorem strtolPrefix_of_isDigitIn {c x : Char} (hx : isDigitIn 16 x) (s : List Char) :
    strtolPrefix 16 (c :: x :: s) = (16, c :: x :: s, none) := by
  unfold strtolPrefix
  split
  · rename_i heq
    obtain ⟨rfl, rfl, rfl⟩ := by simpa only [List.cons.injEq] using heq
    simp [toUpper_ne_X_of_isDigitIn hx]
  · rfl

/-- A digit is not whitespace. -/
theorem not_isspace_of_isDigitIn {base : Nat} {c : Char} (h : isDigitIn base c) : ¬isspace c := by
  intro hs
  unfold isDigitIn digitValue at h
  simp only [isspace, Bool.or_eq_true, decide_eq_true_eq, Bool.and_eq_true] at hs
  have hn : c.toNat = 32 ∨ (9 ≤ c.toNat ∧ c.toNat ≤ 13) := by
    rcases hs with rfl | h
    · exact .inl rfl
    · exact .inr h
  have hd : c.isDigit = false := by
    simp only [Char.isDigit, Bool.and_eq_false_iff, decide_eq_false_iff_not]
    exact .inl (by show ¬48 ≤ c.toNat; omega)
  have ha : c.isAlpha = false := by
    simp only [Char.isAlpha, Char.isUpper, Char.isLower, Bool.or_eq_false_iff,
      Bool.and_eq_false_iff, decide_eq_false_iff_not]
    exact ⟨.inl (by show ¬65 ≤ c.toNat; omega), .inl (by show ¬97 ≤ c.toNat; omega)⟩
  simp [hd, ha] at h

/-! ## What `strtol` reads -/

/-- A run of digits below the base, with no sign and no prefix in front and no digit behind,
within `LONG_MAX`: `strtol` reads the run, stops behind it, and sets no `errno`. -/
theorem strtol_of_digits {base : Nat} (hbase : 2 ≤ base) {ds rest : List Char} (c : Char)
    (hc : c ≠ '0' ∧ c ≠ '-' ∧ c ≠ '+' ∧ ¬isspace c) (hds : ∀ x ∈ c :: ds, isDigitIn base x)
    (hrest : (rest.head?.map (isDigitIn base)).getD false = false)
    (hmax : (digitsValue base 0 (c :: ds) : Int) ≤ longMax) :
    strtol (c :: ds ++ rest) base = ((digitsValue base 0 (c :: ds) : Int), rest, false) := by
  obtain ⟨h0, hminus, hplus, hsp⟩ := hc
  have hhead : isDigitIn base c := hds c (List.mem_cons_self _ _)
  rw [List.cons_append, strtol, List.dropWhile_cons_of_neg (by simpa using hsp),
    strtolSign_of_ne hminus hplus]
  dsimp only
  rw [strtolPrefix_of_ne_zero h0 (by omega)]
  dsimp only
  rw [List.head?_cons, Option.map_some', hhead, Option.getD_some, if_pos rfl,
    ← List.cons_append, digitsLoop_append base hrest _ 0 hds]
  dsimp only
  rw [if_neg Bool.false_ne_true, if_neg (not_lt.mpr hmax)]

example : strtol "123 ".toList 10 = (123, " ".toList, false) := by decide

/-- Fifteen characters hold at most fifteen hex digits, whose value lies below `2 ^ 60`. -/
theorem digitsLoop_sixteen_lt {s : List Char} (h : s.length ≤ 15) :
    (digitsLoop 16 0 s).1 < 2 ^ 60 := by
  have hlt := digitsLoop_lt (by decide : 1 ≤ 16) s 0
  have hpow := Nat.pow_le_pow_right (by decide : 16 > 0) h
  omega

/-- `strtol` in base sixteen never sets `ERANGE` on fifteen characters. -/
theorem strtol_erange_of_length {nptr : List Char} (h : nptr.length ≤ 15) :
    (strtol nptr 16).2.2 = false := by
  have hdrop := (List.dropWhile_suffix isspace (l := nptr)).length_le
  have hsign := strtolSign_length_le (nptr.dropWhile isspace)
  obtain ⟨h16, hpre⟩ := strtolPrefix_sixteen (strtolSign (nptr.dropWhile isspace)).2
  unfold strtol
  generalize strtolSign (nptr.dropWhile isspace) = sg at hsign h16 hpre ⊢
  obtain ⟨neg, s⟩ := sg
  dsimp only at h16 hpre hsign ⊢
  generalize strtolPrefix 16 s = pr at h16 hpre ⊢
  obtain ⟨b, s', az⟩ := pr
  dsimp only at h16 hpre ⊢
  subst h16
  have hlt := digitsLoop_sixteen_lt (s := s') (by omega)
  generalize digitsLoop 16 0 s' = dl at hlt ⊢
  obtain ⟨i, e⟩ := dl
  have hmin : ¬(i : Int) > -longMin := by simp only [longMin]; omega
  have hmax : ¬(i : Int) > longMax := by simp only [longMax]; omega
  dsimp only
  simp only [hmin, hmax, if_false]
  split_ifs <;> rfl

/-- A run of two to fifteen hex digits with nothing after it: `strtol` reads all of it. -/
theorem strtol_hex {c x : Char} {ds : List Char} (hds : ∀ y ∈ c :: x :: ds, isDigitIn 16 y)
    (hlen : ds.length ≤ 13) :
    strtol (c :: x :: ds) 16 = (((digitsValue 16 0 (c :: x :: ds) : Nat) : Int), [], false) := by
  have hc := hds c (List.mem_cons_self _ _)
  have hx := hds x (List.mem_cons_of_mem _ (List.mem_cons_self _ _))
  have hloop : digitsLoop 16 0 (c :: x :: ds) = (digitsValue 16 0 (c :: x :: ds), []) := by
    simpa using @digitsLoop_append 16 [] rfl (c :: x :: ds) 0 hds
  have hmax : ((digitsValue 16 0 (c :: x :: ds) : Nat) : Int) ≤ longMax := by
    have hlt := digitsLoop_sixteen_lt (s := c :: x :: ds) (by simp only [List.length_cons]; omega)
    rw [hloop] at hlt
    simp only [longMax]
    omega
  rw [strtol, List.dropWhile_cons_of_neg (by simpa using not_isspace_of_isDigitIn hc),
    strtolSign_of_ne (fun h => by subst h; exact absurd hc (by decide))
      (fun h => by subst h; exact absurd hc (by decide))]
  dsimp only
  rw [strtolPrefix_of_isDigitIn hx]
  dsimp only
  rw [List.head?_cons, Option.map_some', hc, Option.getD_some, if_pos rfl, hloop]
  dsimp only
  rw [if_neg Bool.false_ne_true, if_neg (not_lt.mpr hmax)]

/-! ## What `parse_color` accepts -/

theorem lowByte_natCast (k : Nat) : lowByte k = UInt8.ofNat (k % 256) := by
  unfold lowByte
  congr 1

/-- `parse_color` accepts every string of a `#` and six more characters, whatever those are:
six characters never take `strtol` to `ERANGE`. -/
theorem parse_color_accepts_iff (s : List Char) :
    (parseColor s).isSome ↔ s.head? = some '#' ∧ s.length = 7 := by
  unfold parseColor
  by_cases h1 : s.head? = some '#'
  · by_cases h2 : s.length = 7
    · have he := @strtol_erange_of_length s.tail (by simp [h2])
      rw [if_neg (not_not.mpr h1), if_neg (not_not.mpr h2)]
      generalize strtol s.tail 16 = st at he ⊢
      obtain ⟨result, e, erange⟩ := st
      dsimp only at he ⊢
      subst he
      simp [h1, h2]
    · simp [h1, h2]
  · simp [h1]

example : parseColor "#12345g".toList = some ⟨1, 0x23, 0x45⟩ := by decide

example : parseColor "#-00001".toList = some ⟨255, 255, 255⟩ := by decide

/-- A `#` and six hex digits: `parse_color` sets each channel to the value of its pair of
digits. -/
theorem parseColor_of_hexDigits (a b c d e f : Char)
    (hex : ∀ x ∈ [a, b, c, d, e, f], isDigitIn 16 x) :
    parseColor ['#', a, b, c, d, e, f] =
      some ⟨UInt8.ofNat (16 * (digitValue a).getD 0 + (digitValue b).getD 0),
        UInt8.ofNat (16 * (digitValue c).getD 0 + (digitValue d).getD 0),
        UInt8.ofNat (16 * (digitValue e).getD 0 + (digitValue f).getD 0)⟩ := by
  have hv : ∀ x ∈ [a, b, c, d, e, f], (digitValue x).getD 0 < 16 := fun x hx => by
    obtain ⟨v, hv, hlt⟩ := digitValue_of_isDigitIn (hex x hx)
    rw [hv]; exact hlt
  simp only [List.mem_cons, List.mem_singleton, List.not_mem_nil, or_false,
    forall_eq_or_imp, forall_eq] at hv
  obtain ⟨ha, hb, hc, hd, he, hf⟩ := hv
  simp only [parseColor, List.head?_cons, ne_eq, not_true_eq_false, if_false, List.length_cons,
    List.length_nil, List.tail_cons, strtol_hex hex (by simp)]
  simp only [digitsValue, List.foldl_cons, List.foldl_nil, Int.shiftRight_eq_div_pow,
    Bool.false_eq_true, if_false]
  generalize (digitValue a).getD 0 = va at ha ⊢
  generalize (digitValue b).getD 0 = vb at hb ⊢
  generalize (digitValue c).getD 0 = vc at hc ⊢
  generalize (digitValue d).getD 0 = vd at hd ⊢
  generalize (digitValue e).getD 0 = ve at he ⊢
  generalize (digitValue f).getD 0 = vf at hf ⊢
  simp only [← Int.ofNat_ediv, lowByte_natCast, Nat.reducePow]
  congr 3 <;> omega

/-- `#ff8000`. -/
example : parseColor "#ff8000".toList = some ⟨255, 128, 0⟩ :=
  (parseColor_of_hexDigits 'f' 'f' '8' '0' '0' '0' (by decide)).trans (by decide)

end Ttds
