import Ttds.Canvas

/-!
# Loops

Every loop of the rasterizer is a `for` over a `uint16_t` counter or a `while` over a few
locals, and its body only calls `draw_point`. So a loop is modelled by its control alone:
`loopStates` lists the states at which the body runs, and `forEach` runs a body at each of
them. A loop that never stops is `none`.

**Fuel.** Each loop is tested at most `loopFuel = 2 ^ 16 + 1` times. For a `uint16_t` counter
whose condition reads only the counter this is exact: a loop still running after
`2 ^ 16 + 1` tests has met some counter value twice, so it runs forever. `loopStates_none`
is the way such a loop is shown to diverge, `loopStates_some` the way one is shown to stop.
Of a loop that stops, `loopStates_run` says how its states follow one another and where it
exits, and `loopStates_length_le` bounds the number of passes by a measure that falls at each.

`countUp` and `countDown` are the two shapes of counter the C uses, `i++` and `i--` with
their `uint16_t` wraparound; `loopStates_countUp` and `loopStates_countDown` say which values
such a loop visits when it does not wrap.
-/

namespace Ttds

/-- `a + b` on `uint16_t`. -/
def add16 (a b : Nat) : Nat := (a + b) % 2 ^ 16

/-- `a - b` on `uint16_t`, for `b < 2 ^ 16`. -/
def sub16 (a b : Nat) : Nat := (a + 2 ^ 16 - b) % 2 ^ 16

theorem add16_of_lt {a b : Nat} (h : a + b < 2 ^ 16) : add16 a b = a + b :=
  Nat.mod_eq_of_lt h

theorem sub16_of_le {a b : Nat} (ha : a < 2 ^ 16) (h : b ≤ a) : sub16 a b = a - b := by
  unfold sub16; omega

/-- The tests each loop is allowed: one more than a `uint16_t` counter has values. -/
def loopFuel : Nat := 2 ^ 16 + 1

/-- The states at which the body of `while (cond s) { body; s = next s; }` runs, in order;
`none` when the condition still holds after `fuel` tests. -/
def loopStates {σ : Type} (cond : σ → Bool) (next : σ → σ) : (fuel : Nat) → σ → Option (List σ)
  | 0, _ => none
  | fuel + 1, s => if cond s then (loopStates cond next fuel (next s)).map (s :: ·) else some []

/-- Run a body at each state of a loop and concatenate its `draw_point` calls. -/
def forEach {σ : Type} (body : σ → Option (List Point)) : List σ → Option (List Point)
  | [] => some []
  | s :: ss => (body s).bind fun here => (forEach body ss).map (here ++ ·)

section Generic

variable {σ : Type} {cond : σ → Bool} {next : σ → σ}

theorem loopStates_succ (fuel : Nat) (s : σ) :
    loopStates cond next (fuel + 1) s =
      if cond s then (loopStates cond next fuel (next s)).map (s :: ·) else some [] :=
  rfl

/-- A loop whose condition holds everywhere never stops. -/
theorem loopStates_none (hcond : ∀ s, cond s = true) (fuel : Nat) (s : σ) :
    loopStates cond next fuel s = none := by
  induction fuel generalizing s with
  | zero => rfl
  | succ fuel ih => rw [loopStates_succ, if_pos (hcond s), ih]; rfl

/-- A loop stops when a measure falls at every pass through the body of a state that keeps
an invariant; then every state the body runs at keeps it. -/
theorem loopStates_some {P : σ → Prop} (μ : σ → Nat)
    (hstep : ∀ s, P s → cond s = true → P (next s) ∧ μ (next s) < μ s) :
    ∀ (fuel : Nat) (s : σ), P s → μ s < fuel →
      ∃ l, loopStates cond next fuel s = some l ∧ ∀ v ∈ l, P v ∧ cond v = true := by
  intro fuel
  induction fuel with
  | zero => intro s _ h; omega
  | succ fuel ih =>
    intro s hs hμ
    rw [loopStates_succ]
    by_cases hc : cond s = true
    · obtain ⟨hs', hμ'⟩ := hstep s hs hc
      obtain ⟨l, hl, hall⟩ := ih (next s) hs' (by omega)
      refine ⟨s :: l, by rw [if_pos hc, hl]; rfl, ?_⟩
      intro v hv
      rcases List.mem_cons.mp hv with rfl | hv
      · exact ⟨hs, hc⟩
      · exact hall v hv
    · exact ⟨[], by rw [if_neg hc], by simp⟩

/-- The states a loop that stops runs its body at: the first state when the condition holds
there, each later one the next state of the one before, and after the last one the condition
fails. -/
theorem loopStates_run :
    ∀ {fuel : Nat} {s : σ} {l : List σ}, loopStates cond next fuel s = some l →
      l.head? = (if cond s then some s else none) ∧ l.Chain' (fun a b => b = next a) ∧
        ∀ v ∈ l.getLast?, cond (next v) = false
  | 0, _, _, h => by cases h
  | fuel + 1, s, l, h => by
    rw [loopStates_succ] at h
    by_cases hc : cond s
    · rw [if_pos hc] at h
      obtain ⟨rest, hrest, rfl⟩ := Option.map_eq_some'.mp h
      obtain ⟨hhead, hchain, hlast⟩ := loopStates_run hrest
      refine ⟨by rw [if_pos hc]; rfl, ?_⟩
      cases rest with
      | nil =>
        refine ⟨List.Chain.nil, fun v hv => ?_⟩
        rw [List.getLast?_singleton, Option.mem_some_iff] at hv
        subst hv
        by_contra hcn
        rw [if_pos (Bool.not_eq_false _ |>.mp hcn)] at hhead
        cases hhead
      | cons w ws =>
        have hw : w = next s := by
          by_cases hcn : cond (next s) = true
          · rw [if_pos hcn, List.head?_cons] at hhead; exact Option.some.inj hhead
          · rw [if_neg hcn] at hhead; cases hhead
        exact ⟨List.Chain.cons hw hchain,
          fun v hv => hlast v (by rwa [List.getLast?_cons_cons] at hv)⟩
    · rw [if_neg hc] at h
      cases h
      exact ⟨by simp [hc], trivial, by simp⟩

/-- A loop whose measure falls at every pass runs its body at most as many times as the
measure of its first state. -/
theorem loopStates_length_le {P : σ → Prop} (μ : σ → Nat)
    (hstep : ∀ s, P s → cond s = true → P (next s) ∧ μ (next s) < μ s) :
    ∀ {fuel : Nat} {s : σ} {l : List σ}, P s → loopStates cond next fuel s = some l →
      l.length ≤ μ s
  | 0, _, _, _, h => by cases h
  | fuel + 1, s, l, hs, h => by
    rw [loopStates_succ] at h
    by_cases hc : cond s
    · rw [if_pos hc] at h
      obtain ⟨rest, hrest, rfl⟩ := Option.map_eq_some'.mp h
      obtain ⟨hs', hμ⟩ := hstep s hs hc
      have := loopStates_length_le μ hstep hs' hrest
      simp only [List.length_cons]
      omega
    · rw [if_neg hc] at h
      cases h
      exact Nat.zero_le _

theorem forEach_cons (body : σ → Option (List Point)) (s : σ) (ss : List σ) :
    forEach body (s :: ss) = (body s).bind fun here => (forEach body ss).map (here ++ ·) :=
  rfl

/-- Bodies that all finish give the concatenation of their calls. -/
theorem forEach_of_forall {body : σ → Option (List Point)} {f : σ → List Point} :
    ∀ {ss : List σ}, (∀ s ∈ ss, body s = some (f s)) → forEach body ss = some (ss.flatMap f)
  | [], _ => rfl
  | s :: ss, h => by
    rw [forEach_cons, h s (List.mem_cons_self _ _),
      forEach_of_forall fun t ht => h t (List.mem_cons_of_mem _ ht)]
    rfl

/-- A body that never finishes at some state makes the whole loop never finish. -/
theorem forEach_eq_none {body : σ → Option (List Point)} :
    ∀ {ss : List σ} {s : σ}, s ∈ ss → body s = none → forEach body ss = none
  | t :: ts, s, hs, hb => by
    rw [forEach_cons]
    rcases List.mem_cons.mp hs with rfl | hs
    · rw [hb]; rfl
    · rw [forEach_eq_none hs hb]
      cases body t <;> rfl

end Generic

/-! ## `uint16_t` counters -/

/-- `for (uint16_t i = start; cond i; i++)`. -/
def countUp (cond : Nat → Bool) (start : Nat) : Option (List Nat) :=
  loopStates cond (add16 · 1) loopFuel start

/-- `for (uint16_t i = start; cond i; i--)`. -/
def countDown (cond : Nat → Bool) (start : Nat) : Option (List Nat) :=
  loopStates cond (sub16 · 1) loopFuel start

/-- An upward count that stops at `m` before the counter can wrap visits `start, .., m - 1`. -/
theorem loopStates_countUp {cond : Nat → Bool} {m : Nat} (hcond : ∀ i, cond i = true ↔ i < m)
    (hm : m < 2 ^ 16) :
    ∀ (fuel start : Nat), start < 2 ^ 16 → m - start < fuel →
      loopStates cond (add16 · 1) fuel start = some (List.range' start (m - start)) := by
  intro fuel
  induction fuel with
  | zero => intro _ _ h; omega
  | succ fuel ih =>
    intro start hs hf
    rw [loopStates_succ]
    by_cases hlt : start < m
    · rw [if_pos ((hcond start).mpr hlt), add16_of_lt (by omega), ih (start + 1) (by omega)
        (by omega), show m - start = m - (start + 1) + 1 by omega]
      rfl
    · rw [if_neg (by rw [hcond]; exact hlt), show m - start = 0 by omega]
      rfl

theorem countUp_eq {cond : Nat → Bool} {m start : Nat} (hcond : ∀ i, cond i = true ↔ i < m)
    (hm : m < 2 ^ 16) (hs : start < 2 ^ 16) :
    countUp cond start = some (List.range' start (m - start)) :=
  loopStates_countUp hcond hm loopFuel start hs (by unfold loopFuel; omega)

/-- A downward count that stops below `lo ≥ 1` visits `start, start - 1, .., lo`. -/
theorem loopStates_countDown {cond : Nat → Bool} {lo : Nat} (hcond : ∀ i, cond i = true ↔ lo ≤ i)
    (hlo : 1 ≤ lo) :
    ∀ (fuel start : Nat), start < 2 ^ 16 → start + 1 - lo < fuel →
      loopStates cond (sub16 · 1) fuel start =
        some ((List.range (start + 1 - lo)).map (start - ·)) := by
  intro fuel
  induction fuel with
  | zero => intro _ _ h; omega
  | succ fuel ih =>
    intro start hs hf
    rw [loopStates_succ]
    by_cases hle : lo ≤ start
    · rw [if_pos ((hcond start).mpr hle), sub16_of_le hs (by omega),
        ih (start - 1) (by omega) (by omega), show start + 1 - lo = start - 1 + 1 - lo + 1 by omega,
        List.range_succ_eq_map]
      simp only [Option.map_some', List.map_cons, Nat.sub_zero, List.map_map, Function.comp_def]
      congr 3
      funext k
      omega
    · rw [if_neg (by rw [hcond]; exact hle), show start + 1 - lo = 0 by omega]
      rfl

theorem countDown_eq {cond : Nat → Bool} {lo start : Nat} (hcond : ∀ i, cond i = true ↔ lo ≤ i)
    (hlo : 1 ≤ lo) (hs : start < 2 ^ 16) :
    countDown cond start = some ((List.range (start + 1 - lo)).map (start - ·)) :=
  loopStates_countDown hcond hlo loopFuel start hs (by unfold loopFuel; omega)

end Ttds
