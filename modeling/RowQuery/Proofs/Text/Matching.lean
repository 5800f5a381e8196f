import RowQuery.Text.Like

/-!
# The matcher keeps one place to come back to

`Pattern.Matches` says which texts a list of tokens matches: a run takes any
part of the text that comes next, every other token one character. The matcher
forgets all runs but the last one. It may, since a text that is left to an
earlier run can be left to the last one: between two runs every token takes
exactly one character, so an earlier run that eats more only moves the place
where the last one starts (`State.SinceRun.matches_rest`).

`State.Accepts` is what a state still has to find out. No step changes it
(`State.accepts_iff_of_step`), each step makes `State.todo` smaller, and where
no step is left it is settled.
-/

namespace RowQuery

namespace Pattern

/-- Whether tokens match a text as a whole. -/
def Matches : List Token → List Char → Prop
  | [], text => text = []
  | .run :: after, text => ∃ eaten rest, text = eaten ++ rest ∧ Matches after rest
  | .one :: after, text => ∃ c rest, text = c :: rest ∧ Matches after rest
  | .char expected :: after, text =>
      ∃ c rest, text = c :: rest ∧ sameLetter expected c = true ∧ Matches after rest

/-- What a token other than a run takes. -/
def Token.TakesChar : Token → Char → Prop
  | .run, _ => False
  | .one, _ => True
  | .char expected, c => sameLetter expected c = true

section Tokens

variable {after passed : List Token} {text eaten rest : List Char} {token : Token} {c : Char}

theorem Matches.run (h : Matches after rest) : Matches (.run :: after) (eaten ++ rest) :=
  ⟨eaten, rest, rfl, h⟩

/-- A run that matches a text matches every longer one. -/
theorem Matches.run_append (h : Matches (.run :: after) rest) :
    Matches (.run :: after) (eaten ++ rest) := by
  obtain ⟨more, last, rfl, hlast⟩ := h
  rw [← List.append_assoc]
  exact hlast.run

theorem matches_run_iff :
    Matches (.run :: after) text
      ↔ Matches after text ∨ ∃ c rest, text = c :: rest ∧ Matches (.run :: after) rest := by
  constructor
  · rintro ⟨eaten, last, rfl, hlast⟩
    cases eaten with
    | nil => exact .inl hlast
    | cons c more => exact .inr ⟨c, more ++ last, rfl, hlast.run⟩
  · rintro (h | ⟨c, rest, rfl, h⟩)
    · exact ⟨[], text, rfl, h⟩
    · have hlonger : Matches (.run :: after) ([c] ++ rest) := h.run_append
      exact hlonger

/-- A token that is no run takes one character. -/
theorem matches_cons_iff (hrun : token ≠ .run) :
    Matches (token :: after) text
      ↔ ∃ c rest, text = c :: rest ∧ token.TakesChar c ∧ Matches after rest := by
  cases token with
  | run => exact absurd rfl hrun
  | one => simp [Matches, Token.TakesChar]
  | char expected => simp [Matches, Token.TakesChar]

theorem matches_cons_cons (hrun : token ≠ .run) :
    Matches (token :: after) (c :: rest) ↔ token.TakesChar c ∧ Matches after rest := by
  rw [matches_cons_iff hrun]
  constructor
  · rintro ⟨_, _, ⟨⟩, h⟩
    exact h
  · exact fun h => ⟨c, rest, rfl, h⟩

/-- Only runs match the empty text. -/
theorem matches_nil_iff : Matches after [] ↔ ∀ token ∈ after, token = .run := by
  induction after with
  | nil => simp [Matches]
  | cons token after ih =>
      rw [List.forall_mem_cons, ← ih]
      cases token with
      | run =>
          rw [matches_run_iff]
          simp
      | one => simp [Matches]
      | char expected => simp [Matches]

/-- Tokens without a run take as many characters as they are. -/
theorem Matches.drop_of_append (hpassed : .run ∉ passed) (h : Matches (passed ++ after) text) :
    passed.length ≤ text.length ∧ Matches after (text.drop passed.length) := by
  induction passed generalizing text with
  | nil => exact ⟨Nat.zero_le _, h⟩
  | cons token passed ih =>
      rw [List.mem_cons, not_or] at hpassed
      obtain ⟨c, rest, rfl, -, hrest⟩ := (matches_cons_iff (Ne.symm hpassed.1)).mp h
      obtain ⟨hlength, hafter⟩ := ih hpassed.2 hrest
      exact ⟨Nat.succ_le_succ hlength, hafter⟩

/-- Runs beside each other match what one of them matches. -/
theorem matches_joinRuns : Matches (joinRuns after) text ↔ Matches after text := by
  induction after using joinRuns.induct generalizing text with
  | case1 rest ih =>
      rw [joinRuns, ih]
      constructor
      · exact fun h => ⟨[], text, rfl, h⟩
      · rintro ⟨eaten, last, rfl, hlast⟩
        exact hlast.run_append
  | case2 token rest hjoin ih =>
      rw [joinRuns]
      · cases token <;> simp only [Matches, ih]
      · exact hjoin
  | case3 => rfl

end Tokens

/-! ## States -/

namespace State

/-- What a state has still to find out: whether its tokens match its text, or
the last run can eat more and leave the rest to what is after it. -/
def Accepts (s : State) : Prop :=
  Matches s.tokens s.text
    ∨ ∃ after c rest, s.retry = some (after, c :: rest) ∧ Matches (.run :: after) rest

/-- The tokens since the last run have taken the characters that it left, one
each. -/
structure SinceRun (s : State) (after : List Token) (left : List Char) (passed : List Token)
    (taken : List Char) : Prop where
  tokens_eq : after = passed ++ s.tokens
  text_eq : left = taken ++ s.text
  length_eq : passed.length = taken.length
  run_not_mem : .run ∉ passed

/-- Where a run has been passed, the state is the one reached from it. -/
def WellPlaced (s : State) : Prop :=
  ∀ after left, s.retry = some (after, left) → ∃ passed taken, s.SinceRun after left passed taken

variable {s next : State} {after passed : List Token} {left taken : List Char} {width : Nat}

/-- Tokens after the last run that match a part of what it left, short of its
first character, leave a part of the text to the tokens that are not passed. -/
theorem SinceRun.matches_rest {c : Char} {rest : List Char}
    (h : s.SinceRun after (c :: rest) passed taken) (hmatch : Matches (.run :: after) rest) :
    ∃ eaten last, s.text = eaten ++ last ∧ eaten ≠ [] ∧ Matches s.tokens last := by
  obtain ⟨eaten, last, rfl, hlast⟩ := hmatch
  rw [h.tokens_eq] at hlast
  obtain ⟨hlength, hrest⟩ := hlast.drop_of_append h.run_not_mem
  have hsplit : c :: (eaten ++ last.take passed.length) ++ last.drop passed.length
      = taken ++ s.text := by
    rw [List.cons_append, List.append_assoc, List.take_append_drop]
    exact h.text_eq
  -- what is dropped is as long as what the passed tokens have taken, and one longer
  rcases List.append_eq_append_iff.mp hsplit with ⟨more, htaken, -⟩ | ⟨more, htaken, htext⟩
  · have hlong := congrArg List.length htaken
    simp only [List.length_append, List.length_cons, List.length_take, ← h.length_eq] at hlong
    omega
  · refine ⟨more, _, htext, ?_, hrest⟩
    rintro rfl
    have hlong := congrArg List.length htaken
    simp only [List.append_nil, List.length_append, List.length_cons, List.length_take,
      ← h.length_eq] at hlong
    omega

/-- The steps of the matcher. -/
inductive Step (s : State) : State → Prop
  | passRun {after : List Token} (htokens : s.tokens = .run :: after) (htext : s.text ≠ []) :
      Step s { s with tokens := after, retry := some (after, s.text) }
  | take {token : Token} {after : List Token} {c : Char} {rest : List Char}
      (htokens : s.tokens = token :: after) (htext : s.text = c :: rest)
      (htake : token.TakesChar c) : Step s { s with tokens := after, text := rest }
  | goBack {after : List Token} {c : Char} {rest : List Char} (htext : s.text ≠ [])
      (hstuck : ¬Matches s.tokens s.text) (hretry : s.retry = some (after, c :: rest)) :
      Step s { tokens := after, text := rest, retry := some (after, rest) }

/-- A state that is stuck goes back, if its last run has left a character. -/
theorem goBack_cases (htext : s.text ≠ []) (hstuck : ¬Matches s.tokens s.text) :
    (∃ next, s.goBack = some next ∧ s.Step next) ∨ s.goBack = none ∧ ¬s.Accepts := by
  rw [goBack]
  split
  · next after c rest hretry => exact .inl ⟨_, rfl, .goBack htext hstuck hretry⟩
  · next hnone =>
      refine .inr ⟨rfl, ?_⟩
      rintro (hmatch | ⟨after, c, rest, hretry, -⟩)
      · exact hstuck hmatch
      · exact hnone after c rest hretry

/-- Before the end of the text there is a step, or nothing more is accepted. -/
theorem step_cases (htext : s.text ≠ []) :
    (∃ next, s.step = some next ∧ s.Step next) ∨ s.step = none ∧ ¬s.Accepts := by
  rw [step]
  split
  · next hend => exact absurd hend htext
  · next after htokens _ => exact .inl ⟨_, rfl, .passRun htokens htext⟩
  · next c rest after hrest htokens => exact .inl ⟨_, rfl, .take htokens hrest trivial⟩
  · next c rest expected after hrest htokens =>
      split
      · next hsame => exact .inl ⟨_, rfl, .take htokens hrest hsame⟩
      · next hdiffers =>
          refine goBack_cases htext fun hmatch => hdiffers ?_
          rw [htokens, hrest] at hmatch
          exact ((matches_cons_cons (by simp)).mp hmatch).1
  · next htokens _ =>
      refine goBack_cases htext fun hmatch => htext ?_
      rwa [htokens] at hmatch

/-! ## Runs of the matcher -/

/-- Behind a run a state accepts what the run and the tokens after it match. -/
theorem accepts_of_retry {text : List Char} :
    Accepts { tokens := after, text, retry := some (after, text) }
      ↔ Matches (.run :: after) text := by
  rw [matches_run_iff, Accepts]
  refine or_congr_right ⟨?_, ?_⟩
  · rintro ⟨_, c, rest, ⟨⟩, h⟩
    exact ⟨c, rest, rfl, h⟩
  · rintro ⟨c, rest, rfl, h⟩
    exact ⟨after, c, rest, rfl, h⟩

/-- A step changes nothing of what is accepted. -/
theorem accepts_iff_of_step (hplaced : s.WellPlaced) (h : s.Step next) :
    s.Accepts ↔ next.Accepts := by
  cases h with
  | passRun htokens htext =>
      rw [accepts_of_retry, ← htokens]
      refine ⟨?_, .inl⟩
      rintro (hmatch | ⟨earlier, c, rest, hretry, hmatch⟩)
      · exact hmatch
      · -- what an earlier run may still eat, the run that is passed now may eat too
        obtain ⟨passed, taken, hsince⟩ := hplaced _ _ hretry
        obtain ⟨eaten, last, htext, -, hlast⟩ := hsince.matches_rest hmatch
        rw [htokens] at hlast ⊢
        rw [htext]
        exact hlast.run_append
  | @take token after c rest htokens htext htake =>
      have hrun : token ≠ .run := by
        rintro rfl
        exact htake
      rw [Accepts, Accepts, htokens, htext, matches_cons_cons hrun, and_iff_right htake]
  | goBack htext hstuck hretry =>
      rw [accepts_of_retry]
      refine ⟨?_, fun hmatch => .inr ⟨_, _, _, hretry, hmatch⟩⟩
      rintro (hmatch | ⟨_, _, _, hretry', hmatch⟩)
      · exact absurd hmatch hstuck
      · cases hretry.symm.trans hretry'
        exact hmatch

theorem wellPlaced_of_retry {text : List Char} :
    WellPlaced { tokens := after, text, retry := some (after, text) } := by
  rintro _ _ ⟨⟩
  exact ⟨[], [], rfl, rfl, rfl, List.not_mem_nil⟩

theorem WellPlaced.step (hplaced : s.WellPlaced) (h : s.Step next) : next.WellPlaced := by
  cases h with
  | passRun htokens htext => exact wellPlaced_of_retry
  | @take token _ c _ htokens htext htake =>
      intro after left hretry
      obtain ⟨passed, taken, htok, hleft, hlength, hrun⟩ := hplaced after left hretry
      refine ⟨passed ++ [token], taken ++ [c], ?_, ?_, ?_, ?_⟩
      · rw [htok, htokens, List.append_assoc, List.singleton_append]
      · rw [hleft, htext, List.append_assoc, List.singleton_append]
      · rw [List.length_append, List.length_append, hlength, List.length_singleton,
          List.length_singleton]
      · rw [List.mem_append, List.mem_singleton, not_or]
        refine ⟨hrun, ?_⟩
        rintro rfl
        exact htake
  | goBack htext hstuck hretry => exact wellPlaced_of_retry

/-- At the end of the text only runs may be left: to leave less of the text to
the tokens behind a run, it would have to be longer. -/
theorem accepts_iff_of_end (hplaced : s.WellPlaced) (hend : s.text = []) :
    s.Accepts ↔ s.tokens.all (· == .run) = true := by
  have honly : Matches s.tokens s.text ↔ s.tokens.all (· == .run) = true := by
    rw [hend, matches_nil_iff, List.all_eq_true]
    simp only [beq_iff_eq]
  rw [← honly]
  refine ⟨?_, .inl⟩
  rintro (hmatch | ⟨after, c, rest, hretry, hmatch⟩)
  · exact hmatch
  · obtain ⟨passed, taken, hsince⟩ := hplaced _ _ hretry
    obtain ⟨eaten, last, htext, hne, -⟩ := hsince.matches_rest hmatch
    rw [hend] at htext
    exact absurd (List.append_eq_nil_iff.mp htext.symm).1 hne

/-- No more tokens than `width` are left, also behind the last run. -/
def Within (width : Nat) (s : State) : Prop :=
  s.tokens.length ≤ width ∧ ∀ after left, s.retry = some (after, left) → after.length ≤ width

theorem Within.step (hwithin : s.Within width) (h : s.Step next) : next.Within width := by
  obtain ⟨htokens, hretry⟩ := hwithin
  cases h with
  | passRun heq _ =>
      rw [heq, List.length_cons] at htokens
      refine ⟨Nat.le_of_succ_le htokens, ?_⟩
      rintro _ _ ⟨⟩
      exact Nat.le_of_succ_le htokens
  | take heq _ _ =>
      rw [heq, List.length_cons] at htokens
      exact ⟨Nat.le_of_succ_le htokens, hretry⟩
  | goBack _ _ heq =>
      refine ⟨hretry _ _ heq, ?_⟩
      rintro _ _ ⟨⟩
      exact hretry _ _ heq

/-- The characters that the last run has not eaten, or all that are left. -/
def uneaten (s : State) : List Char :=
  match s.retry with
  | some (_, left) => left
  | none => s.text

/-- The text that is left is part of what the last run has not eaten. -/
theorem WellPlaced.length_text_le (hplaced : s.WellPlaced) :
    s.text.length ≤ s.uneaten.length := by
  rw [uneaten]
  split
  · next after left hretry =>
      obtain ⟨passed, taken, hsince⟩ := hplaced _ _ hretry
      rw [hsince.text_eq, List.length_append]
      exact Nat.le_add_left _ _
  · exact Nat.le_refl _

/-- A bound on the steps that are left: for each character that the last run may
still eat, all tokens may be tried again. -/
def todo (width : Nat) (s : State) : Nat := s.uneaten.length * (width + 1) + s.tokens.length

/-- Each step makes the bound smaller: going back resets the tokens, but for one
character less. -/
theorem todo_lt_of_step (hplaced : s.WellPlaced) (hwithin : s.Within width) (h : s.Step next) :
    next.todo width < s.todo width := by
  cases h with
  | passRun htokens htext =>
      have hchars := Nat.mul_le_mul_right (width + 1) hplaced.length_text_le
      simp only [todo, uneaten, htokens, List.length_cons] at hchars ⊢
      omega
  | take htokens htext htake =>
      simp only [todo, uneaten, htokens, htext]
      split
      · simp only [List.length_cons]
        omega
      · simp only [List.length_cons, Nat.succ_mul]
        omega
  | goBack htext hstuck hretry =>
      have hafter := hwithin.2 _ _ hretry
      simp only [todo, uneaten, hretry, List.length_cons]
      rw [Nat.succ_mul]
      omega

/-- With more steps than are left the matcher finds out what is accepted. -/
theorem finish_eq_true_iff {steps : Nat} (hplaced : s.WellPlaced) (hwithin : s.Within width)
    (hsteps : s.todo width < steps) : finish steps s = true ↔ s.Accepts := by
  induction steps generalizing s with
  | zero => exact absurd hsteps (Nat.not_lt_zero _)
  | succ steps ih =>
      rw [finish]
      split
      · next hend => exact (accepts_iff_of_end hplaced hend).symm
      · next c rest htext =>
          rcases step_cases (htext ▸ List.cons_ne_nil c rest) with
            ⟨next, hnext, hstep⟩ | ⟨hnone, hrejects⟩
          · have htodo := todo_lt_of_step hplaced hwithin hstep
            rw [hnext, accepts_iff_of_step hplaced hstep]
            exact ih (hplaced.step hstep) (hwithin.step hstep) (by omega)
          · rw [hnone]
            exact iff_of_false Bool.false_ne_true hrejects

end State

/-- The matcher decides whether tokens match a text. -/
theorem run_eq_true_iff {tokens : List Token} {text : List Char} :
    run tokens text = true ↔ Matches tokens text := by
  have hplaced : State.WellPlaced { tokens, text, retry := none } := nofun
  have hwithin : State.Within tokens.length { tokens, text, retry := none } :=
    ⟨Nat.le_refl _, nofun⟩
  have hsteps : State.todo tokens.length { tokens, text, retry := none }
      < stepBound tokens text + 1 := by
    dsimp only [State.todo, State.uneaten]
    rw [stepBound, Nat.succ_mul]
    omega
  rw [run, State.finish_eq_true_iff hplaced hwithin hsteps, State.Accepts]
  simp

end Pattern

end RowQuery
