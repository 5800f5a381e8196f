import Mathlib.Logic.Relation
import RowQuery.Proofs.Text.Matching

/-!
# The turns of the matcher

A `State` holds what is left of the tokens and of the text. A `Cursor` stands at
positions in them, which may lie anywhere, and `Cursor.next?` is one turn of the
loop that moves it. `Cursor.Ends` counts the turns until the loop ends; there the
tokens are cut at the cursor, which has to be a position in them.

A cursor that the loop reaches is in bounds (`Cursor.inBounds_of_reached`), and
there its turn is the step of the state it stands for (`Cursor.step_state`). What
bounds the steps of the matcher bounds the turns of the loop as well, so the loop
ends, with the answer of the matcher (`Pattern.loop_ends`).
-/

namespace RowQuery

namespace Pattern

/-- Where the loop stands: before which token and before which character. -/
structure Cursor where
  token : Nat
  char : Nat
  /-- The last run that has been passed, and the character before which it has
  stopped eating. -/
  retry : Option (Nat × Nat)
deriving Repr, DecidableEq

namespace Cursor

def start : Cursor := { token := 0, char := 0, retry := none }

/-- Goes back behind the last run and lets it eat one character more. -/
def goBack (k : Cursor) : Option Cursor :=
  k.retry.map fun (run, eaten) =>
    { token := run + 1, char := eaten + 1, retry := some (run, eaten + 1) }

/-- Goes on behind a token and a character. -/
def advance (k : Cursor) : Cursor := { k with token := k.token + 1, char := k.char + 1 }

/-- One turn of the loop. There is none at the end of the text, and none where
nothing matches and no run has been passed. -/
def next? (tokens : List Token) (text : List Char) (k : Cursor) : Option Cursor :=
  match text[k.char]? with
  | none => none
  | some c =>
      match tokens[k.token]? with
      | some .run => some { k with token := k.token + 1, retry := some (k.token, k.char) }
      | some .one => some k.advance
      | some (.char expected) => if sameLetter expected c then some k.advance else k.goBack
      | none => k.goBack

section Loop

variable (tokens : List Token) (text : List Char)

/-- The cursors that the loop reaches from the start. -/
def Reached : Cursor → Prop :=
  Relation.ReflTransGen (fun k next => k.next? tokens text = some next) start

/-- How the loop ends from a cursor: after how many turns and with which answer. The
turn in which nothing matches is counted; at the end of the text only runs may be
left of the tokens. -/
inductive Ends : Cursor → Nat → Bool → Prop
  | atEnd {k : Cursor} (hend : text.length ≤ k.char) (hcut : k.token ≤ tokens.length) :
      Ends k 0 ((tokens.drop k.token).all (· == .run))
  | stuck {k : Cursor} (hchar : k.char < text.length) (hnone : k.next? tokens text = none) :
      Ends k 1 false
  | turn {k next : Cursor} {turns : Nat} {answer : Bool}
      (hnext : k.next? tokens text = some next) (hrest : Ends next turns answer) :
      Ends k (turns + 1) answer

/-- The positions of a cursor lie in the tokens and in the text, and the last run
has not eaten past the cursor. -/
structure InBounds (k : Cursor) : Prop where
  token_le : k.token ≤ tokens.length
  char_le : k.char ≤ text.length
  retry : ∀ run eaten, k.retry = some (run, eaten) → run < tokens.length ∧ eaten ≤ k.char

/-- What is left at a cursor. -/
def state (k : Cursor) : State where
  tokens := tokens.drop k.token
  text := text.drop k.char
  retry := k.retry.map fun (run, eaten) => (tokens.drop (run + 1), text.drop eaten)

end Loop

variable {tokens : List Token} {text : List Char} {k next : Cursor} {turns : Nat}
  {answer : Bool}

theorem inBounds_start : InBounds tokens text start := ⟨Nat.zero_le _, Nat.zero_le _, nofun⟩

theorem InBounds.goBack (hk : k.InBounds tokens text) (hchar : k.char < text.length)
    (h : k.goBack = some next) : next.InBounds tokens text := by
  obtain ⟨⟨run, eaten⟩, hretry, rfl⟩ := Option.map_eq_some_iff.mp h
  obtain ⟨hrun, heaten⟩ := hk.retry run eaten hretry
  refine ⟨hrun, Nat.lt_of_le_of_lt heaten hchar, ?_⟩
  rintro _ _ ⟨⟩
  exact ⟨hrun, Nat.le_refl _⟩

theorem InBounds.advance (hk : k.InBounds tokens text) (htoken : k.token < tokens.length)
    (hchar : k.char < text.length) : k.advance.InBounds tokens text := by
  refine ⟨htoken, hchar, fun run eaten hretry => ?_⟩
  obtain ⟨hrun, heaten⟩ := hk.retry run eaten hretry
  exact ⟨hrun, Nat.le_succ_of_le heaten⟩

theorem InBounds.next? (hk : k.InBounds tokens text) (h : k.next? tokens text = some next) :
    next.InBounds tokens text := by
  rw [Cursor.next?] at h
  split at h
  · cases h
  · next c hc =>
      obtain ⟨hchar, -⟩ := List.getElem?_eq_some_iff.mp hc
      split at h
      · next hrun =>
          obtain ⟨htoken, -⟩ := List.getElem?_eq_some_iff.mp hrun
          cases h
          refine ⟨htoken, hk.char_le, ?_⟩
          rintro _ _ ⟨⟩
          exact ⟨htoken, Nat.le_refl _⟩
      · next hone =>
          obtain ⟨htoken, -⟩ := List.getElem?_eq_some_iff.mp hone
          cases h
          exact hk.advance htoken hchar
      · next expected hexpected =>
          obtain ⟨htoken, -⟩ := List.getElem?_eq_some_iff.mp hexpected
          split at h
          · cases h
            exact hk.advance htoken hchar
          · exact hk.goBack hchar h
      · exact hk.goBack hchar h

theorem inBounds_of_reached (h : Reached tokens text k) : k.InBounds tokens text := by
  induction h with
  | refl => exact inBounds_start
  | tail _ hnext ih => exact ih.next? hnext

/-! ## Cursors and states -/

theorem drop_of_getElem? {α : Type} {l : List α} {i : Nat} {a : α} (h : l[i]? = some a) :
    l.drop i = a :: l.drop (i + 1) := by
  rw [List.drop_eq_getElem?_toList_append, h]
  rfl

theorem goBack_state (hk : k.InBounds tokens text) (hchar : k.char < text.length) :
    (k.state tokens text).goBack = k.goBack.map (state tokens text) := by
  cases hretry : k.retry with
  | none => simp only [State.goBack, state, Cursor.goBack, hretry, Option.map_none]
  | some place =>
      obtain ⟨run, eaten⟩ := place
      obtain ⟨-, heaten⟩ := hk.retry run eaten hretry
      have hleft := List.drop_eq_getElem_cons (Nat.lt_of_le_of_lt heaten hchar)
      simp only [State.goBack, state, Cursor.goBack, hretry, Option.map_some]
      rw [hleft]

/-- In bounds, a turn of the loop is a step of the matcher. -/
theorem step_state (hk : k.InBounds tokens text) :
    (k.state tokens text).step = (k.next? tokens text).map (state tokens text) := by
  rw [Cursor.next?]
  split
  · next hend =>
      have htext := List.drop_eq_nil_of_le (List.getElem?_eq_none_iff.mp hend)
      simp only [State.step, state, htext, Option.map_none]
  · next c hc =>
      have htext := drop_of_getElem? hc
      -- going back looks only at the last run, whatever tokens and text are left
      have hback := goBack_state hk (List.getElem?_eq_some_iff.mp hc).1
      split
      · next hrun =>
          simp only [State.step, state, htext, drop_of_getElem? hrun, Option.map_some]
      · next hone =>
          simp only [State.step, state, htext, drop_of_getElem? hone, Option.map_some, advance]
      · next expected hexpected =>
          simp only [State.step, state, htext, drop_of_getElem? hexpected]
          split
          · rfl
          · exact hback
      · next hnone =>
          have htokens := List.drop_eq_nil_of_le (List.getElem?_eq_none_iff.mp hnone)
          simp only [State.step, state, htext, htokens]
          exact hback

/-! ## The end of the loop -/

theorem char_lt_of_next? (h : k.next? tokens text = some next) : k.char < text.length := by
  rw [Cursor.next?] at h
  split at h
  · cases h
  · next c hc => exact (List.getElem?_eq_some_iff.mp hc).1

theorem step_of_next? (hk : k.InBounds tokens text) (h : k.next? tokens text = some next) :
    (k.state tokens text).Step (next.state tokens text) := by
  have hstep := step_state hk
  rw [h, Option.map_some] at hstep
  have htext : (k.state tokens text).text ≠ [] :=
    mt List.drop_eq_nil_iff.mp (Nat.not_le_of_lt (char_lt_of_next? h))
  rcases State.step_cases htext with ⟨other, hother, hstep'⟩ | ⟨hnone, -⟩
  · cases hstep.symm.trans hother
    exact hstep'
  · cases hstep.symm.trans hnone

/-- No more tokens are left at a cursor than there are. -/
theorem within_state (k : Cursor) : (k.state tokens text).Within tokens.length := by
  refine ⟨(List.drop_sublist ..).length_le, fun after left hretry => ?_⟩
  obtain ⟨⟨run, eaten⟩, -, heq⟩ := Option.map_eq_some_iff.mp hretry
  cases heq
  exact (List.drop_sublist ..).length_le

/-- The loop ends in time: each turn leaves fewer steps to the matcher, and the turn
in which nothing matches may be one more. -/
theorem exists_ends (hk : k.InBounds tokens text)
    (hplaced : (k.state tokens text).WellPlaced) :
    ∃ turns answer, Ends tokens text k turns answer
      ∧ turns ≤ (k.state tokens text).todo tokens.length + 1 := by
  -- neither position grows with every turn, but what is left to do always gets less
  induction hbound : (k.state tokens text).todo tokens.length using Nat.strongRecOn
    generalizing k with
  | ind bound ih =>
      by_cases hchar : k.char < text.length
      · cases hnext : k.next? tokens text with
        | none => exact ⟨1, false, .stuck hchar hnext, Nat.le_add_left ..⟩
        | some next =>
            have hstep := step_of_next? hk hnext
            have htodo := State.todo_lt_of_step hplaced (within_state k) hstep
            rw [hbound] at htodo
            obtain ⟨turns, answer, hends, hturns⟩ :=
              ih _ htodo (hk.next? hnext) (hplaced.step hstep) rfl
            exact ⟨turns + 1, answer, .turn hnext hends, by omega⟩
      · exact ⟨0, _, .atEnd (Nat.le_of_not_lt hchar) hk.token_le, Nat.zero_le _⟩

/-- The loop ends in one way only. -/
theorem Ends.unique {turns' : Nat} {answer' : Bool} (h : Ends tokens text k turns answer)
    (h' : Ends tokens text k turns' answer') : turns' = turns ∧ answer' = answer := by
  induction h generalizing turns' with
  | atEnd hend _ =>
      cases h' with
      | atEnd _ _ => exact ⟨rfl, rfl⟩
      | stuck hchar _ => exact absurd hend (Nat.not_le_of_lt hchar)
      | turn hnext _ => exact absurd hend (Nat.not_le_of_lt (char_lt_of_next? hnext))
  | stuck hchar hnone =>
      cases h' with
      | atEnd hend _ => exact absurd hend (Nat.not_le_of_lt hchar)
      | stuck _ _ => exact ⟨rfl, rfl⟩
      | turn hnext _ => cases hnone.symm.trans hnext
  | turn hnext _ ih =>
      cases h' with
      | atEnd hend _ => exact absurd hend (Nat.not_le_of_lt (char_lt_of_next? hnext))
      | stuck _ hnone => cases hnone.symm.trans hnext
      | turn hnext' hrest' =>
          cases hnext.symm.trans hnext'
          obtain ⟨rfl, rfl⟩ := ih hrest'
          exact ⟨rfl, rfl⟩

/-- A matcher with more steps than the loop has turns gives the answer of the loop. -/
theorem finish_of_ends (hk : k.InBounds tokens text) (h : Ends tokens text k turns answer)
    {steps : Nat} (hsteps : turns < steps) :
    State.finish steps (k.state tokens text) = answer := by
  induction h generalizing steps with
  | @atEnd k hend _ =>
      obtain ⟨steps, rfl⟩ := Nat.exists_eq_add_one_of_ne_zero (Nat.ne_zero_of_lt hsteps)
      have htext : (k.state tokens text).text = [] := List.drop_eq_nil_of_le hend
      rw [State.finish, htext]
      rfl
  | @stuck k hchar hnone =>
      obtain ⟨steps, rfl⟩ := Nat.exists_eq_add_one_of_ne_zero (Nat.ne_zero_of_lt hsteps)
      have htext : (k.state tokens text).text = _ :: _ := List.drop_eq_getElem_cons hchar
      rw [State.finish, htext, step_state hk, hnone]
      rfl
  | @turn k next turns answer hnext _ ih =>
      obtain ⟨steps, rfl⟩ := Nat.exists_eq_add_one_of_ne_zero (Nat.ne_zero_of_lt hsteps)
      have htext : (k.state tokens text).text = _ :: _ :=
        List.drop_eq_getElem_cons (char_lt_of_next? hnext)
      rw [State.finish, htext, step_state hk, hnext]
      exact ih (hk.next? hnext) (Nat.lt_of_succ_lt_succ hsteps)

end Cursor

/-- The loop of every pattern and every text ends, in one way, after no more turns
than there are pairs of a position in the tokens and one in the text, with the
answer of the matcher. It begins where the matcher begins. Wherever it comes to, the
cursor is a position in the tokens and in the text, and its turn is the step of the
matcher. -/
theorem loop_ends (pattern text : String) :
    let all := tokens pattern
    let chars := text.toList
    Cursor.start.state all chars = { tokens := all, text := chars, retry := none }
      ∧ (∀ k, Cursor.Reached all chars k →
          k.token ≤ all.length ∧ k.char ≤ chars.length
            ∧ (k.state all chars).step = (k.next? all chars).map (Cursor.state all chars))
      ∧ ∃ turns, turns ≤ (chars.length + 1) * (all.length + 1)
        ∧ ∀ n answer, Cursor.Ends all chars .start n answer
          ↔ n = turns ∧ answer = matches? pattern text := by
  intro all chars
  refine ⟨rfl, fun k hreached => ?_, ?_⟩
  · have hk := Cursor.inBounds_of_reached hreached
    exact ⟨hk.token_le, hk.char_le, Cursor.step_state hk⟩
  · have hstart : Cursor.InBounds all chars .start := Cursor.inBounds_start
    obtain ⟨turns, answer, hends, hturns⟩ := Cursor.exists_ends hstart nofun
    have hbound : turns ≤ stepBound all chars := by
      rw [stepBound, Nat.succ_mul]
      exact hturns
    have hanswer : matches? pattern text = answer :=
      Cursor.finish_of_ends hstart hends (Nat.lt_succ_of_le hbound)
    refine ⟨turns, hbound, fun n answer' => ⟨fun h => ?_, ?_⟩⟩
    · rw [hanswer]
      exact hends.unique h
    · rintro ⟨rfl, rfl⟩
      rw [hanswer]
      exact hends

end Pattern

end RowQuery
