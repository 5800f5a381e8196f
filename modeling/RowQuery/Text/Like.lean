/-!
# Patterns

In a pattern `%` stands for any run of characters, `_` for any one character,
and a backslash takes the character after it literally; a backslash at the end
stands for itself. Every other character matches itself, ASCII letters in
either case.

`Pattern.tokens` reads a pattern, `Pattern.run` matches its tokens with a text.
The matcher goes forward and keeps one place to come back to: the last run of
characters it has passed and how much of the text that run has eaten.
-/

namespace RowQuery

namespace Pattern

/-- One part of a pattern. -/
inductive Token where
  | run
  | one
  /-- A character, ASCII letters in either case. -/
  | char (c : Char)
deriving Repr, DecidableEq

/-- The tokens of a pattern, one for each character or escape. -/
def readTokens : List Char → List Token
  | [] => []
  | '\\' :: c :: rest => .char c :: readTokens rest
  | c :: rest =>
      (if c = '%' then .run else if c = '_' then .one else .char c) :: readTokens rest

def joinRuns : List Token → List Token
  | .run :: .run :: rest => joinRuns (.run :: rest)
  | token :: rest => token :: joinRuns rest
  | [] => []

/-- The tokens of a pattern, no two runs beside each other. -/
def tokens (pattern : String) : List Token := joinRuns (readTokens pattern.toList)

/-- Equality of characters, ASCII letters in either case. -/
def sameLetter (a b : Char) : Bool := a.toLower == b.toLower

/-- Where the matcher stands: the tokens and characters still to match, and the
place to come back to, if a run has been passed: the tokens after that run and
the characters that it has not eaten. -/
structure State where
  tokens : List Token
  text : List Char
  retry : Option (List Token × List Char)
deriving Repr, DecidableEq

/-- Goes back to the last run and lets it eat one character more. -/
def State.goBack (s : State) : Option State :=
  match s.retry with
  | some (after, _ :: rest) =>
      some { tokens := after, text := rest, retry := some (after, rest) }
  | _ => none

def State.step (s : State) : Option State :=
  match s.text, s.tokens with
  | [], _ => none
  | _, .run :: after => some { s with tokens := after, retry := some (after, s.text) }
  | _ :: rest, .one :: after => some { s with tokens := after, text := rest }
  | c :: rest, .char expected :: after =>
      if sameLetter expected c then some { s with tokens := after, text := rest }
      else s.goBack
  | _, [] => s.goBack

/-- Steps until the text is at its end, at most `steps` times; says whether only
runs are left of the tokens. -/
def State.finish : (steps : Nat) → State → Bool
  | 0, _ => false
  | steps + 1, s =>
      match s.text with
      | [] => s.tokens.all (· == .run)
      | _ :: _ =>
          match s.step with
          | some next => State.finish steps next
          | none => false

/-- A bound on the steps of a match: each character of the text may be the end
of what a run has eaten, and each token may be tried from there. -/
def stepBound (tokens : List Token) (text : List Char) : Nat :=
  (text.length + 1) * (tokens.length + 1)

def run (tokens : List Token) (text : List Char) : Bool :=
  State.finish (stepBound tokens text + 1) { tokens, text, retry := none }

/-- Whether a pattern matches a text. -/
def matches? (pattern text : String) : Bool := run (tokens pattern) text.toList

end Pattern

end RowQuery
