import RowQuery.Text.CaseTables

/-!
# Small letters

`lowercase` replaces every capital letter by its small one. Two letters need
more than a table: the capital I with a dot becomes two characters, and the
capital sigma becomes the final small sigma at the end of a word, which is
where a letter with a case stands before it and none after it, characters that
do not end a word not counting.
-/

namespace RowQuery

def inRanges (n : Nat) : List (Nat × Nat) → Bool
  | [] => false
  | (low, high) :: rest => (low ≤ n && n ≤ high) || inRanges n rest

def isCased (c : Char) : Bool :=
  if c.toNat < 128 then c.isAlpha else inRanges c.toNat casedRanges

/-- Whether a character does not end a word. -/
def isTransparent (c : Char) : Bool :=
  if c.toNat < 128 then c = '\'' || c = '.' || c = ':' || c = '^' || c.toNat = 0x60
  else inRanges c.toNat transparentRanges

/-- The code point of the small letter, by the runs of capital letters. -/
def lowerByRuns (n : Nat) : List LowercaseRun → Nat
  | [] => n
  | run :: rest =>
      if run.first ≤ n ∧ n ≤ run.last ∧ (n - run.first) % run.step = 0 then
        (n + run.shift).toNat
      else lowerByRuns n rest

/-- The small letter of a character other than the capital sigma. -/
def lowerChar (c : Char) : List Char :=
  if c.toNat < 128 then [c.toLower]
  else if c.toNat = 0x130 then ['i', Char.ofNat 0x307]
  else [Char.ofNat (lowerByRuns c.toNat lowercaseRuns)]

/-- Whether the first character that ends or continues a word is a letter with
a case. -/
def startsCased (cs : List Char) : Bool :=
  match cs.find? fun c => !isTransparent c with
  | some c => isCased c
  | none => false

/-- The small letters of a text. `afterCased` says whether a letter with a case
stands before it. -/
def lowercaseAfter (afterCased : Bool) : List Char → List Char
  | [] => []
  | c :: rest =>
      let small :=
        if c.toNat = 0x3A3 then
          [if afterCased && !startsCased rest then Char.ofNat 0x3C2 else Char.ofNat 0x3C3]
        else lowerChar c
      small ++ lowercaseAfter (if isTransparent c then afterCased else isCased c) rest

def lowercase (s : String) : String := String.ofList (lowercaseAfter false s.toList)

end RowQuery
