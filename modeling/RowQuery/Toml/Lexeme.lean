import RowQuery.Text.Digits

/-!
# Words of toml text

Readers for the smallest parts of a document: blank space and comments, the
four kinds of strings, whole numbers and keys. A reader takes its part from the
front of a text and gives what is left.

A string in one kind of quotes is read with escapes, in the other kind as it
stands; three quotes in a row begin a string that may go over several lines.
-/

namespace RowQuery

namespace Toml

/-! ## Blank space -/

def isSpace (c : Char) : Bool := c = ' ' || c = '\t'

def skipSpace (cs : List Char) : List Char := cs.dropWhile isSpace

/-- Whether a character may stand in a comment or in a string as it is. -/
def isPlain (c : Char) : Bool := c = '\t' || (32 ≤ c.toNat && c.toNat ≠ 127)

def newline? : List Char → Option (List Char)
  | '\n' :: rest => some rest
  | '\r' :: '\n' :: rest => some rest
  | _ => none

def skipComment : List Char → List Char
  | '#' :: rest => rest.dropWhile isPlain
  | cs => cs

/-- Drops what may follow at the end of a line, and the end itself. -/
def lineEnd? (cs : List Char) : Option (List Char) :=
  match skipComment (skipSpace cs) with
  | [] => some []
  | cs => newline? cs

/-- Drops up to `steps` line ends, and the blank space and comments around
them. -/
def skipLines : (steps : Nat) → List Char → List Char
  | 0, cs => cs
  | steps + 1, cs =>
      let cs := skipComment (skipSpace cs)
      match newline? cs with
      | some rest => skipLines steps rest
      | none => cs

def skipGap (cs : List Char) : List Char := skipLines (cs.length + 1) cs

/-! ## Strings -/

def codePoint? (width : Nat) (cs : List Char) : Option (Char × List Char) :=
  let digits := cs.take width
  if digits.length = width then
    match readHex? digits with
    | some n => if n.isValidChar then some (Char.ofNat n, cs.drop width) else none
    | none => none
  else none

/-- The character of an escape, after its backslash. -/
def escape? : List Char → Option (Char × List Char)
  | '"' :: rest => some ('"', rest)
  | '\\' :: rest => some ('\\', rest)
  | 'b' :: rest => some (Char.ofNat 8, rest)
  | 't' :: rest => some ('\t', rest)
  | 'n' :: rest => some ('\n', rest)
  | 'f' :: rest => some (Char.ofNat 12, rest)
  | 'r' :: rest => some ('\r', rest)
  | 'e' :: rest => some (Char.ofNat 27, rest)
  | 'x' :: rest => codePoint? 2 rest
  | 'u' :: rest => codePoint? 4 rest
  | 'U' :: rest => codePoint? 8 rest
  | _ => none

/-- The text of characters that were collected in reverse. -/
def collected (done : List Char) : String := String.ofList done.reverse

/-- Reads the rest of a string in one line, up to a quote. Escapes count where
`escapes` says so. -/
def lineString? (quote : Char) (escapes : Bool) : (steps : Nat) → (done : List Char) →
    List Char → Option (String × List Char)
  | 0, _, _ => none
  | _ + 1, _, [] => none
  | steps + 1, done, c :: rest =>
      if c = quote then some (collected done, rest)
      else if escapes && c = '\\' then
        match escape? rest with
        | some (c, rest) => lineString? quote escapes steps (c :: done) rest
        | none => none
      else if isPlain c then lineString? quote escapes steps (c :: done) rest
      else none

/-- What is left after three closing quotes: up to two more belong to the
string. -/
def closeBlock (quote : Char) (done : List Char) : List Char → String × List Char
  | a :: b :: rest =>
      if a = quote ∧ b = quote then (collected (quote :: quote :: done), rest)
      else if a = quote then (collected (quote :: done), b :: rest)
      else (collected done, a :: b :: rest)
  | [a] => if a = quote then (collected (quote :: done), []) else (collected done, [a])
  | [] => (collected done, [])

def threeQuotes (quote : Char) (cs : List Char) : Bool :=
  cs.take 3 == List.replicate 3 quote

/-- Drops blank space over lines if there is nothing else up to the end of the
line. -/
def continuation? (cs : List Char) : Option (List Char) :=
  (newline? (skipSpace cs)).map fun rest =>
    rest.dropWhile fun c => isSpace c || c = '\n' || c = '\r'

/-- Reads the rest of a string over several lines, up to three quotes. -/
def blockString? (quote : Char) (escapes : Bool) : (steps : Nat) → (done : List Char) →
    List Char → Option (String × List Char)
  | 0, _, _ => none
  | _ + 1, _, [] => none
  | steps + 1, done, c :: rest =>
      if threeQuotes quote (c :: rest) then some (closeBlock quote done (rest.drop 2))
      else if escapes && c = '\\' then
        match continuation? rest with
        | some rest => blockString? quote escapes steps done rest
        | none =>
            match escape? rest with
            | some (c, rest) => blockString? quote escapes steps (c :: done) rest
            | none => none
      else
        match newline? (c :: rest) with
        | some rest => blockString? quote escapes steps ('\n' :: done) rest
        | none =>
            if isPlain c then blockString? quote escapes steps (c :: done) rest else none

def readLineString? (quote : Char) (cs : List Char) : Option (String × List Char) :=
  lineString? quote (quote == '"') (cs.length + 1) [] cs

/-- Reads a string after its first quote. A line end directly behind three
quotes does not belong to the string. -/
def readString? (quote : Char) (cs : List Char) : Option (String × List Char) :=
  if threeQuotes quote (quote :: cs) then
    let body := cs.drop 2
    let body := (newline? body).getD body
    blockString? quote (quote == '"') (body.length + 1) [] body
  else readLineString? quote cs

/-! ## Whole numbers -/

/-- Reads further digits, from the value of the digits before them. A single
underscore may stand between two digits. -/
def readRun (base : Nat) (digit : Char → Option Nat) (n : Nat) : List Char → Nat × List Char
  | [] => (n, [])
  | '_' :: c :: rest =>
      match digit c with
      | some d => readRun base digit (n * base + d) rest
      | none => (n, '_' :: c :: rest)
  | c :: rest =>
      match digit c with
      | some d => readRun base digit (n * base + d) rest
      | none => (n, c :: rest)

def readDigits? (base : Nat) (digit : Char → Option Nat) : List Char → Option (Nat × List Char)
  | [] => none
  | c :: rest => (digit c).map fun d => readRun base digit d rest

def digitBelow? (bound : Nat) (c : Char) : Option Nat :=
  (digit? c).bind fun d => if d < bound then some d else none

/-- Reads a decimal number; a zero in front stands alone. -/
def readDecimal? : List Char → Option (Nat × List Char)
  | '0' :: rest => some (0, rest)
  | cs => readDigits? 10 digit? cs

/-- Reads a whole number: decimal with an optional sign, or hexadecimal, octal
or binary after a zero and a letter. -/
def readInteger? : List Char → Option (Int × List Char)
  | '0' :: 'x' :: rest => (readDigits? 16 hexDigit? rest).map fun (n, rest) => (n, rest)
  | '0' :: 'o' :: rest => (readDigits? 8 (digitBelow? 8) rest).map fun (n, rest) => (n, rest)
  | '0' :: 'b' :: rest => (readDigits? 2 (digitBelow? 2) rest).map fun (n, rest) => (n, rest)
  | '+' :: rest => (readDecimal? rest).map fun (n, rest) => (n, rest)
  | '-' :: rest => (readDecimal? rest).map fun (n, rest) => (-n, rest)
  | cs => (readDecimal? cs).map fun (n, rest) => (n, rest)

/-! ## Keys -/

def isBareKeyPart (c : Char) : Bool := c.isAlphanum || c = '_' || c = '-'

def keyPart? : List Char → Option (String × List Char)
  | '"' :: rest => readLineString? '"' rest
  | '\'' :: rest => readLineString? '\'' rest
  | cs =>
      match cs.takeWhile isBareKeyPart with
      | [] => none
      | part => some (String.ofList part, cs.dropWhile isBareKeyPart)

/-- Reads the parts of a dotted key, at most `steps` of them, and the blank
space behind. -/
def keyParts? : (steps : Nat) → List Char → Option (List String × List Char)
  | 0, _ => none
  | steps + 1, cs =>
      match keyPart? (skipSpace cs) with
      | none => none
      | some (part, rest) =>
          match skipSpace rest with
          | '.' :: rest => (keyParts? steps rest).map fun (parts, rest) => (part :: parts, rest)
          | rest => some ([part], rest)

def key? (cs : List Char) : Option (List String × List Char) := keyParts? (cs.length + 1) cs

end Toml

end RowQuery
