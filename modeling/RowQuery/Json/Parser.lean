import RowQuery.Json.Number

/-!
# Reading json text

`Json.parse?` reads a text that is one document. Arrays and objects may stand
inside each other `Json.maxNesting` deep; the reader is defined by recursion on
the nesting that is left, and its loops by recursion on the length of the text.
The last entry of an object wins over earlier ones with the same key.
-/

namespace RowQuery

namespace Json

/-- How deep arrays and objects may stand inside each other. -/
def maxNesting : Nat := 127

def isBlank (c : Char) : Bool := c = ' ' || c = '\n' || c = '\t' || c = '\r'

def skipBlank (cs : List Char) : List Char := cs.dropWhile isBlank

def word? : (word : List Char) → List Char → Option (List Char)
  | [], cs => some cs
  | w :: word, c :: cs => if w = c then word? word cs else none
  | _ :: _, [] => none

/-! ## Strings -/

/-- The value of four hexadecimal digits at the front. -/
def hexFour? : List Char → Option (Nat × List Char)
  | a :: b :: c :: d :: rest => (readHex? [a, b, c, d]).map (·, rest)
  | _ => none

/-- The character after the `u` of an escape. Characters past the first plane
take two escapes, and half of such a pair is refused. -/
def unicodeEscape? (cs : List Char) : Option (Char × List Char) := do
  let (n, rest) ← hexFour? cs
  if 0xDC00 ≤ n ∧ n ≤ 0xDFFF then none
  else if 0xD800 ≤ n ∧ n ≤ 0xDBFF then
    match rest with
    | '\\' :: 'u' :: rest => do
        let (m, rest) ← hexFour? rest
        if 0xDC00 ≤ m ∧ m ≤ 0xDFFF then
          some (Char.ofNat (0x10000 + (n - 0xD800) * 0x400 + (m - 0xDC00)), rest)
        else none
    | _ => none
  else some (Char.ofNat n, rest)

def simpleEscape? (c : Char) : Option Char :=
  if c = '"' ∨ c = '\\' ∨ c = '/' then some c
  else if c = 'b' then some (Char.ofNat 8)
  else if c = 'f' then some (Char.ofNat 12)
  else if c = 'n' then some '\n'
  else if c = 'r' then some '\r'
  else if c = 't' then some '\t'
  else none

/-- Reads the rest of a string after its opening quote, up to `steps`
characters and escapes of it. The characters read so far are kept in
reverse. -/
def stringRest? : (steps : Nat) → (done : List Char) → List Char →
    Option (String × List Char)
  | 0, _, _ => none
  | steps + 1, done, cs =>
      match cs with
      | '"' :: rest => some (String.ofList done.reverse, rest)
      | '\\' :: 'u' :: rest =>
          match unicodeEscape? rest with
          | some (c, rest) => stringRest? steps (c :: done) rest
          | none => none
      | '\\' :: e :: rest =>
          match simpleEscape? e with
          | some c => stringRest? steps (c :: done) rest
          | none => none
      | c :: rest =>
          if c = '\\' ∨ c.toNat < 32 then none else stringRest? steps (c :: done) rest
      | [] => none

def string? (cs : List Char) : Option (String × List Char) :=
  stringRest? (cs.length + 1) [] cs

/-! ## Documents -/

abbrev Reader : Type := List Char → Option (Json × List Char)

/-- Reads the items of an array after an item or the opening bracket, at most
`steps` of them. -/
def items? (value : Reader) : (steps : Nat) → (done : List Json) → List Char →
    Option (Json × List Char)
  | 0, _, _ => none
  | steps + 1, done, cs =>
      match value cs with
      | none => none
      | some (item, rest) =>
          match skipBlank rest with
          | ',' :: rest => items? value steps (item :: done) rest
          | ']' :: rest => some (.array (item :: done).reverse, rest)
          | _ => none

/-- Reads the entries of an object after a comma or the opening brace, at most
`steps` of them. -/
def entries? (value : Reader) : (steps : Nat) → (done : List (String × Json)) →
    List Char → Option (Json × List Char)
  | 0, _, _ => none
  | steps + 1, done, cs =>
      match skipBlank cs with
      | '"' :: rest =>
          match string? rest with
          | none => none
          | some (key, rest) =>
              match skipBlank rest with
              | ':' :: rest =>
                  match value rest with
                  | none => none
                  | some (item, rest) =>
                      let done := insertSorted key item done
                      match skipBlank rest with
                      | ',' :: rest => entries? value steps done rest
                      | '}' :: rest => some (.object done, rest)
                      | _ => none
              | _ => none
      | _ => none

/-- Reads a word, a number or a string. -/
def scalar? : Reader
  | 'n' :: rest => (word? ['u', 'l', 'l'] rest).map (.null, ·)
  | 't' :: rest => (word? ['r', 'u', 'e'] rest).map (.bool true, ·)
  | 'f' :: rest => (word? ['a', 'l', 's', 'e'] rest).map (.bool false, ·)
  | '"' :: rest => (string? rest).map fun (s, rest) => (.string s, rest)
  | cs => (JsonNumber.read? cs).map fun (n, rest) => (.number n, rest)

/-- Reads a document in which arrays and objects stand at most `nesting`
deep. -/
def value? : (nesting : Nat) → Reader
  | 0, cs =>
      match skipBlank cs with
      | '[' :: _ => none
      | '{' :: _ => none
      | cs => scalar? cs
  | nesting + 1, cs =>
      match skipBlank cs with
      | '[' :: rest =>
          match skipBlank rest with
          | ']' :: rest => some (.array [], rest)
          | rest => items? (value? nesting) (rest.length + 1) [] rest
      | '{' :: rest =>
          match skipBlank rest with
          | '}' :: rest => some (.object [], rest)
          | rest => entries? (value? nesting) (rest.length + 1) [] rest
      | cs => scalar? cs

/-- Reads a text that is one document, with blank space around it. -/
def parse? (s : String) : Option Json :=
  match value? maxNesting s.toList with
  | some (document, rest) => if skipBlank rest = [] then some document else none
  | none => none

end Json

end RowQuery
