import RowQuery.Toml.Basic
import RowQuery.Toml.Lexeme

/-!
# Reading toml text

`Toml.parse?` reads a document into the entries of its topmost table. The lines
of a document are headers and entries; an entry goes into the table of the
header above it. Values other than texts, whole numbers, arrays and tables in
braces are refused, and so are arrays of tables.

Arrays and tables in braces may stand inside each other `Toml.maxNesting` deep.
-/

namespace RowQuery

namespace Toml

/-- How deep arrays and tables in braces may stand inside each other. -/
def maxNesting : Nat := 80

/-! ## Values -/

abbrev Reader : Type := List Char → Option (Toml × List Char)

/-- Reads the items of an array up to its closing bracket, at most `steps` of
them. -/
def items? (value : Reader) : (steps : Nat) → (done : List Toml) → List Char →
    Option (Toml × List Char)
  | 0, _, _ => none
  | steps + 1, done, cs =>
      match skipGap cs with
      | ']' :: rest => some (.array done.reverse, rest)
      | cs =>
          match value cs with
          | none => none
          | some (item, rest) =>
              match skipGap rest with
              | ',' :: rest => items? value steps (item :: done) rest
              | ']' :: rest => some (.array (item :: done).reverse, rest)
              | _ => none

/-- Reads a key, the equals sign and a value. `skip` drops what may stand on
either side of the sign. -/
def entry? (skip : List Char → List Char) (value : Reader) (cs : List Char) :
    Option ((List String × Toml) × List Char) :=
  match key? cs with
  | none => none
  | some (path, rest) =>
      match skip rest with
      | '=' :: rest => (value (skip rest)).map fun (v, rest) => ((path, v), rest)
      | _ => none

/-- Reads the entries of a table in braces up to the closing brace, at most
`steps` of them. They may be spread over lines, but not in the middle of a
key. -/
def entries? (value : Reader) : (steps : Nat) → (done : Entries) → List Char →
    Option (Toml × List Char)
  | 0, _, _ => none
  | steps + 1, done, cs =>
      match skipGap cs with
      | '}' :: rest => some (.table .inline done, rest)
      | cs =>
          match entry? skipGap value cs with
          | none => none
          | some ((path, v), rest) =>
              match assign v path done with
              | none => none
              | some done =>
                  match skipGap rest with
                  | ',' :: rest => entries? value steps done rest
                  | '}' :: rest => some (.table .inline done, rest)
                  | _ => none

def scalar? : Reader
  | '"' :: rest => (readString? '"' rest).map fun (s, rest) => (.string s, rest)
  | '\'' :: rest => (readString? '\'' rest).map fun (s, rest) => (.string s, rest)
  | cs => (readInteger? cs).map fun (n, rest) => (.integer n, rest)

/-- Reads a value in which arrays and tables stand at most `nesting` deep. -/
def value? : (nesting : Nat) → Reader
  | nesting + 1, '[' :: rest => items? (value? nesting) (rest.length + 1) [] rest
  | nesting + 1, '{' :: rest => entries? (value? nesting) (rest.length + 1) [] rest
  | _, cs => scalar? cs

/-! ## Lines -/

inductive Line where
  | header (path : List String)
  | entry (path : List String) (value : Toml)
deriving Repr

def line? : List Char → Option (Line × List Char)
  | '[' :: rest =>
      match key? rest with
      | some (path, ']' :: rest) => (lineEnd? rest).map fun rest => (.header path, rest)
      | _ => none
  | cs =>
      match entry? skipSpace (value? maxNesting) cs with
      | some ((path, v), rest) => (lineEnd? rest).map fun rest => (.entry path v, rest)
      | none => none

def lines? : (steps : Nat) → List Char → Option (List Line)
  | 0, _ => none
  | steps + 1, cs =>
      match skipGap cs with
      | [] => some []
      | cs =>
          match line? cs with
          | some (line, rest) => (lines? steps rest).map (line :: ·)
          | none => none

/-- Adds what lines say to a table, below the header that came last. -/
def addLines (header : List String) (entries : Entries) : List Line → Option Entries
  | [] => some entries
  | .header path :: rest => (openTable path entries).bind fun entries => addLines path entries rest
  | .entry path value :: rest =>
      (assignWithin value path header entries).bind fun entries => addLines header entries rest

def skipMark : List Char → List Char
  | '\uFEFF' :: rest => rest
  | cs => cs

/-- The topmost table of a document. -/
def parse? (text : String) : Option Entries :=
  let cs := skipMark text.toList
  (lines? (cs.length + 1) cs).bind (addLines [] [])

end Toml

end RowQuery
