import RowQuery.Text.Order

/-!
# Toml tables

The part of the format that settings need: texts, whole numbers, arrays and
tables. A table may grow only in the way in which it began, so a table keeps
its `TableForm`.

`Toml.assign` puts a value behind a dotted key, `Toml.openTable` adds the table that
a header names; neither replaces anything.
-/

namespace RowQuery

/-- How a table came to be. -/
inductive TableForm where
  /-- A header names the table. -/
  | header
  /-- A header names a table below it. -/
  | implied
  /-- A dotted key leads through it. -/
  | dotted
  /-- It is written in braces, in one piece. -/
  | inline
deriving Repr, DecidableEq

inductive Toml where
  | string (s : String)
  | integer (n : Int)
  | array (items : List Toml)
  | table (form : TableForm) (entries : List (String × Toml))
deriving Repr

namespace Toml

/-- The entries of a table, in the order in which they were added. -/
abbrev Entries : Type := List (String × Toml)

def replace (key : String) (value : Toml) : Entries → Entries
  | [] => []
  | (k, v) :: rest => if k = key then (k, value) :: rest else (k, v) :: replace key value rest

/-- Puts a value behind a dotted key. Only tables that dotted keys began are
passed through, and the last part has to be new. -/
def assign (value : Toml) : (path : List String) → Entries → Option Entries
  | [], _ => none
  | [key], entries =>
      match findKey key entries with
      | none => some (entries ++ [(key, value)])
      | some _ => none
  | key :: path, entries =>
      match findKey key entries with
      | none => (assign value path []).map fun inner => entries ++ [(key, .table .dotted inner)]
      | some (.table .dotted inner) =>
          (assign value path inner).map fun inner => replace key (.table .dotted inner) entries
      | some _ => none

/-- Adds the table that a header names. It has to be new, or implied by an
earlier header; tables in braces are not passed through. -/
def openTable : (path : List String) → Entries → Option Entries
  | [], _ => none
  | [key], entries =>
      match findKey key entries with
      | none => some (entries ++ [(key, .table .header [])])
      | some (.table .implied inner) => some (replace key (.table .header inner) entries)
      | some _ => none
  | key :: path, entries =>
      match findKey key entries with
      | none => (openTable path []).map fun inner => entries ++ [(key, .table .implied inner)]
      | some (.table .inline _) => none
      | some (.table form inner) =>
          (openTable path inner).map fun inner => replace key (.table form inner) entries
      | some _ => none

def assignWithin (value : Toml) (path : List String) :
    (header : List String) → Entries → Option Entries
  | [], entries => assign value path entries
  | key :: header, entries =>
      match findKey key entries with
      | some (.table form inner) =>
          (assignWithin value path header inner).map fun inner =>
            replace key (.table form inner) entries
      | _ => none

end Toml

end RowQuery
