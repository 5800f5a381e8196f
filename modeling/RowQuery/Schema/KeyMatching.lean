import RowQuery.Text.Lowercase

/-!
# Matching keys

A key of a query matches the name of a field if both fold to the same text.
`KeyMatching.fold` folds to small letters, or leaves the key as it is.
-/

namespace RowQuery

/-- How the keys of a query are matched with names. -/
inductive KeyMatching where
  | ignoreCase
  | exact
deriving Repr, DecidableEq

namespace KeyMatching

/-- The text by which a key is looked up. -/
def fold : KeyMatching → String → String
  | .ignoreCase, key => lowercase key
  | .exact, key => key

/-- The name of a matching in messages. -/
def label : KeyMatching → String
  | .ignoreCase => "IgnoreCase"
  | .exact => "Ordinal"

def settingName : KeyMatching → String
  | .ignoreCase => "ignore_case"
  | .exact => "ordinal"

def ofSettingName? (name : String) : Option KeyMatching :=
  [ignoreCase, exact].find? fun matching => matching.settingName == name

end KeyMatching

end RowQuery
