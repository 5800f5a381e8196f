import RowQuery.Json.Printer
import RowQuery.Value.Wire

/-!
# Values as text

`Value.display` writes a value for people: texts in quotes, instants after an
at sign, lists in brackets. `Value.plainText?` is the text that patterns are
matched against; null and filters have none.
-/

namespace RowQuery

/-- A document as plain text: a string without its quotes. -/
def Json.plainText : Json → String
  | .string s => s
  | document => document.text

/-- The text that a pattern is matched against. -/
def Value.plainText? : Value → Option String
  | .null | .filter _ => none
  | .bool b => some (if b then "true" else "false")
  | .int n => some (intText n.toInt)
  | .decimal d => some d.text
  | .text s => some s
  | .instant t => some t.toJson.plainText
  | .list items => some (Value.list items).toJson.plainText
  | .raw document => some document.plainText

mutual

def Value.display : Value → String
  | .null => "null"
  | .text s => "'" ++ s ++ "'"
  | .instant t => "@" ++ t.toJson.plainText
  | .list items => "[" ++ String.intercalate ", " (Value.displayAll items) ++ "]"
  | .filter f => "\x7b" ++ f.display ++ "\x7d"
  | .bool b => if b then "true" else "false"
  | .int n => intText n.toInt
  | .decimal d => d.text
  | .raw document => document.plainText

def Value.displayAll : List Value → List String
  | [] => []
  | v :: rest => v.display :: Value.displayAll rest

def Filter.display : Filter → String
  | .and children => "and(" ++ String.intercalate ", " (Filter.displayAll children) ++ ")"
  | .or children => "or(" ++ String.intercalate ", " (Filter.displayAll children) ++ ")"
  | .not child => "not " ++ child.display
  | .leaf key operator value => key ++ " " ++ operator.wireName ++ " " ++ value.display

def Filter.displayAll : List Filter → List String
  | [] => []
  | f :: rest => f.display :: Filter.displayAll rest

end

end RowQuery
