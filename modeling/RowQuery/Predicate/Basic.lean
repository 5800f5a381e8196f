import RowQuery.Predicate.FieldAccess
import RowQuery.Text.Like
import RowQuery.Value.Display
import RowQuery.Value.Order

/-!
# Predicates

A predicate is a boolean tree over conditions, each of which reads one field.
`Predicate.evaluate` tells whether it holds of a row, and which elements of its
sequences were taken to find out: groups stop at the first child that decides,
and tests on elements at the first element that decides.
-/

namespace RowQuery

mutual

/-- A test on one field. -/
inductive Condition where
  | relates (relation : Relation) (field : FieldAccess) (value : Value)
  /-- The field compared with a text, null coming first. -/
  | relatesAsText (relation : Relation) (field : FieldAccess) (value : Value)
  | like (field : FieldAccess) (pattern : String)
  | contains (field : FieldAccess) (item : Value)
  | quantified (quantifier : Quantifier) (field : FieldAccess) (body : Predicate)
  /-- A test of its own, under a label. -/
  | custom (label : String) (field : FieldAccess) (test : Value → Bool)

/-- A boolean tree over conditions. -/
inductive Predicate where
  | and (children : List Predicate)
  | or (children : List Predicate)
  | not (child : Predicate)
  | check (condition : Condition)

end

def Condition.field : Condition → FieldAccess
  | .relates _ field _ => field
  | .relatesAsText _ field _ => field
  | .like field _ => field
  | .contains field _ => field
  | .quantified _ field _ => field
  | .custom _ field _ => field

/-! ## Evaluation -/

def Relation.holds (relation : Relation) (cell value : Value) : Bool :=
  match relation with
  | .eq => cell.equal value
  | .ne => !cell.equal value
  | relation => (cell.strictOrder? value).any relation.holdsOn

/-- Whether a cell is in a relation to a value in the order of text cells. -/
def Relation.holdsAsText (relation : Relation) (cell value : Value) : Bool :=
  (cell.textOrder? value).any relation.holdsOn

def Value.matchesPattern (pattern : String) (cell : Value) : Bool :=
  cell.plainText?.any (Pattern.matches? pattern)

/-- Takes elements until a quantifier is decided. -/
def Quantifier.decide (quantifier : Quantifier) (test : Value → Reading Bool)
    (elements : Elements) : Reading Bool :=
  match quantifier with
  | .all => Elements.all test elements
  | .any => Elements.any test elements

mutual

def Condition.evaluate (view : RowView) : Condition → Reading Bool
  | .relates relation field value =>
      (field.read view).map fun cell => relation.holds cell value
  | .relatesAsText relation field value =>
      (field.read view).map fun cell => relation.holdsAsText cell value
  | .like field pattern => (field.read view).map fun cell => cell.matchesPattern pattern
  | .contains field item =>
      Elements.any (fun element => .free (element.equal item)) (field.elements view)
  | .quantified quantifier field body =>
      quantifier.decide (fun element => body.evaluate (.ofElement element))
        (field.elements view)
  | .custom _ field test => (field.read view).map test

def Predicate.evaluate (view : RowView) : Predicate → Reading Bool
  | .and children => Predicate.evaluateAll view children
  | .or children => Predicate.evaluateAny view children
  | .not child => (child.evaluate view).map (!·)
  | .check condition => condition.evaluate view

/-- Whether every predicate holds; stops at the first that does not. -/
def Predicate.evaluateAll (view : RowView) : List Predicate → Reading Bool
  | [] => .free true
  | p :: rest =>
      (p.evaluate view).andThen fun holds =>
        if holds then Predicate.evaluateAll view rest else .free false

/-- Whether some predicate holds; stops at the first that does. -/
def Predicate.evaluateAny (view : RowView) : List Predicate → Reading Bool
  | [] => .free false
  | p :: rest =>
      (p.evaluate view).andThen fun holds =>
        if holds then .free true else Predicate.evaluateAny view rest

end

def Predicate.holds (p : Predicate) (view : RowView) : Bool := (p.evaluate view).value

/-! ## Texts and sizes -/

mutual

def Condition.display : Condition → String
  | .relates relation field value =>
      field.display ++ " " ++ relation.symbol ++ " " ++ value.display
  | .relatesAsText relation field value =>
      "compare(" ++ field.display ++ ", " ++ value.display ++ ") " ++ relation.symbol ++ " 0"
  | .like field pattern => field.display ++ " like '" ++ pattern ++ "'"
  | .contains field item => field.display ++ ".contains(" ++ item.display ++ ")"
  | .quantified quantifier field body =>
      field.display ++ "." ++ quantifier.name ++ "(" ++ elementKey ++ " => " ++ body.display
        ++ ")"
  | .custom label field _ => label ++ "(" ++ field.display ++ ")"

def Predicate.display : Predicate → String
  | .and children => "(" ++ String.intercalate " and " (Predicate.displayAll children) ++ ")"
  | .or children => "(" ++ String.intercalate " or " (Predicate.displayAll children) ++ ")"
  | .not child => "not " ++ child.display
  | .check condition => condition.display

def Predicate.displayAll : List Predicate → List String
  | [] => []
  | p :: rest => p.display :: Predicate.displayAll rest

end

mutual

/-- The number of conditions of a predicate; the body of a quantifier belongs
to its condition. -/
def Predicate.conditionCount : Predicate → Nat
  | .and children => Predicate.conditionCountAll children
  | .or children => Predicate.conditionCountAll children
  | .not child => child.conditionCount
  | .check _ => 1

def Predicate.conditionCountAll : List Predicate → Nat
  | [] => 0
  | p :: rest => p.conditionCount + Predicate.conditionCountAll rest

end

end RowQuery
