/-!
# Operators

The ten operators that a filter leaf may carry, each with the name under which
it is written in a document. Six of them compare, and each of those stands for
a `Relation`, which is a test on the outcome of a comparison. Two of them
quantify over the elements of a list.
-/

namespace RowQuery

/-- A relation between two compared values. -/
inductive Relation where
  | eq
  | ne
  | gt
  | gte
  | lt
  | lte
deriving Repr, DecidableEq

namespace Relation

def symbol : Relation → String
  | .eq => "="
  | .ne => "!="
  | .gt => ">"
  | .gte => ">="
  | .lt => "<"
  | .lte => "<="

/-- Whether the relation holds where comparing left with right has an outcome. -/
def holdsOn : Relation → Ordering → Bool
  | .eq, o => o.isEq
  | .ne, o => o.isNe
  | .gt, o => o.isGT
  | .gte, o => o.isGE
  | .lt, o => o.isLT
  | .lte, o => o.isLE

/-- Whether the relation is one of the two that only ask for equality. -/
def isEquality : Relation → Bool
  | .eq | .ne => true
  | _ => false

end Relation

inductive Quantifier where
  | all
  | any
deriving Repr, DecidableEq

def Quantifier.name : Quantifier → String
  | .all => "all"
  | .any => "any"

/-- What a filter leaf asks about a field. -/
inductive Operator where
  | eq
  | ne
  | gt
  | gte
  | lt
  | lte
  | like
  | contains
  | all
  | any
deriving Repr, DecidableEq

namespace Operator

/-- Every operator, in the order in which they are listed in messages. -/
def values : List Operator :=
  [.eq, .ne, .gt, .gte, .lt, .lte, .like, .contains, .all, .any]

def wireName : Operator → String
  | .eq => "EQ"
  | .ne => "NE"
  | .gt => "GT"
  | .gte => "GTE"
  | .lt => "LT"
  | .lte => "LTE"
  | .like => "LI"
  | .contains => "CO"
  | .all => "All"
  | .any => "Any"

def ofWireName? (name : String) : Option Operator :=
  values.find? fun operator => operator.wireName == name

/-- The relation that an operator asks for. -/
def relation? : Operator → Option Relation
  | .eq => some .eq
  | .ne => some .ne
  | .gt => some .gt
  | .gte => some .gte
  | .lt => some .lt
  | .lte => some .lte
  | .like | .contains | .all | .any => none

def quantifier? : Operator → Option Quantifier
  | .all => some .all
  | .any => some .any
  | _ => none

def isQuantifier (operator : Operator) : Bool := operator.quantifier?.isSome

end Operator

end RowQuery
