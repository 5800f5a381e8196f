import RowQuery.Compile.Handler
import RowQuery.Value.Cast

/-!
# The handlers of every chain

* `Handler.list` takes membership and quantifiers on sequences. The item of a
  membership test is cast to the type of the elements; the operand of a
  quantifier is a filter, compiled for the elements.
* `Handler.string` takes patterns on any field, and relations of text fields to
  text or null.
* `Handler.scalar` takes relations of single values to a literal that the type
  of the field accepts, and tests for null on any field.

Each leaves every other leaf to the next handler.
-/

namespace RowQuery

namespace Handler

/-- Membership and quantifiers on sequences. -/
def handleList (context : LeafContext) (operator : Operator) (field : FieldAccess)
    (value : Value) : Except QueryFault (Option Condition) :=
  match field.elementType? with
  | none => .ok none
  | some element =>
      match operator, operator.quantifier?, value with
      | .contains, _, item =>
          .ok ((item.castTo? element).map (.contains field.onDemand))
      | _, some quantifier, .filter body =>
          match context.compileElement element body with
          | .ok predicate => .ok (some (.quantified quantifier field.onDemand predicate))
          | .error e => .error e
      | _, _, _ => .ok none

def list : Handler := { name := "list", handle := handleList }

def isTextOrNull : Value → Bool
  | .text _ | .null => true
  | _ => false

/-- Patterns, and relations of text fields. -/
def handleString (_ : LeafContext) (operator : Operator) (field : FieldAccess) (value : Value) :
    Except QueryFault (Option Condition) :=
  match operator, operator.relation?, value with
  | .like, _, .text pattern => .ok (some (.like field pattern))
  | _, some relation, value =>
      if field.type.isText && isTextOrNull value then
        .ok (some
          (if relation.isEquality then .relates relation field value
          else .relatesAsText relation field value))
      else .ok none
  | _, _, _ => .ok none

def string : Handler := { name := "string", handle := handleString }

/-- Relations of single values, and tests for null. -/
def handleScalar (_ : LeafContext) (operator : Operator) (field : FieldAccess) (value : Value) :
    Except QueryFault (Option Condition) :=
  match operator.relation? with
  | none => .ok none
  | some relation =>
      let accepted :=
        if value.isNull then relation.isEquality
        else field.elementType?.isNone && field.type.accepts value
      if accepted then .ok (some (.relates relation field value)) else .ok none

def scalar : Handler := { name := "default", handle := handleScalar }

end Handler

/-- The chain that is used where no other is given. -/
def HandlerChain.default : HandlerChain :=
  { handlers := [.list, .string, .scalar] }

end RowQuery
