import RowQuery.Compile.Builtin

/-!
# More handlers

Handlers that a chain may be extended with, each under a name of its own. Each
takes one kind of leaf and leaves the others alone.
-/

namespace RowQuery

namespace Handler

/-- Takes every leaf with an operator and lets every row pass. -/
def pass (name label : String) (taken : Operator) : Handler :=
  { name
    handle := fun _ operator field _ =>
      if operator = taken then .ok (some (.custom label field fun _ => true)) else .ok none }

/-- Takes equality with certain words as equality with a boolean. -/
def booleanWords (name : String) (meaning? : String → Option Bool) : Handler :=
  { name
    handle := fun _ operator field value =>
      match operator, value with
      | .eq, .text word =>
          .ok ((meaning? word).map fun b => .relates .eq field (.bool b))
      | _, _ => .ok none }

def listHolds (item : Value) : Value → Bool
  | .list items => items.any fun element => element.same item
  | _ => false

/-- Takes equality on a sequence as membership in it. -/
def membership (name : String) : Handler :=
  { name
    handle := fun _ operator field value =>
      match operator, field.elementType? with
      | .eq, some _ => .ok (some (.custom name field (listHolds value)))
      | _, _ => .ok none }

def isBelow (bound : Decimal) : Value → Bool
  | .decimal d => (d.compare bound).isLT
  | _ => false

/-- Takes every test of a decimal field for being smaller, and asks whether it
is below a bound instead. -/
def below (name : String) (bound : Decimal) : Handler :=
  { name
    handle := fun _ operator field _ =>
      match operator, field.type with
      | .lt, .decimal => .ok (some (.custom name field (isBelow bound)))
      | _, _ => .ok none }

/-- Takes a pattern on a sequence: some element has to match it. -/
def anyLike (name : String) : Handler :=
  { name
    handle := fun context operator field value =>
      match operator, field.elementType? with
      | .like, some element =>
          match context.compileElement element (.leaf elementKey .like value) with
          | .ok body => .ok (some (.quantified .any field.onDemand body))
          | .error e => .error e
      | _, _ => .ok none }

def isPresent (value : Value) : Bool := !value.isNull

/-- Takes inequality with a text that has to be the key of a field whose type
can be tested for null, and asks whether the field of the leaf is not null. The
label tells the number of handlers in the chain. -/
def presence (name label : String) : Handler :=
  { name
    handle := fun context operator field value =>
      match operator, value with
      | .ne, .text key =>
          match context.table.lookup key with
          | .error e => .error e
          | .ok named =>
              match context.compileElement named.type (.leaf elementKey .eq .null) with
              | .error e => .error e
              | .ok _ =>
                  .ok (some (.custom (label ++ natText context.handlerCount) field isPresent))
      | _, _ => .ok none }

end Handler

end RowQuery
