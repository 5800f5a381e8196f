import RowQuery.Query.DecodeFault
import RowQuery.Schema.KeyMatching

/-!
# Why a query cannot be run

`QueryFault` lists what can be wrong with a projection or with a query that is
compiled against one. None of it depends on the rows.
-/

namespace RowQuery

inductive Connective where
  | and
  | or
deriving Repr, DecidableEq

def Connective.name : Connective → String
  | .and => "and"
  | .or => "or"

/-- What is wrong with the fields of a projection. -/
inductive SchemaFault where
  | noFields
  | notAnIdentifier (name : String)
  | assignedTwice (name : String)
  /-- A name that folds to the same text as an earlier one. -/
  | collision (name : String) (matching : KeyMatching)
deriving Repr, DecidableEq

def SchemaFault.message : SchemaFault → String
  | .noFields => "projection declares no field assignments"
  | .notAnIdentifier name => "member name '" ++ name ++ "' is not a plain field identifier"
  | .assignedTwice name => "member '" ++ name ++ "' is assigned more than once"
  | .collision name matching =>
      "member '" ++ name ++ "' collides with another member under " ++ matching.label
        ++ " key matching"

/-- Why a query cannot be run. -/
inductive QueryFault where
  | shape (e : SchemaFault)
  /-- A key that names no field, as it is written in the query. -/
  | unknownKey (key : String)
  | noHandler (key : String) (operator : Operator) (kind : Value.Kind)
  | missingOrder
  | emptyGroup (group : Connective)
  /-- A handler that compiles filters inside each other without end. -/
  | nestedTooDeep
  | decode (e : DecodeFault)
deriving Repr

/-- A rough division of errors. -/
inductive FaultClass where
  | unsupported
  | notFound
  | invalid
  | misuse
deriving Repr, DecidableEq

def FaultClass.name : FaultClass → String
  | .unsupported => "Unsupported"
  | .notFound => "NotFound"
  | .invalid => "Invalid"
  | .misuse => "Misuse"

namespace QueryFault

def message : QueryFault → String
  | .shape e => "unsupported projection shape: " ++ e.message
  | .unknownKey key => "unknown key '" ++ key ++ "'"
  | .noHandler key operator kind =>
      "no operator handler accepts " ++ operator.wireName ++ " with a " ++ kind.label
        ++ " value on '" ++ key ++ "'"
  | .missingOrder => "order step requested but the query has no order"
  | .emptyGroup group => "'" ++ group.name ++ "' filter group has no children"
  | .nestedTooDeep => "handlers compile filters inside each other without end"
  | .decode e => "decode error: " ++ e.message

def faultClass : QueryFault → FaultClass
  | .shape _ => .unsupported
  | .unknownKey _ => .notFound
  | .noHandler _ _ _ => .unsupported
  | .missingOrder => .misuse
  | .emptyGroup _ => .invalid
  | .nestedTooDeep => .unsupported
  | .decode _ => .invalid

end QueryFault

end RowQuery
