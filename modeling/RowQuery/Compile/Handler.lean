import RowQuery.Predicate.Basic
import RowQuery.Schema.FieldTable

/-!
# Handlers

A handler turns a leaf of a filter, that is an operator, a field and a value,
into a condition, or leaves it to the next handler. A chain is an ordered list
of handlers; the first one that answers wins, and a leaf that none of them
takes is an error.

A handler may compile a filter of its own for the elements of a sequence,
through `LeafContext.compileElement`.
-/

namespace RowQuery

/-- What a handler sees besides the leaf. -/
structure LeafContext where
  table : FieldTable
  handlerCount : Nat
  /-- Compiles a filter for elements of a type, with the same chain. -/
  compileElement : DataType → Filter → Except QueryFault Predicate

/-- One way to understand leaves. -/
structure Handler where
  name : String
  /-- A condition, nothing if the leaf is left to the next handler, or an
  error, which ends the compilation. -/
  handle : LeafContext → Operator → FieldAccess → Value → Except QueryFault (Option Condition)

/-- Handlers in the order in which they are asked. -/
structure HandlerChain where
  handlers : List Handler

namespace HandlerChain

def withFirst (chain : HandlerChain) (handler : Handler) : HandlerChain :=
  { handlers := handler :: chain.handlers }

def withLast (chain : HandlerChain) (handler : Handler) : HandlerChain :=
  { handlers := chain.handlers ++ [handler] }

def names (chain : HandlerChain) : List String := chain.handlers.map (·.name)

/-- The answer of the first handler that has one. -/
def firstAnswer (context : LeafContext) (operator : Operator) (field : FieldAccess)
    (value : Value) : List Handler → Except QueryFault (Option Condition)
  | [] => .ok none
  | handler :: rest =>
      match handler.handle context operator field value with
      | .error e => .error e
      | .ok (some condition) => .ok (some condition)
      | .ok none => firstAnswer context operator field value rest

/-- The condition for a leaf, whose key is named in the error. -/
def condition (chain : HandlerChain) (context : LeafContext) (key : String)
    (operator : Operator) (field : FieldAccess) (value : Value) :
    Except QueryFault Condition :=
  match firstAnswer context operator field value chain.handlers with
  | .error e => .error e
  | .ok (some condition) => .ok condition
  | .ok none => .error (.noHandler key operator value.kind)

end HandlerChain

end RowQuery
