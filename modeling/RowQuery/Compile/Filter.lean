import RowQuery.Compile.Builtin

/-!
# Compiling filters

`Filter.compile` turns a filter into a predicate. Groups need a child, every
key has to be found in the table, and every leaf needs a handler; the first
fault from left to right is the answer.

Handlers compile filters for elements in turn. Every such step goes one list
type deeper, or into the body of a quantifier. `Filter.compileWithin` counts
the steps that are left, and `Filter.compile` allows as many as the types of
the table and the filter are deep, and two more for handlers that look at a
field as a whole.
-/

namespace RowQuery

namespace Filter

mutual

def compileIn (chain : HandlerChain) (context : LeafContext) :
    Filter → Except QueryFault Predicate
  | .and [] => .error (.emptyGroup .and)
  | .or [] => .error (.emptyGroup .or)
  | .and children => (compileAllIn chain context children).map .and
  | .or children => (compileAllIn chain context children).map .or
  | .not child => (compileIn chain context child).map .not
  | .leaf key operator value =>
      match context.table.lookup key with
      | .error e => .error e
      | .ok field => (chain.condition context key operator field value).map .check

def compileAllIn (chain : HandlerChain) (context : LeafContext) :
    List Filter → Except QueryFault (List Predicate)
  | [] => .ok []
  | f :: rest =>
      match compileIn chain context f with
      | .error e => .error e
      | .ok p => (compileAllIn chain context rest).map (p :: ·)

end

/-- Compiles a filter, with a bound on how often handlers may compile filters
inside each other. -/
def compileWithin (chain : HandlerChain) : (levels : Nat) → FieldTable → Filter →
    Except QueryFault Predicate
  | 0, table, f =>
      compileIn chain
        { table
          handlerCount := chain.handlers.length
          compileElement := fun _ _ => .error .nestedTooDeep } f
  | levels + 1, table, f =>
      compileIn chain
        { table
          handlerCount := chain.handlers.length
          compileElement := fun element body =>
            compileWithin chain levels (.ofElement element table.matching) body } f

def compile (chain : HandlerChain) (table : FieldTable) (f : Filter) :
    Except QueryFault Predicate :=
  compileWithin chain (table.depth + f.depth + 2) table f

end Filter

end RowQuery
