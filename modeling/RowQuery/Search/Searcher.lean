import RowQuery.Query.Decode
import RowQuery.Search.PreparedQuery
import RowQuery.Settings.Basic

/-!
# Searchers

A searcher is a projection that is ready for queries: its field table under the
key matching of the settings, the handlers, and the settings. Whatever can be
wrong with the settings or with the names of the projection shows when the
searcher is made; whatever is wrong with a query shows when it is prepared.
-/

namespace RowQuery

/-- A projection with what its queries have in common. -/
structure Searcher (R O : Type) where
  projection : Projection R O
  table : FieldTable
  handlers : HandlerChain
  settings : Settings

namespace Searcher

variable {R O : Type}

/-- The searcher for a projection, with the handlers of every chain. -/
def of (projection : Projection R O) (settings : Settings) : Except Failure (Searcher R O) :=
  match settings.validate with
  | .error e => .error (.ofSettingsFault e)
  | .ok settings =>
      match FieldTable.ofProjection projection settings.keyMatching with
      | .error e => .error (.ofQueryFault e)
      | .ok table => .ok { projection, table, handlers := .default, settings }

def withFirst (searcher : Searcher R O) (handler : Handler) : Searcher R O :=
  { searcher with handlers := searcher.handlers.withFirst handler }

def withLast (searcher : Searcher R O) (handler : Handler) : Searcher R O :=
  { searcher with handlers := searcher.handlers.withLast handler }

def withHandlers (searcher : Searcher R O) (handlers : HandlerChain) : Searcher R O :=
  { searcher with handlers }

def prepare (searcher : Searcher R O) (query : Query) :
    Except QueryFault (PreparedQuery R O) :=
  query.prepare searcher.projection searcher.table searcher.handlers

def prepareText (searcher : Searcher R O) (text : String) :
    Except Failure (PreparedQuery R O) :=
  match Query.ofText searcher.settings.defaultPageSize text with
  | .error e => .error (.ofDecodeFault e)
  | .ok query =>
      match searcher.prepare query with
      | .error e => .error (.ofQueryFault e)
      | .ok prepared => .ok prepared

def keys (searcher : Searcher R O) : List String := searcher.table.keys

end Searcher

end RowQuery
