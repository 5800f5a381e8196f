import RowQuery.Fault.QueryFault
import RowQuery.Json.Printer

/-!
# Failures as they are reported

A `Failure` is what a caller sees of any error: a stable kind, the part of the
work that it came from, and a text. Failures can be written as documents and
read back.
-/

namespace RowQuery

inductive QueryFailureKind where
  | invalid
  | unsupported
  | unknownKey
  | noHandler
  | missingOrder
deriving Repr, DecidableEq

namespace QueryFailureKind

def name : QueryFailureKind → String
  | .invalid => "Invalid"
  | .unsupported => "Unsupported"
  | .unknownKey => "UnknownKey"
  | .noHandler => "NoHandler"
  | .missingOrder => "MissingOrder"

def ofName? (s : String) : Option QueryFailureKind :=
  [invalid, unsupported, unknownKey, noHandler, missingOrder].find? fun kind => kind.name == s

end QueryFailureKind

/-- What kind of error a failure reports. -/
inductive FailureKind where
  | query (kind : QueryFailureKind)
  | decode
  | config
deriving Repr, DecidableEq

def FailureKind.name : FailureKind → String
  | .query kind => kind.name
  | .decode => "Decode"
  | .config => "Config"

/-- The part of the work that a failure came from. -/
inductive FailureOrigin where
  | compile
  | config
  | projection
  | wire
deriving Repr, DecidableEq

namespace FailureOrigin

def name : FailureOrigin → String
  | .compile => "Compile"
  | .config => "Config"
  | .projection => "Projection"
  | .wire => "Wire"

def ofName? (s : String) : Option FailureOrigin :=
  [compile, config, projection, wire].find? fun origin => origin.name == s

end FailureOrigin

/-- What a caller sees of an error. -/
structure Failure where
  kind : FailureKind
  origin : FailureOrigin
  message : String
deriving Repr, DecidableEq

namespace Failure

def ofDecodeFault (e : DecodeFault) : Failure :=
  { kind := .decode, origin := .wire, message := e.message }

def ofQueryFault : QueryFault → Failure
  | .shape e =>
      { kind := .query .unsupported, origin := .projection
        message := (QueryFault.shape e).message }
  | .unknownKey key =>
      { kind := .query .unknownKey, origin := .compile
        message := (QueryFault.unknownKey key).message }
  | .noHandler key operator kind =>
      { kind := .query .noHandler, origin := .compile
        message := (QueryFault.noHandler key operator kind).message }
  | .missingOrder =>
      { kind := .query .missingOrder, origin := .compile
        message := QueryFault.missingOrder.message }
  | .emptyGroup group =>
      { kind := .query .invalid, origin := .compile
        message := (QueryFault.emptyGroup group).message }
  | .nestedTooDeep =>
      { kind := .query .noHandler, origin := .compile
        message := QueryFault.nestedTooDeep.message }
  | .decode e => ofDecodeFault e

/-! ## Documents -/

def kindToJson : FailureKind → Json
  | .query kind => .object [("Query", .string kind.name)]
  | .decode => .string "Decode"
  | .config => .string "Config"

/-- A failure as a document, its fields in the order of declaration. -/
def toJson (failure : Failure) : Json :=
  .object [("kind", kindToJson failure.kind), ("origin", .string failure.origin.name),
    ("message", .string failure.message)]

/-- A choice written as a name, or as the only key of an object that holds
null. -/
def choiceName? : Json → Option String
  | .string name => some name
  | .object [(name, .null)] => some name
  | _ => none

def kindOfJson? : Json → Option FailureKind
  | .object [("Query", payload)] =>
      (choiceName? payload).bind fun name => (QueryFailureKind.ofName? name).map .query
  | document =>
      match choiceName? document with
      | some "Decode" => some .decode
      | some "Config" => some .config
      | _ => none

def originOfJson? (document : Json) : Option FailureOrigin :=
  (choiceName? document).bind FailureOrigin.ofName?

def ofParts? (kind origin message : Json) : Option Failure :=
  match kindOfJson? kind, originOfJson? origin, message with
  | some kind, some origin, .string message => some { kind, origin, message }
  | _, _, _ => none

/-- A failure from a document, which names its fields or lists them. -/
def ofJson? : Json → Option Failure
  | .object entries =>
      match findKey "kind" entries, findKey "origin" entries, findKey "message" entries with
      | some kind, some origin, some message => ofParts? kind origin message
      | _, _, _ => none
  | .array [kind, origin, message] => ofParts? kind origin message
  | _ => none

end Failure

end RowQuery
