import RowQuery.Query.Basic
import RowQuery.Value.Wire

/-!
# Queries as documents

`Query.toJson` writes a query as an object. Parts that are missing are left
out.
-/

namespace RowQuery

def Order.toJson : Order → Json
  | .last link =>
      .object [("by", .string link.key), ("dir", .string link.direction.wireName)]
  | .next link rest =>
      .object [("by", .string link.key), ("dir", .string link.direction.wireName),
        ("then", rest.toJson)]

def Page.toJson (page : Page) : Json :=
  .object [("num", .number (.ofUInt32 page.number)), ("size", .number (.ofUInt32 page.size))]

/-- The entry for a part of a query, if the part is there. -/
def partEntry {α : Type} (key : String) (toJson : α → Json) : Option α → List (String × Json)
  | some part => [(key, toJson part)]
  | none => []

def Query.toJson (query : Query) : Json :=
  .object (partEntry "filter" Filter.toJson query.filter
    ++ partEntry "order" Order.toJson query.order ++ partEntry "page" Page.toJson query.page)

end RowQuery
