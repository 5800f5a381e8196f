import RowQuery.Proofs.Query.Objects

/-!
# Which documents are queries

A document in which everything is written by name is decoded if and only if it
follows the grammar, and then as a whole: a decoder either gives all of a query
or a fault.

`Json.Accepts` says for each place which documents its decoder takes. For each
place there is one lemma that tells this from the parts of the document, and the
grammar follows by induction on the parts (`Json.Plain.accepts_iff`).
-/

namespace RowQuery

/-! ## Places -/

namespace Json

/-- The decoder of a place takes a document. Null is not taken: it is no part. -/
def Accepts (size : UInt32) : Place → Json → Prop
  | .query, document => ∃ query, Query.ofJson size document = .ok query
  | .filter, document => ∃ f, Filter.ofJson document = .ok f
  | .operation, document => ∃ leaf, optionalLeaf document = .ok (some leaf)
  | .operator, document => ∃ operator, decodeOperator document = .ok operator
  | .order, document => ∃ order, Order.ofJson document = .ok order
  | .direction, document => ∃ direction, decodeDirection document = .ok direction
  | .page, document => ∃ page, optionalPage size document = .ok (some page)

theorem Part.sortedKeys {place other : Place} {document part : Json}
    (h : Part place document other part) (hsorted : document.SortedKeys) : part.SortedKeys := by
  cases h with
  | inAnd hand hpart => exact sortedItems_iff.mp (hsorted.sortedKeys_of_findKey hand) _ hpart
  | inOr hor hpart => exact sortedItems_iff.mp (hsorted.sortedKeys_of_findKey hor) _ hpart
  | body _ _ hpart => exact hsorted.sortedKeys_of_findKey hpart
  | _ hpart => exact hsorted.sortedKeys_of_findKey hpart

section Step

variable {size : UInt32} {document : Json}

theorem accepts_query_iff (hform : document.ByName .query) (hsorted : document.SortedKeys)
    (hparts : ∀ other part, Part .query document other part →
      (Accepts size other part ↔ WellFormed other part)) :
    Accepts size .query document ↔ WellFormed .query document := by
  cases document with
  | object entries =>
      refine (Query.exists_ofJson_object hsorted).trans ⟨?_, ?_⟩
      · rintro ⟨hfilter, horder, hpage⟩
        exact .query (fun d hd hnull => (hparts _ _ (.filter hd)).mp (hfilter d hd hnull))
          (fun d hd hnull => (hparts _ _ (.order hd)).mp (horder d hd hnull))
          (fun d hd hnull => (hparts _ _ (.page hd)).mp (hpage d hd hnull))
      · intro h
        cases h with
        | query hfilter horder hpage =>
            exact ⟨fun d hd hnull => (hparts _ _ (.filter hd)).mpr (hfilter d hd hnull),
              fun d hd hnull => (hparts _ _ (.order hd)).mpr (horder d hd hnull),
              fun d hd hnull => (hparts _ _ (.page hd)).mpr (hpage d hd hnull)⟩
  | array items => exact absurd rfl (hform items)
  | _ => exact iff_of_false (fun ⟨_, h⟩ => nomatch h) (fun h => nomatch h)

theorem accepts_filter_iff (hform : document.ByName .filter) (hsorted : document.SortedKeys)
    (hparts : ∀ other part, Part .filter document other part →
      (Accepts size other part ↔ WellFormed other part)) :
    Accepts size .filter document ↔ WellFormed .filter document := by
  cases document with
  | object entries =>
      refine (Filter.exists_ofJson_object hsorted).trans ⟨?_, ?_⟩
      · rintro (⟨halone, part, hpart, h⟩ | ⟨halone, part, hpart, h⟩ | ⟨halone, part, hpart, h⟩
          | ⟨halone, part, hpart, h⟩)
        · obtain ⟨items, rfl, hitems⟩ := Filter.exists_optionalChildren.mp h
          exact .and halone hpart fun item hitem =>
            (hparts _ _ (.inAnd hpart hitem)).mp (hitems item hitem)
        · obtain ⟨items, rfl, hitems⟩ := Filter.exists_optionalChildren.mp h
          exact .or halone hpart fun item hitem =>
            (hparts _ _ (.inOr hpart hitem)).mp (hitems item hitem)
        · exact .not halone hpart ((hparts _ _ (.inNot hpart)).mp h)
        · exact .leaf halone hpart ((hparts _ _ (.operation hpart)).mp h)
      · intro h
        cases h with
        | and halone hand hitems =>
            exact .inl ⟨halone, _, hand, Filter.exists_optionalChildren.mpr ⟨_, rfl,
              fun item hitem => (hparts _ _ (.inAnd hand hitem)).mpr (hitems item hitem)⟩⟩
        | or halone hor hitems =>
            exact .inr (.inl ⟨halone, _, hor, Filter.exists_optionalChildren.mpr ⟨_, rfl,
              fun item hitem => (hparts _ _ (.inOr hor hitem)).mpr (hitems item hitem)⟩⟩)
        | not halone hnot hchild =>
            exact .inr (.inr (.inl ⟨halone, _, hnot, (hparts _ _ (.inNot hnot)).mpr hchild⟩))
        | leaf halone hwhere hoperation =>
            exact .inr (.inr (.inr ⟨halone, _, hwhere,
              (hparts _ _ (.operation hwhere)).mpr hoperation⟩))
  | array items => exact absurd rfl (hform items)
  | _ => exact iff_of_false (fun ⟨_, h⟩ => nomatch h) (fun h => nomatch h)

theorem accepts_operation_iff (hform : document.ByName .operation)
    (hsorted : document.SortedKeys)
    (hparts : ∀ other part, Part .operation document other part →
      (Accepts size other part ↔ WellFormed other part)) :
    Accepts size .operation document ↔ WellFormed .operation document := by
  cases document with
  | object entries =>
      refine (exists_optionalLeaf_object hsorted).trans ⟨?_, ?_⟩
      · rintro ⟨key, operator, hkey, ⟨d, hd, hoperator⟩, hbody⟩
        have hname : d = .string operator.wireName := by
          cases (hparts _ _ (.operator hd)).mp ⟨operator, hoperator⟩ with
          | operator found =>
              rw [decodeOperator_wireName] at hoperator
              cases hoperator
              rfl
        subst hname
        exact .operation hkey hd fun hquantifier body hvalue =>
          (hparts _ _ (.body hd hquantifier hvalue)).mp (hbody hquantifier body hvalue)
      · intro h
        cases h with
        | @operation _ key operator hkey hoperator hbody =>
            exact ⟨key, operator, hkey, ⟨_, hoperator, decodeOperator_wireName operator⟩,
              fun hquantifier body hvalue =>
                (hparts _ _ (.body hoperator hquantifier hvalue)).mpr
                  (hbody hquantifier body hvalue)⟩
  | array items => exact absurd rfl (hform items)
  | _ => exact iff_of_false (fun ⟨_, h⟩ => nomatch h) (fun h => nomatch h)

theorem accepts_order_iff (hform : document.ByName .order) (hsorted : document.SortedKeys)
    (hparts : ∀ other part, Part .order document other part →
      (Accepts size other part ↔ WellFormed other part)) :
    Accepts size .order document ↔ WellFormed .order document := by
  cases document with
  | object entries =>
      refine (Order.exists_ofJson_object hsorted).trans ⟨?_, ?_⟩
      · rintro ⟨⟨key, hkey⟩, hdir, hthen⟩
        exact .order hkey (fun d hd => (hparts _ _ (.direction hd)).mp (hdir d hd))
          (fun d hd hnull => (hparts _ _ (.rest hd)).mp (hthen d hd hnull))
      · intro h
        cases h with
        | order hby hdir hthen =>
            exact ⟨⟨_, hby⟩, fun d hd => (hparts _ _ (.direction hd)).mpr (hdir d hd),
              fun d hd hnull => (hparts _ _ (.rest hd)).mpr (hthen d hd hnull)⟩
  | array items => exact absurd rfl (hform items)
  | _ => exact iff_of_false (fun ⟨_, h⟩ => nomatch h) (fun h => nomatch h)

theorem accepts_page_iff (hsize : 0 < size) (hform : document.ByName .page)
    (hsorted : document.SortedKeys) : Accepts size .page document ↔ WellFormed .page document := by
  cases document with
  | object entries =>
      refine (exists_optionalPage_object hsize hsorted).trans ⟨fun h => .page h.1 h.2, ?_⟩
      intro h
      cases h with
      | page hnum hsize => exact ⟨hnum, hsize⟩
  | array items => exact absurd rfl (hform items)
  | _ => exact iff_of_false (fun ⟨_, h⟩ => nomatch h) (fun h => nomatch h)

theorem accepts_operator_iff (hform : document.ByName .operator) :
    Accepts size .operator document ↔ WellFormed .operator document := by
  constructor
  · rintro ⟨operator, h⟩
    exact (decodeOperator_eq_ok hform).mp h ▸ .operator operator
  · intro h
    cases h with
    | operator operator => exact ⟨operator, decodeOperator_wireName operator⟩

theorem accepts_direction_iff (hform : document.ByName .direction) :
    Accepts size .direction document ↔ WellFormed .direction document := by
  constructor
  · rintro ⟨direction, h⟩
    exact (decodeDirection_eq_ok hform).mp h ▸ .direction direction
  · intro h
    cases h with
    | direction direction => exact ⟨direction, decodeDirection_wireName direction⟩

end Step

/-- The decoder of a place takes a plain document if and only if it is well
formed there. -/
theorem Plain.accepts_iff {size : UInt32} (hsize : 0 < size) {place : Place} {document : Json}
    (hplain : Plain place document) (hsorted : document.SortedKeys) :
    Accepts size place document ↔ WellFormed place document := by
  induction hplain with
  | @of place document hform _ ih =>
      have hparts : ∀ other part, Part place document other part →
          (Accepts size other part ↔ WellFormed other part) :=
        fun other part hpart => ih other part hpart (hpart.sortedKeys hsorted)
      cases place with
      | query => exact accepts_query_iff hform hsorted hparts
      | filter => exact accepts_filter_iff hform hsorted hparts
      | operation => exact accepts_operation_iff hform hsorted hparts
      | operator => exact accepts_operator_iff hform
      | order => exact accepts_order_iff hform hsorted hparts
      | direction => exact accepts_direction_iff hform
      | page => exact accepts_page_iff hsize hform hsorted

end Json

/-- A text that can be read is a query if and only if its document follows the
grammar. -/
theorem Query.exists_ofText_iff {size : UInt32} (hsize : 0 < size) {text : String}
    {document : Json} (hread : Json.parse? text = some document)
    (hplain : document.Plain .query) :
    (∃ query, Query.ofText size text = .ok query) ↔ document.WellFormed .query := by
  rw [Query.ofText, hread]
  exact hplain.accepts_iff hsize (Json.sortedKeys_of_parse? hread)

/-- A document in which everything is written by name is decoded if and only if it
follows the grammar. -/
theorem Query.exists_ofJson_iff {size : UInt32} (hsize : 0 < size) {document : Json}
    (hplain : document.Plain .query) (hsorted : document.SortedKeys) :
    (∃ query, Query.ofJson size document = .ok query) ↔ document.WellFormed .query :=
  hplain.accepts_iff hsize hsorted

/-- A leaf that is written in full. -/
def leafDocument (key operator : String) (value : Json) : Json :=
  .object [("where", .object [("key", .string key), ("operator", .string operator),
    ("value", value)])]

theorem plain_leafDocument {key operator : String} {value : Json}
    (hvalue : ∀ body, value = .object body → value.Plain .filter) :
    (leafDocument key operator value).Plain .filter := by
  refine .of (fun items h => nomatch h) fun other part hpart => ?_
  cases hpart with
  | inAnd h => cases h
  | inOr h => cases h
  | inNot h => cases h
  | operation h =>
      cases h
      refine .of (fun items h => nomatch h) fun other part hpart => ?_
      cases hpart with
      | operator h =>
          cases h
          exact .of (fun entries h => nomatch h) fun other part hpart => nomatch hpart
      | body _ _ h =>
          cases h
          exact hvalue _ rfl

theorem wellFormed_leafDocument {key : String} (operator : Operator) {value : Json}
    (hvalue : ∀ body, value = .object body → value.WellFormed .filter) :
    (leafDocument key operator.wireName value).WellFormed .filter := by
  refine .leaf (by simp [Json.Alone, Json.Vacant, findKey]) rfl
    (@Json.WellFormed.operation _ key operator rfl rfl fun _ body hbody => ?_)
  cases hbody
  exact hvalue body rfl

/-- The second page of the rows with a tag that starts with `a`. No query has a
key for hints. -/
def secondPage : Json :=
  .object [("filter", leafDocument "tags" "Any" (leafDocument "value" "LI" (.string "a%"))),
    ("hint", .array []),
    ("order", .object [("by", .string "id"),
      ("then", .object [("by", .string "name"), ("dir", .string "Desc")])]),
    ("page", .object [("num", .number (.whole 2 (by decide)))])]

theorem plain_secondPage : secondPage.Plain .query := by
  refine .of (fun items h => nomatch h) fun other part hpart => ?_
  cases hpart with
  | filter h =>
      cases h
      exact plain_leafDocument fun _ _ => plain_leafDocument fun _ h => nomatch h
  | order h =>
      cases h
      refine .of (fun items h => nomatch h) fun other part hpart => ?_
      cases hpart with
      | direction h => cases h
      | rest h =>
          cases h
          refine .of (fun items h => nomatch h) fun other part hpart => ?_
          cases hpart with
          | direction h =>
              cases h
              exact .of (fun entries h => nomatch h) fun other part hpart => nomatch hpart
          | rest h => cases h
  | page h =>
      cases h
      exact .of (fun items h => nomatch h) fun other part hpart => nomatch hpart

theorem wellFormed_secondPage : secondPage.WellFormed .query := by
  refine .query (fun d h _ => ?_) (fun d h _ => ?_) (fun d h _ => ?_)
  · cases h
    exact wellFormed_leafDocument .any fun _ _ => wellFormed_leafDocument .like fun _ h => nomatch h
  · cases h
    refine .order rfl (fun d h => nomatch h) fun d h _ => ?_
    cases h
    refine .order rfl (fun d h => ?_) fun d h => nomatch h
    cases h
    exact .direction .desc
  · cases h
    refine .page (fun d h => ?_) fun d h => nomatch h
    cases h
    exact ⟨2, _, rfl, by decide, by decide⟩

theorem exists_ofJson_secondPage :
    secondPage.Plain .query ∧ secondPage.SortedKeys
      ∧ ∃ query, Query.ofJson 20 secondPage = .ok query := by
  have hsorted : secondPage.SortedKeys := by
    simp only [secondPage, leafDocument, Json.SortedKeys, Json.SortedEntries, Json.SortedItems,
      List.forall_mem_cons]
    decide +kernel
  exact ⟨plain_secondPage, hsorted,
    (Query.exists_ofJson_iff (by decide) plain_secondPage hsorted).mpr wellFormed_secondPage⟩

end RowQuery
