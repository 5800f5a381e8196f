import RowQuery.Proofs.Query.Entries
import RowQuery.Proofs.Query.PageIntegers
import RowQuery.Query.Encode

/-!
# Reading what was written

A query that is written as a document is read from it again. A document does
not tell everything about a value, so what is read is `Filter.reread`: the same
tree, with each value that is no filter read anew from its own document.

`Filter.Kept` says that this changes nothing, up to a relation between values.
It also says where the form of a document decides how an operand is read: the
body of a quantifier stands under a quantifier, and a plain operand of one is
not written as an object.
-/

namespace RowQuery

/-! ## What is read -/

mutual

/-- A filter with the values of its leaves read anew. -/
def Filter.reread : Filter → Filter
  | .and children => .and (Filter.rereadAll children)
  | .or children => .or (Filter.rereadAll children)
  | .not child => .not child.reread
  | .leaf key operator value => .leaf key operator value.reread

def Filter.rereadAll : List Filter → List Filter
  | [] => []
  | f :: rest => f.reread :: Filter.rereadAll rest

/-- The value that is read from the document of a value; a body stays a body. -/
def Value.reread : Value → Value
  | .filter body => .filter body.reread
  | v => .ofJson v.toJson

end

/-- A filter whose values, read anew, stand in a relation to those it has, and
whose operands are read as what they are. -/
inductive Filter.Kept (alike : Value → Value → Prop) : Filter → Prop
  | and {children : List Filter} (hchildren : ∀ child ∈ children, Kept alike child) :
      Kept alike (.and children)
  | or {children : List Filter} (hchildren : ∀ child ∈ children, Kept alike child) :
      Kept alike (.or children)
  | not {child : Filter} (hchild : Kept alike child) : Kept alike (.not child)
  | plain {key : String} {operator : Operator} {value : Value} (hplain : value.asFilter? = none)
      (hvalue : alike (.ofJson value.toJson) value)
      (hobject : operator.isQuantifier = true → value.toJson.isObject = false) :
      Kept alike (.leaf key operator value)
  | body {key : String} {operator : Operator} {body : Filter}
      (hquantifier : operator.isQuantifier = true) (hbody : Kept alike body) :
      Kept alike (.leaf key operator (.filter body))

/-- A query whose filter, if it has one, is kept. -/
def Query.Kept (alike : Value → Value → Prop) (query : Query) : Prop :=
  ∀ f, query.filter = some f → f.Kept alike

theorem Value.reread_of_plain {value : Value} (h : value.asFilter? = none) :
    value.reread = .ofJson value.toJson := by
  cases value with
  | filter _ => cases h
  | _ => rfl

/-! ## Filters -/

namespace Filter

theorem isObject_toJson (f : Filter) : f.toJson.isObject = true := by
  cases f <;> rfl

/-- A part that is written is there. -/
theorem optionally_toJson {α : Type} (f : Filter) (decoded : Except DecodeFault α) :
    optionally f.toJson decoded = decoded.map some := by
  cases f <;> rfl

/-- A leaf is read from its document with the value that its operand has. -/
theorem ofJson_toJson_leaf {key : String} {operator : Operator} {value read : Value}
    (h : Operand.value { document := value.toJson, body := ofJson value.toJson } operator
      = .ok read) :
    ofJson (leaf key operator value).toJson = .ok (.leaf key operator read) := by
  have hleaf : leafOf key operator { document := value.toJson, body := ofJson value.toJson }
      = .ok (.leaf key operator read) := by
    rw [leafOf, h]
    rfl
  have hoperation : optionalLeaf (.object [("key", .string key),
      ("operator", .string operator.wireName), ("value", value.toJson)])
      = .ok (some (.leaf key operator read)) := by
    simp only [optionalLeaf, operationEntries, decodeString, decodeOperator_wireName,
      reduceIte, String.reduceEq]
    exact congrArg (Except.map some) hleaf
  simp only [toJson, ofJson, filterEntries, hoperation, reduceIte, String.reduceEq]
  rfl

theorem ofJsonAll_toJsonAll {fs : List Filter}
    (h : ∀ f ∈ fs, ofJson f.toJson = .ok f.reread) :
    ofJsonAll (toJsonAll fs) = .ok (rereadAll fs) := by
  induction fs with
  | nil => rfl
  | cons f rest ih =>
      have hrest := ih fun g hg => h g (List.mem_cons_of_mem _ hg)
      rw [toJsonAll, ofJsonAll, h f (List.mem_cons_self ..), hrest]
      rfl

/-- A filter is read with its values read anew. -/
theorem ofJson_toJson {alike : Value → Value → Prop} {f : Filter} (h : f.Kept alike) :
    ofJson f.toJson = .ok f.reread := by
  induction h with
  | and _ ih =>
      simp only [toJson, ofJson, filterEntries, optionalChildren, ofJsonAll_toJsonAll ih,
        reduceIte, String.reduceEq]
      rfl
  | or _ ih =>
      simp only [toJson, ofJson, filterEntries, optionalChildren, ofJsonAll_toJsonAll ih,
        reduceIte, String.reduceEq]
      rfl
  | not _ ih =>
      simp only [toJson, ofJson, filterEntries, optionally_toJson, ih, reduceIte,
        String.reduceEq]
      rfl
  | @plain key operator value hplain _ hobject =>
      have hoperand : Operand.value { document := value.toJson, body := ofJson value.toJson }
          operator = .ok value.reread := by
        rw [Value.reread_of_plain hplain, Operand.value]
        cases hquantifier : operator.isQuantifier with
        | false => rfl
        | true =>
            rw [hobject hquantifier]
            rfl
      exact ofJson_toJson_leaf hoperand
  | @body key operator body hquantifier _ ih =>
      have hoperand : Operand.value { document := body.toJson, body := ofJson body.toJson }
          operator = .ok (.filter body.reread) := by
        rw [Operand.value, hquantifier, isObject_toJson, ih]
        rfl
      exact ofJson_toJson_leaf hoperand

theorem sameAll_rereadAll {fs : List Filter} (h : ∀ f ∈ fs, f.reread.same f = true) :
    sameAll (rereadAll fs) fs = true := by
  induction fs with
  | nil => rw [rereadAll, sameAll]
  | cons f rest ih =>
      rw [rereadAll, sameAll, h f (List.mem_cons_self ..),
        ih fun g hg => h g (List.mem_cons_of_mem _ hg)]
      rfl

/-- Values that are read as the same make filters that are read as the same. -/
theorem same_reread {f : Filter} (h : f.Kept fun a b => a.same b = true) :
    f.reread.same f = true := by
  induction h with
  | and _ ih => rw [reread, same, sameAll_rereadAll ih]
  | or _ ih => rw [reread, same, sameAll_rereadAll ih]
  | not _ ih => rw [reread, same, ih]
  | plain hplain hvalue _ =>
      simp only [reread, same, Value.reread_of_plain hplain, hvalue, beq_self_eq_true,
        Bool.and_self]
  | body _ _ ih =>
      simp only [reread, Value.reread, same, Value.same, ih, beq_self_eq_true, Bool.and_self]

theorem rereadAll_eq {fs : List Filter} (h : ∀ f ∈ fs, f.reread = f) : rereadAll fs = fs := by
  induction fs with
  | nil => rfl
  | cons f rest ih =>
      rw [rereadAll, h f (List.mem_cons_self ..), ih fun g hg => h g (List.mem_cons_of_mem _ hg)]

/-- Values that are read exactly make filters that are read exactly. -/
theorem reread_eq {f : Filter} (h : f.Kept Eq) : f.reread = f := by
  induction h with
  | and _ ih => rw [reread, rereadAll_eq ih]
  | or _ ih => rw [reread, rereadAll_eq ih]
  | not _ ih => rw [reread, ih]
  | plain hplain hvalue _ => rw [reread, Value.reread_of_plain hplain, hvalue]
  | body _ _ ih => rw [reread, Value.reread, ih]

end Filter

/-! ## Orders and pages -/

namespace Order

theorem optionally_toJson {α : Type} (order : Order) (decoded : Except DecodeFault α) :
    optionally order.toJson decoded = decoded.map some := by
  cases order <;> rfl

theorem ofJson_toJson (order : Order) : ofJson order.toJson = .ok order := by
  induction order with
  | last link =>
      simp only [toJson, ofJson, orderEntries, decodeString, decodeDirection_wireName,
        reduceIte, String.reduceEq]
      rfl
  | next link rest ih =>
      simp only [toJson, ofJson, orderEntries, decodeString, decodeDirection_wireName,
        optionally_toJson, ih, reduceIte, String.reduceEq]
      rfl

end Order

theorem decodeInteger_ofUInt32 (n : UInt32) :
    decodeInteger (.number (.ofUInt32 n)) = .ok n.toNat := by
  have hlt : n.toNat < 0x100000000 := n.toNat_lt
  have hsmall : (n.toNat : Int) < 0x8000000000000000 := by omega
  simp only [JsonNumber.ofUInt32, JsonNumber.ofUInt64, decodeInteger, UInt32.toNat_toUInt64,
    hsmall, reduceIte]

theorem pageEntries_num (number size : Int) {n : Int} {document : Json}
    {rest : List (String × Json)} (h : decodeInteger document = .ok n) :
    pageEntries number size (("num", document) :: rest) = pageEntries n size rest := by
  rw [pageEntries, if_pos rfl, h]
  rfl

theorem pageEntries_size (number size : Int) {n : Int} {document : Json}
    {rest : List (String × Json)} (h : decodeInteger document = .ok n) :
    pageEntries number size (("size", document) :: rest) = pageEntries number n rest := by
  rw [pageEntries, if_neg (by decide), if_pos rfl, h]
  rfl

theorem Page.optionalPage_toJson (size : UInt32) (page : Page) :
    optionalPage size page.toJson = .ok (some page) := by
  have hentries : pageEntries 1 size.toNat [("num", .number (.ofUInt32 page.number)),
      ("size", .number (.ofUInt32 page.size))] = .ok (page.number.toNat, page.size.toNat) := by
    rw [pageEntries_num _ _ (decodeInteger_ofUInt32 _),
      pageEntries_size _ _ (decodeInteger_ofUInt32 _), pageEntries]
  exact optionalPage_eq_some.mpr hentries

/-! ## Queries -/

section Parts

variable {size : UInt32} {filter : Option Filter} {order : Option Order} {page : Option Page}

theorem queryEntries_filter {alike : Value → Value → Prop}
    (h : ∀ f, filter = some f → f.Kept alike) (rest : List (String × Json)) :
    queryEntries size { filter := none, order, page }
        (partEntry "filter" Filter.toJson filter ++ rest)
      = queryEntries size { filter := filter.map Filter.reread, order, page } rest := by
  cases filter with
  | none => rfl
  | some f =>
      rw [partEntry, List.singleton_append, queryEntries, if_pos rfl, Filter.optionally_toJson,
        Filter.ofJson_toJson (h f rfl)]
      rfl

theorem queryEntries_order (rest : List (String × Json)) :
    queryEntries size { filter, order := none, page } (partEntry "order" Order.toJson order ++ rest)
      = queryEntries size { filter, order, page } rest := by
  cases order with
  | none => rfl
  | some order =>
      rw [partEntry, List.singleton_append, queryEntries, if_neg (by decide), if_pos rfl,
        Order.optionally_toJson, Order.ofJson_toJson]
      rfl

theorem queryEntries_page :
    queryEntries size { filter, order, page := none } (partEntry "page" Page.toJson page)
      = .ok { filter, order, page } := by
  cases page with
  | none => rfl
  | some page =>
      rw [partEntry, queryEntries, if_neg (by decide), if_neg (by decide), if_pos rfl,
        Page.optionalPage_toJson]
      rfl

end Parts

namespace Query

/-- A query is read with the values of its filter read anew. -/
theorem ofJson_toJson_reread {alike : Value → Value → Prop} {query : Query} (h : query.Kept alike)
    (size : UInt32) :
    ofJson size query.toJson = .ok { query with filter := query.filter.map Filter.reread } := by
  rw [toJson, ofJson, everything, List.append_assoc, queryEntries_filter h, queryEntries_order,
    queryEntries_page]

theorem same_of_filter {query : Query} {filter : Option Filter}
    (h : Filter.sameOption filter query.filter = true) :
    Query.same { query with filter } query = true := by
  simp only [same, h, beq_self_eq_true, Bool.and_self]

/-- What is written for a query is read as the same query, and exactly as it was
if its values are. -/
theorem ofJson_toJson_same {query : Query} (h : query.Kept fun a b => a.same b = true)
    (size : UInt32) :
    ∃ read, ofJson size query.toJson = .ok read ∧ read.same query = true
      ∧ (query.Kept Eq → read = query) := by
  refine ⟨_, ofJson_toJson_reread h size, same_of_filter ?_, fun hexact => ?_⟩
  · cases hfilter : query.filter with
    | none => rfl
    | some f => exact Filter.same_reread (h f hfilter)
  · obtain ⟨filter, order, page⟩ := query
    cases filter with
    | none => rfl
    | some f => rw [Option.map_some, Filter.reread_eq (hexact f rfl)]

/-- The third page of the rows up to number two with a tag other than `a`,
besides an empty group. -/
def thirdPage : Query :=
  { filter := some (.and [.or [], .not (.leaf "id" .gt (.int 2)),
      .leaf "tags" .any (.filter (.leaf "value" .ne (.text "a")))])
    order := some (.next { key := "id", direction := .desc }
      (.last { key := "name", direction := .asc }))
    page := some ⟨3, 20, by decide, by decide⟩ }

theorem kept_thirdPage {alike : Value → Value → Prop} (hint : alike (.int 2) (.int 2))
    (htext : alike (.text "a") (.text "a")) : thirdPage.Kept alike := by
  rintro f ⟨⟩
  refine .and fun child hchild => ?_
  simp only [List.mem_cons, List.not_mem_nil, or_false] at hchild
  rcases hchild with rfl | rfl | rfl
  · exact .or fun child hchild => (List.not_mem_nil hchild).elim
  · exact .not (.plain rfl hint fun _ => rfl)
  · exact .body rfl (.plain rfl htext fun _ => rfl)

theorem ofJson_toJson_thirdPage :
    thirdPage.Kept (fun a b => a.same b = true) ∧ thirdPage.Kept Eq
      ∧ ofJson 5 thirdPage.toJson = .ok thirdPage := by
  have hsame : thirdPage.Kept fun a b => a.same b = true :=
    kept_thirdPage (by simp only [Value.same, beq_self_eq_true])
      (by simp only [Value.same, beq_self_eq_true])
  have hexact : thirdPage.Kept Eq := kept_thirdPage rfl rfl
  obtain ⟨read, hread, -, heq⟩ := ofJson_toJson_same hsame 5
  exact ⟨hsame, hexact, heq hexact ▸ hread⟩

end Query

end RowQuery
