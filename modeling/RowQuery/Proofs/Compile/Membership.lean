import RowQuery.Proofs.Compile.Leaf
import RowQuery.Proofs.Query.RoundTrip
import RowQuery.Proofs.Schema.IntegerType
import RowQuery.Proofs.Value.Recoding

/-!
# What membership tests find

A membership test casts its literal to the type of the elements and then
compares it with each of them. Where the cast fails the test has no handler, and
where it changes the literal the test looks for something else. This module says
for two types of elements when the test finds what was written.

Integers are found as long as a signed word of 64 bits holds them; past that
they are decimals, which have no cast to the type of the elements although the
elements are decimals, too.

Documents are found as long as they come back unchanged from being read as a
literal and written again as a document (`Json.Kept`).
-/

namespace RowQuery

namespace Filter

variable {R O : Type} {decls : List (Declaration R)} {output : R → O}
  {projection : Projection R O} {matching : KeyMatching} {table : FieldTable}

/-- A compiled membership test asks the elements of the cell for the literal
that was cast. -/
theorem holds_of_compile_contains
    (hprojection : ((Projection.draft output).declareAll decls).finish = .ok projection)
    (htable : FieldTable.ofProjection projection matching = .ok table)
    {decl : Declaration R} (hdecl : decl ∈ decls) {key : String}
    (hkey : matching.fold decl.name = matching.fold key) {element : DataType}
    (htype : decl.type = .list element) {value item : Value}
    (hcast : value.castTo? element = some item) :
    ∃ p, compile .default table (.leaf key .contains value) = .ok p
      ∧ ∀ row, p.holds (projection.layout.view row)
          = (decl.content row).elements.any (·.equal item) := by
  have hfits : Operator.contains.Fits decl.type value := by
    rw [htype]
    exact .contains hcast
  obtain ⟨p, hp⟩ := exists_compile_leaf hprojection htable hdecl hkey hfits
  refine ⟨p, hp, fun row => ?_⟩
  have hpasses := passes?_of_compile_leaf hprojection htable hdecl hkey hp row
  have helement : (decl.cell row).type.element? = some element := by
    rw [Declaration.cell, htype]
    rfl
  simp only [Cell.passes?, helement, Option.bind_eq_bind, Option.bind_some, hcast] at hpasses
  exact (Option.some.inj hpasses).symm

/-! ## Integers -/

/-- Where elements are machine integers, a membership test for one of them is
accepted and finds exactly the rows that contain it if and only if a signed word
of 64 bits holds it. Any other one has no handler. -/
theorem compile_contains_integer_iff
    (hprojection : ((Projection.draft output).declareAll decls).finish = .ok projection)
    (htable : FieldTable.ofProjection projection matching = .ok table)
    (type : IntegerType) {form : Option SnapshotForm} {name : String} {read : R → List type.Carrier}
    (hdecl : Declaration.many form type.kind name read ∈ decls) {key : String}
    (hkey : matching.fold name = matching.fold key) (x : type.Carrier) :
    ((∃ p, compile .default table (.leaf key .contains (type.kind.toValue x)) = .ok p
        ∧ ∀ row, p.holds (projection.layout.view row) = true ↔ x ∈ read row)
      ↔ type.number x < 2 ^ 63)
    ∧ (2 ^ 63 ≤ type.number x →
        compile .default table (.leaf key .contains (type.kind.toValue x))
          = .error (.noHandler key .contains .decimal)) := by
  have hlist : (Declaration.many form type.kind name read).type = .list .int := by
    rw [Declaration.type, type.dataType_kind]
  have hrefused : 2 ^ 63 ≤ type.number x →
      compile .default table (.leaf key .contains (type.kind.toValue x))
        = .error (.noHandler key .contains .decimal) := by
    intro hle
    obtain ⟨hcast, hkind⟩ := IntegerType.castTo?_of_le hle
    rw [← hkind]
    refine compile_leaf_of_not_fits hprojection htable hdecl hkey ?_ rfl
    rw [Operator.fits_contains_iff, hlist]
    rintro ⟨item, hitem⟩
    exact absurd (hcast.symm.trans hitem) nofun
  refine ⟨⟨?_, ?_⟩, hrefused⟩
  · rintro ⟨p, hp, -⟩
    by_contra hlt
    rw [hrefused (Int.not_lt.mp hlt)] at hp
    cases hp
  · intro hlt
    obtain ⟨p, hp, hholds⟩ := holds_of_compile_contains hprojection htable hdecl hkey hlist
      (IntegerType.castTo?_of_lt hlt)
    refine ⟨p, hp, fun row => ?_⟩
    rw [hholds, Declaration.content, Value.elements, List.any_map, List.any_eq_true]
    simp only [Function.comp_apply, IntegerType.equal_toValue_iff, exists_eq_right]

/-- Rows with numbers. -/
def numberedRows : List (Declaration (List UInt64)) :=
  [.many (some .array) (IntegerType.kind .uint64) "numbers" id]

/-- The last number that is found and the first one that is not. -/
theorem compile_contains_integer_last : ∃ projection table,
    ((Projection.draft id).declareAll numberedRows).finish = .ok projection
      ∧ FieldTable.ofProjection projection .exact = .ok table
      ∧ (∃ p, compile .default table
            (.leaf "numbers" .contains (.ofUInt64 0x7FFFFFFFFFFFFFFF)) = .ok p
          ∧ ∀ row, p.holds (projection.layout.view row) = true ↔ 0x7FFFFFFFFFFFFFFF ∈ row)
      ∧ compile .default table (.leaf "numbers" .contains (.ofUInt64 0x8000000000000000))
          = .error (.noHandler "numbers" .contains .decimal) := by
  have hok : ∃ projection table,
      ((Projection.draft id).declareAll numberedRows).finish = .ok projection
        ∧ FieldTable.ofProjection projection .exact = .ok table := ⟨_, _, rfl, rfl⟩
  obtain ⟨projection, table, hprojection, htable⟩ := hok
  have hcontains := compile_contains_integer_iff hprojection htable .uint64
    (List.mem_cons_self ..) rfl
  exact ⟨projection, table, hprojection, htable,
    (hcontains (0x7FFFFFFFFFFFFFFF : UInt64)).1.mpr (by decide),
    (hcontains (0x8000000000000000 : UInt64)).2 (by decide)⟩

/-! ## Documents -/

/-- The document of a membership test. -/
def membershipDocument (key : String) (document : Json) : Json :=
  .object [("where", .object
    [("key", .string key), ("operator", .string Operator.contains.wireName), ("value", document)])]

/-- A membership test is read with the value that its literal is read as. -/
theorem ofJson_membershipDocument (key : String) (document : Json) :
    ofJson (membershipDocument key document) = .ok (.leaf key .contains (.ofJson document)) := by
  have hdocument : membershipDocument key document
      = (leaf key .contains (.raw document)).toJson := by
    simp only [membershipDocument, toJson, Value.toJson]
  rw [hdocument]
  refine ofJson_toJson_leaf ?_
  simp only [Value.toJson]
  rfl

/-- Where elements are documents, a membership test that is read from a document
is accepted. If its literal is kept, it finds exactly the rows with an element
equal to the literal, and on a row with the literal as its only element it holds
if and only if the literal is kept. Short doubles are. -/
theorem compile_contains_document_iff
    (hprojection : ((Projection.draft output).declareAll decls).finish = .ok projection)
    (htable : FieldTable.ofProjection projection matching = .ok table)
    {decl : Declaration R} (hdecl : decl ∈ decls) (htype : decl.type = .list .raw) {key : String}
    (hkey : matching.fold decl.name = matching.fold key) {document : Json}
    (hnull : document ≠ .null) :
    ∃ f p, ofJson (membershipDocument key document) = .ok f ∧ compile .default table f = .ok p
      ∧ (document.Kept → ∀ row, p.holds (projection.layout.view row) = true
          ↔ ∃ element, .raw element ∈ (decl.content row).elements
            ∧ element.same document = true)
      ∧ (∀ row, decl.content row = .list [.raw document] →
          (p.holds (projection.layout.view row) = true ↔ document.Kept))
      ∧ ∀ y : Double, document = .number (.double y) → y.IsShort → document.Kept := by
  obtain ⟨p, hp, hholds⟩ := holds_of_compile_contains hprojection htable hdecl hkey htype
    (Value.castTo?_ofJson_raw hnull)
  refine ⟨_, p, ofJson_membershipDocument key document, hp, fun hkept row => ?_,
    fun row hcontent => ?_, ?_⟩
  · rw [hholds, Value.any_equal_raw]
    rcases document.settled with ⟨-, hsame⟩ | ⟨hlost, -⟩
    · simp only [hsame]
    · exact absurd hkept hlost
  · rw [hholds, Value.any_equal_raw, hcontent]
    simp only [Value.elements, List.mem_singleton, Value.raw.injEq, exists_eq_left]
    rcases document.settled with ⟨hkept, hsame⟩ | ⟨hlost, hsame⟩
    · exact iff_of_true ((hsame document).trans document.same_self) hkept
    · exact iff_of_false (hsame ▸ Bool.false_ne_true) hlost
  · rintro y rfl hshort
    exact Json.kept_of_isShort hshort

/-- Rows with documents. -/
def documentedRows : List (Declaration (List Json)) :=
  [.many (some .array) inferInstance "documents" id]

/-- A word is found, and the day of a date is not. -/
theorem compile_contains_document_texts : ∃ projection table,
    ((Projection.draft id).declareAll documentedRows).finish = .ok projection
      ∧ FieldTable.ofProjection projection .exact = .ok table
      ∧ (∃ f p, ofJson (membershipDocument "documents" (.string "draft")) = .ok f
        ∧ compile .default table f = .ok p
        ∧ p.holds (projection.layout.view [.string "draft"]) = true)
      ∧ ∃ f p, ofJson (membershipDocument "documents" (.string "2024-03-01")) = .ok f
        ∧ compile .default table f = .ok p
        ∧ p.holds (projection.layout.view [.string "2024-03-01"]) = false := by
  have hok : ∃ projection table,
      ((Projection.draft id).declareAll documentedRows).finish = .ok projection
        ∧ FieldTable.ofProjection projection .exact = .ok table := ⟨_, _, rfl, rfl⟩
  have hword : (Json.string "draft").Kept := by
    intro t ht
    have hnone : Instant.parse? "draft" = none := by decide +kernel
    exact absurd (hnone.symm.trans ht) nofun
  have hday : ¬(Json.string "2024-03-01").Kept := by
    intro hkept
    have hwritten : (Instant.parse? "2024-03-01").bind Instant.text?
        = some "2024-03-01T00:00:00Z" := by decide +kernel
    obtain ⟨t, ht, htext⟩ := Option.bind_eq_some_iff.mp hwritten
    exact absurd (htext.symm.trans (hkept t ht)) (by decide)
  obtain ⟨projection, table, hprojection, htable⟩ := hok
  obtain ⟨f, p, hf, hp, -, hword_iff, -⟩ := compile_contains_document_iff
    hprojection htable (List.mem_cons_self ..) rfl rfl (show Json.string "draft" ≠ .null from nofun)
  obtain ⟨g, q, hg, hq, -, hday_iff, -⟩ := compile_contains_document_iff
    hprojection htable (List.mem_cons_self ..) rfl rfl
    (show Json.string "2024-03-01" ≠ .null from nofun)
  exact ⟨projection, table, hprojection, htable,
    ⟨f, p, hf, hp, (hword_iff [.string "draft"] rfl).mpr hword⟩, g, q, hg, hq,
    Bool.eq_false_iff.mpr (mt (hday_iff [.string "2024-03-01"] rfl).mp hday)⟩

end Filter

end RowQuery
