import RowQuery.Compile.Order
import RowQuery.Proofs.Json.Text
import RowQuery.Proofs.Value.Equality

/-!
# Ties and equality

Two values that are level in the order of all values are equal to a filter, and
the other way round, with one exception: documents are equal as numbers are and
level only if their texts are the same, and the two zeros among the doubles have
two texts. Without signed zeros in documents the two agree
(`Value.sortOrder_eq_iff`).

Nothing is said of filters, which are all level.
-/

namespace RowQuery

namespace Value

mutual

/-- The documents in a value, from the left to the right. -/
def documents : Value → List Json
  | .raw document => [document]
  | .list items => documentsAll items
  | _ => []

def documentsAll : List Value → List Json
  | [] => []
  | v :: rest => v.documents ++ documentsAll rest

end

theorem documents_of_isScalar {a : Value} (h : a.isScalar = true) : a.documents = [] := by
  cases a with
  | list _ | raw _ => cases h
  | _ => rfl

mutual

/-- Equal values have the same documents but for the signs of zeros. -/
theorem documents_of_equal : ∀ {a b : Value}, a.equal b = true →
    a.documents.map Json.unsignedZeros = b.documents.map Json.unsignedZeros
  | .list _, b, h => by
      have hrank := rank_eq_of_equal h
      cases b <;> cases hrank
      rw [equal] at h
      exact documentsAll_of_equalAll h
  | .raw _, b, h => by
      have hrank := rank_eq_of_equal h
      cases b <;> cases hrank
      rw [equal] at h
      simp only [documents, List.map_cons, Json.same_iff.mp h]
  | .null, b, h | .bool _, b, h | .int _, b, h | .decimal _, b, h | .text _, b, h
  | .instant _, b, h | .filter _, b, h => by
      have hrank := rank_eq_of_equal h
      cases b with
      | list _ | raw _ => cases hrank
      | _ => rfl

theorem documentsAll_of_equalAll : ∀ {as bs : List Value}, equalAll as bs = true →
    (documentsAll as).map Json.unsignedZeros = (documentsAll bs).map Json.unsignedZeros
  | [], [], _ => rfl
  | [], _ :: _, h => absurd h Bool.false_ne_true
  | _ :: _, [], h => absurd h Bool.false_ne_true
  | _ :: _, _ :: _, h => by
      rw [equalAll, Bool.and_eq_true] at h
      rw [documentsAll, documentsAll, List.map_append, List.map_append, documents_of_equal h.1,
        documentsAll_of_equalAll h.2]

end

theorem length_documents_of_equal {a b : Value} (h : a.equal b = true) :
    a.documents.length = b.documents.length := by
  have := congrArg List.length (documents_of_equal h)
  rwa [List.length_map, List.length_map] at this

/-! ## Ties -/

section Ties

variable {a b : Value}

theorem sortOrder_eq_iff_of_rank_ne (h : a.rank ≠ b.rank) :
    a.sortOrder b = .eq ↔ a.equal b = true ∧ a.documents = b.documents :=
  iff_of_false (fun hlevel => h (rank_eq_of_sortOrder hlevel))
    fun hequal => h (rank_eq_of_equal hequal.1)

theorem sortOrder_eq_iff_of_isScalar (h : a.isScalar = true) :
    a.sortOrder b = .eq ↔ a.equal b = true ∧ a.documents = b.documents := by
  by_cases hrank : a.rank = b.rank
  · have hb : b.isScalar = true := isScalar_of_rank_eq hrank ▸ h
    rw [equal_iff_of_isScalar h, documents_of_isScalar h, documents_of_isScalar hb,
      and_iff_left rfl]
  · exact sortOrder_eq_iff_of_rank_ne hrank

/-- Documents are level only if they are one document. -/
theorem sortOrder_raw_eq_iff {d e : Json} :
    (raw d).sortOrder (.raw e) = .eq ↔ d.same e = true ∧ d = e := by
  rw [sortOrder, compareText_eq, Std.LawfulEqCmp.compare_eq_iff_eq, textBytes_inj,
    Json.text_injective.eq_iff]
  constructor
  · rintro rfl
    exact ⟨d.same_self, rfl⟩
  · exact And.right

end Ties

mutual

/-- Values without filters are level if and only if they are equal and the documents
in them are the same, down to the signs of their zeros. -/
theorem sortOrder_eq_iff_documents : ∀ {a b : Value}, a.depth = 0 →
    (a.sortOrder b = .eq ↔ a.equal b = true ∧ a.documents = b.documents)
  | .null, b, _ => by
      by_cases hrank : null.rank = b.rank
      · cases b <;> cases hrank
        exact iff_of_true rfl ⟨rfl, rfl⟩
      · exact sortOrder_eq_iff_of_rank_ne hrank
  | .list as, b, h => by
      by_cases hrank : (list as).rank = b.rank
      · cases b <;> cases hrank
        rw [sortOrder, equal, documents, documents]
        exact sortOrderAll_eq_iff_documents h
      · exact sortOrder_eq_iff_of_rank_ne hrank
  | .raw d, b, _ => by
      by_cases hrank : (raw d).rank = b.rank
      · cases b <;> cases hrank
        rw [sortOrder_raw_eq_iff, equal, documents, documents, List.singleton_inj]
      · exact sortOrder_eq_iff_of_rank_ne hrank
  | .filter _, _, h => absurd h (Nat.succ_ne_zero _)
  | .bool _, _, _ | .int _, _, _ | .decimal _, _, _ | .text _, _, _ | .instant _, _, _ =>
      sortOrder_eq_iff_of_isScalar rfl

theorem sortOrderAll_eq_iff_documents : ∀ {as bs : List Value}, depthOfAll as = 0 →
    (sortOrderAll as bs = .eq ↔ equalAll as bs = true ∧ documentsAll as = documentsAll bs)
  | [], [], _ => iff_of_true rfl ⟨rfl, rfl⟩
  | [], _ :: _, _ => iff_of_false nofun nofun
  | _ :: _, [], _ => iff_of_false nofun nofun
  | a :: as, b :: bs, h => by
      rw [depthOfAll, Nat.max_eq_zero_iff] at h
      rw [sortOrderAll, Ordering.then_eq_eq, sortOrder_eq_iff_documents h.1,
        sortOrderAll_eq_iff_documents h.2, equalAll, Bool.and_eq_true, documentsAll, documentsAll]
      constructor
      · rintro ⟨⟨hequal, hdocuments⟩, hequals, hrest⟩
        exact ⟨⟨hequal, hequals⟩, by rw [hdocuments, hrest]⟩
      · rintro ⟨⟨hequal, hequals⟩, hdocuments⟩
        -- equal values have as many documents, so those of the first two are apart
        obtain ⟨hfirst, hrest⟩ :=
          List.append_inj hdocuments (length_documents_of_equal hequal)
        exact ⟨⟨hequal, hfirst⟩, hequals, hrest⟩

end

theorem map_unsignedZeros {documents : List Json}
    (h : ∀ document ∈ documents, document.unsignedZeros = document) :
    documents.map Json.unsignedZeros = documents :=
  (List.map_congr_left h).trans (List.map_id _)

/-- The order of a link has the ties of the order of values. -/
theorem compare_link_eq_iff (link : ResolvedLink) {a b : Value} :
    link.compare a b = .eq ↔ a.sortOrder b = .eq := by
  rw [ResolvedLink.compare]
  cases link.direction with
  | asc => rfl
  | desc => exact Ordering.swap_eq_eq

/-- Equal values are those that no filter for equality tells apart. -/
theorem equal_iff_forall_equal {a b : Value} :
    a.equal b = true ↔ ∀ literal : Value, a.equal literal = b.equal literal :=
  ⟨isEquality_equal.congr, fun h => (h b).trans (equal_self b)⟩

/-- Rows whose sort keys hold no filter tie on a link if and only if no filter for
equality tells the keys apart and the documents in them are the same, down to the
signs of their zeros. That is a condition of its own only if there are signs: without
them it follows from the other. -/
theorem sortOrder_eq_iff {a b : Value} (ha : a.depth = 0) :
    (a.sortOrder b = .eq ↔ a.equal b = true ∧ a.documents = b.documents)
      ∧ ((∀ document ∈ a.documents ++ b.documents, document.unsignedZeros = document) →
          (a.sortOrder b = .eq ↔ a.equal b = true))
      ∧ (a.equal b = true ↔ ∀ literal : Value, a.equal literal = b.equal literal)
      ∧ ∀ link : ResolvedLink, link.compare a b = .eq ↔ a.sortOrder b = .eq := by
  have hties := sortOrder_eq_iff_documents (b := b) ha
  refine ⟨hties, fun hunsigned => ?_, equal_iff_forall_equal, fun link => compare_link_eq_iff link⟩
  rw [hties]
  refine and_iff_left_of_imp fun hequal => ?_
  rw [List.forall_mem_append] at hunsigned
  calc a.documents
      = a.documents.map Json.unsignedZeros := (map_unsignedZeros hunsigned.1).symm
    _ = b.documents.map Json.unsignedZeros := documents_of_equal hequal
    _ = b.documents := map_unsignedZeros hunsigned.2

/-- The two zeros in a list are equal and not level. Beside a document without zeros,
a number is level with what it is equal to. -/
theorem sortOrder_eq_iff_zeros :
    let zero (negative : Bool) : Value := .list [.raw (.number (.double (.zero negative)))]
    let two (number : Value) : Value := .list [number, .raw (.string "b")]
    let decimalTwo : Value := .decimal ⟨false, 20, 1, by decide, by decide⟩
    (zero true).depth = 0 ∧ (zero true).equal (zero false) = true
      ∧ (zero true).sortOrder (zero false) ≠ .eq
      ∧ (two (.int 2)).depth = 0 ∧ (two (.int 2)).sortOrder (two decimalTwo) = .eq := by
  intro zero two decimalTwo
  have hzero : (zero true).depth = 0 := rfl
  have htwo : (two (.int 2)).depth = 0 := rfl
  have hequal : (two (.int 2)).equal (two decimalTwo) = true := by decide +kernel
  refine ⟨hzero, by decide, fun hlevel => ?_, htwo, ?_⟩
  · have hdocuments := ((sortOrder_eq_iff hzero).1.mp hlevel).2
    exact absurd hdocuments (by simp [zero, documents, documentsAll, Double.zero])
  · refine ((sortOrder_eq_iff htwo).2.1 ?_).mpr hequal
    simp [two, decimalTwo, documents, documentsAll, Json.unsignedZeros]

end Value

end RowQuery
