import RowQuery.Proofs.Compile.Meaning
import RowQuery.Proofs.Value.Equality

/-!
# Equal values answer alike

A value may be replaced by an equal one, in a cell, in a literal or in an
element of a sequence, and comparisons and membership tests do not see it:
the order of scalars and the order of text cells compare equal values alike.

Patterns are not among these tests: a pattern looks at the text of a value, and
equal numbers may have different texts.
-/

namespace RowQuery

/-! ## Orders -/

namespace Value

variable {a a' b b' : Value}

theorem strictOrder?_congr (ha : a.equal a' = true) (hb : b.equal b' = true) :
    strictOrder? a b = strictOrder? a' b' := by
  have harank := rank_eq_of_equal ha
  have hbrank := rank_eq_of_equal hb
  rw [strictOrder?_eq, strictOrder?_eq, ← isScalar_of_rank_eq harank, ← harank, ← hbrank]
  split
  · next h =>
      obtain ⟨hscalar, hrank⟩ := h
      rw [equal_iff_of_isScalar hscalar] at ha
      rw [equal_iff_of_isScalar (isScalar_of_rank_eq hrank ▸ hscalar)] at hb
      rw [Std.TransCmp.congr_left ha, Std.TransCmp.congr_right hb]
  · rfl

/-- Equal texts are one text. -/
theorem textKey?_congr (h : a.equal b = true) : a.textKey? = b.textKey? := by
  have hrank := rank_eq_of_equal h
  cases a with
  | text s =>
      cases b <;> cases hrank
      rw [equal_iff_of_isScalar rfl, sortOrder_of_strictOrder? rfl, compareText_eq,
        Std.LawfulEqCmp.compare_eq_iff_eq] at h
      rw [textKey?, textKey?, h]
  | null =>
      cases b <;> cases hrank
      rfl
  | _ =>
      cases b with
      | null | text _ => cases hrank
      | _ => rfl

theorem textOrder?_congr (ha : a.equal a' = true) (hb : b.equal b' = true) :
    textOrder? a b = textOrder? a' b' := by
  rw [textOrder?_eq, textOrder?_eq, textKey?_congr ha, textKey?_congr hb]

theorem equal_congr_both (ha : a.equal a' = true) (hb : b.equal b' = true) :
    a.equal b = a'.equal b' := by
  rw [isEquality_equal.congr ha, isEquality_equal.congr_right hb]

/-- A member may be replaced, and what is looked for as well. -/
theorem any_equal_congr {as as' : List Value}
    (hitems : List.Forall₂ (fun a a' => a.equal a' = true) as as') (hb : b.equal b' = true) :
    as.any (·.equal b) = as'.any (·.equal b') := by
  induction hitems with
  | nil => rfl
  | cons ha _ ih => rw [List.any_cons, List.any_cons, equal_congr_both ha hb, ih]

end Value

/-! ## Comparisons and membership -/

theorem Relation.holds_congr (relation : Relation) {cell cell' value value' : Value}
    (hcell : cell.equal cell' = true) (hvalue : value.equal value' = true) :
    relation.holds cell value = relation.holds cell' value' := by
  cases hequality : relation.isEquality with
  | true =>
      cases relation with
      | eq => rw [holds, holds, Value.equal_congr_both hcell hvalue]
      | ne => rw [holds, holds, Value.equal_congr_both hcell hvalue]
      | _ => cases hequality
  | false =>
      rw [holds_of_order hequality, holds_of_order hequality,
        Value.strictOrder?_congr hcell hvalue]

namespace Value

/-- Equality is an equivalence, and no comparison and no membership test tells
equal values apart, in the cell or the elements that are read or in the literal. -/
theorem equal_congruence :
    Equivalence (fun a b : Value => a.equal b = true)
      ∧ ∀ {field field' : FieldAccess} {view view' : RowView} {literal literal' : Value},
          literal.equal literal' = true →
            ((field.read view).value.equal (field'.read view').value = true →
              ∀ relation : Relation,
                (Condition.relates relation field literal).holds view
                    = (Condition.relates relation field' literal').holds view'
                  ∧ (Condition.relatesAsText relation field literal).holds view
                    = (Condition.relatesAsText relation field' literal').holds view')
              ∧ (List.Forall₂ (fun a b => a.equal b = true) (field.elements view).items
                    (field'.elements view').items →
                  (Condition.contains field literal).holds view
                    = (Condition.contains field' literal').holds view') := by
  refine ⟨isEquality_equal.equivalence, fun hliteral => ⟨fun hcell relation => ⟨?_, ?_⟩, ?_⟩⟩
  · rw [Condition.holds_relates, Condition.holds_relates, relation.holds_congr hcell hliteral]
  · rw [Condition.holds_relatesAsText, Condition.holds_relatesAsText, Relation.holdsAsText,
      Relation.holdsAsText, textOrder?_congr hcell hliteral]
  · intro hitems
    rw [Condition.holds_contains, Condition.holds_contains, any_equal_congr hitems hliteral]

/-- A list with an integer in it and the list with a decimal of the same number;
the number itself is in both, whichever of the two it is. -/
theorem equal_congruence_two :
    let two : Value := .int 2
    let decimalTwo : Value := .decimal ⟨false, 200, 2, by decide, by decide⟩
    let field : FieldAccess := .element (.list .int)
    let view := RowView.ofElement (.list [.null, two])
    let view' := RowView.ofElement (.list [.null, decimalTwo])
    two.equal decimalTwo = true
      ∧ (Condition.relates .eq field (.list [.null, two])).holds view
        = (Condition.relates .eq field (.list [.null, decimalTwo])).holds view'
      ∧ (Condition.contains field two).holds view
        = (Condition.contains field decimalTwo).holds view' := by
  intro two decimalTwo field view view'
  have htwo : two.equal decimalTwo = true := by decide +kernel
  have hlist : (Value.list [.null, two]).equal (.list [.null, decimalTwo]) = true := by
    simp only [equal, equalAll, htwo, Bool.and_self]
  refine ⟨htwo, ?_, ?_⟩
  · have hcell : (field.read view).value.equal (field.read view').value = true := hlist
    exact ((equal_congruence.2 hlist).1 hcell .eq).1
  · have hitems : List.Forall₂ (fun a b : Value => a.equal b = true) (field.elements view).items
        (field.elements view').items := .cons rfl (.cons htwo .nil)
    exact (equal_congruence.2 htwo).2 hitems

end Value

end RowQuery
