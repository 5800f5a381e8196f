import RowQuery.Proofs.Json.Sameness
import RowQuery.Proofs.Value.SortOrder

/-!
# Equality of values is an equality

`Value.same` and `Filter.same`, equality as data, and `Value.equal`, equality as
filters see it, are tests of equality (`IsEquality`), each by one recursion over
the trees.

Scalars need no recursion: they are equal if and only if the order of all values
does not tell them apart (`Value.equal_iff_of_isScalar`), and that order is a
total preorder.
-/

namespace RowQuery

/-! ## Equality as data -/

mutual

theorem Value.same_self : ∀ v : Value, v.same v = true
  | .null => by rw [Value.same]
  | .bool _ => by rw [Value.same, beq_self_eq_true]
  | .int _ => by rw [Value.same, beq_self_eq_true]
  | .decimal _ => by rw [Value.same, Decimal.numEq_iff]
  | .text _ => by rw [Value.same, beq_self_eq_true]
  | .instant _ => by rw [Value.same, Instant.sameMoment, beq_self_eq_true]
  | .list items => by rw [Value.same, Value.sameAll_self items]
  | .raw document => by rw [Value.same, document.same_self]
  | .filter body => by rw [Value.same, Filter.same_self body]

theorem Value.sameAll_self : ∀ vs : List Value, Value.sameAll vs vs = true
  | [] => by rw [Value.sameAll]
  | v :: rest => by rw [Value.sameAll, Value.same_self v, Value.sameAll_self rest, Bool.and_self]

theorem Filter.same_self : ∀ f : Filter, f.same f = true
  | .and children => by rw [Filter.same, Filter.sameAll_self children]
  | .or children => by rw [Filter.same, Filter.sameAll_self children]
  | .not child => by rw [Filter.same, Filter.same_self child]
  | .leaf _ _ value => by
      simp only [Filter.same, beq_self_eq_true, Value.same_self value, Bool.and_self]

theorem Filter.sameAll_self : ∀ fs : List Filter, Filter.sameAll fs fs = true
  | [] => by rw [Filter.sameAll]
  | f :: rest => by
      rw [Filter.sameAll, Filter.same_self f, Filter.sameAll_self rest, Bool.and_self]

end

-- Values of two kinds are never the same, so that only one form is left for `b`.
mutual

theorem Value.same_congr : ∀ {a b : Value}, a.same b = true → ∀ c, a.same c = b.same c
  | .null, b, h, _ => by
      cases b <;> simp only [Value.same, Bool.false_eq_true] at h
      rfl
  | .bool _, b, h, _ => by
      cases b <;> simp only [Value.same, Bool.false_eq_true, beq_iff_eq] at h
      rw [h]
  | .int _, b, h, _ => by
      cases b <;> simp only [Value.same, Bool.false_eq_true, beq_iff_eq] at h
      rw [h]
  | .decimal _, b, h, c => by
      cases b <;> simp only [Value.same, Bool.false_eq_true] at h
      cases c <;> simp only [Value.same]
      rw [Bool.eq_iff_iff, Decimal.numEq_iff, Decimal.numEq_iff, Decimal.numEq_iff.mp h]
  | .text _, b, h, _ => by
      cases b <;> simp only [Value.same, Bool.false_eq_true, beq_iff_eq] at h
      rw [h]
  | .instant _, b, h, c => by
      cases b <;> simp only [Value.same, Bool.false_eq_true, Instant.sameMoment, beq_iff_eq] at h
      cases c <;> simp only [Value.same, Instant.sameMoment, h]
  | .list _, b, h, c => by
      cases b <;> simp only [Value.same, Bool.false_eq_true] at h
      cases c <;> simp only [Value.same, Value.sameAll_congr h]
  | .raw _, b, h, c => by
      cases b <;> simp only [Value.same, Bool.false_eq_true] at h
      cases c <;> simp only [Value.same, Json.isEquality_same.congr h]
  | .filter _, b, h, c => by
      cases b <;> simp only [Value.same, Bool.false_eq_true] at h
      cases c <;> simp only [Value.same, Filter.same_congr h]

theorem Value.sameAll_congr : ∀ {as bs : List Value}, Value.sameAll as bs = true →
    ∀ cs, Value.sameAll as cs = Value.sameAll bs cs
  | [], bs, h, _ => by
      cases bs <;> simp only [Value.sameAll, Bool.false_eq_true] at h
      rfl
  | _ :: _, [], h, _ => by simp only [Value.sameAll, Bool.false_eq_true] at h
  | _ :: _, _ :: _, h, cs => by
      simp only [Value.sameAll, Bool.and_eq_true] at h
      cases cs <;> simp only [Value.sameAll, Value.same_congr h.1, Value.sameAll_congr h.2]

theorem Filter.same_congr : ∀ {a b : Filter}, a.same b = true → ∀ c, a.same c = b.same c
  | .and _, b, h, c => by
      cases b <;> simp only [Filter.same, Bool.false_eq_true] at h
      cases c <;> simp only [Filter.same, Filter.sameAll_congr h]
  | .or _, b, h, c => by
      cases b <;> simp only [Filter.same, Bool.false_eq_true] at h
      cases c <;> simp only [Filter.same, Filter.sameAll_congr h]
  | .not _, b, h, c => by
      cases b <;> simp only [Filter.same, Bool.false_eq_true] at h
      cases c <;> simp only [Filter.same, Filter.same_congr h]
  | .leaf _ _ _, b, h, c => by
      cases b <;> simp only [Filter.same, Bool.false_eq_true, Bool.and_eq_true, beq_iff_eq] at h
      cases c <;> simp only [Filter.same, h.1.1, h.1.2, Value.same_congr h.2]

theorem Filter.sameAll_congr : ∀ {as bs : List Filter}, Filter.sameAll as bs = true →
    ∀ cs, Filter.sameAll as cs = Filter.sameAll bs cs
  | [], bs, h, _ => by
      cases bs <;> simp only [Filter.sameAll, Bool.false_eq_true] at h
      rfl
  | _ :: _, [], h, _ => by simp only [Filter.sameAll, Bool.false_eq_true] at h
  | _ :: _, _ :: _, h, cs => by
      simp only [Filter.sameAll, Bool.and_eq_true] at h
      cases cs <;> simp only [Filter.sameAll, Filter.same_congr h.1, Filter.sameAll_congr h.2]

end

theorem Filter.isEquality_same : IsEquality Filter.same where
  self := Filter.same_self
  congr := Filter.same_congr

namespace Value

/-! ## Scalars -/

theorem isScalar_eq (v : Value) : v.isScalar = [1, 2, 3, 4].contains v.rank := by
  cases v <;> rfl

theorem isScalar_of_rank_eq {a b : Value} (h : a.rank = b.rank) : a.isScalar = b.isScalar := by
  rw [isScalar_eq, isScalar_eq, h]

/-- Scalars compare with those of their rank, as all values do. -/
theorem strictOrder?_eq (a b : Value) :
    strictOrder? a b
      = if a.isScalar = true ∧ a.rank = b.rank then some (a.sortOrder b) else none := by
  cases h : strictOrder? a b with
  | some o => rw [if_pos (exists_strictOrder?_iff.mp ⟨o, h⟩), sortOrder_of_strictOrder? h]
  | none =>
      refine (if_neg fun hscalar => ?_).symm
      obtain ⟨o, ho⟩ := exists_strictOrder?_iff.mpr hscalar
      exact absurd (h.symm.trans ho) nofun

theorem rank_eq_of_sortOrder {a b : Value} (h : a.sortOrder b = .eq) : a.rank = b.rank := by
  by_contra hrank
  rw [sortOrder_of_rank_ne hrank, compare_eq_iff_eq] at h
  exact hrank h

theorem rank_eq_of_equal {a b : Value} (h : a.equal b = true) : a.rank = b.rank := by
  unfold equal at h
  split at h
  · rfl
  · rfl
  · rfl
  · rfl
  · exact (exists_strictOrder?_iff.mp ⟨.eq, beq_iff_eq.mp h⟩).2

/-- A scalar is equal to what compares as equal with it. -/
theorem equal_of_isScalar {a : Value} (ha : a.isScalar = true) (b : Value) :
    a.equal b = (strictOrder? a b == some .eq) := by
  cases a with
  | bool _ | int _ | decimal _ | text _ | instant _ => rfl
  | _ => cases ha

/-- A scalar is equal to what the order of all values does not tell apart from it. -/
theorem equal_iff_of_isScalar {a : Value} (ha : a.isScalar = true) (b : Value) :
    a.equal b = true ↔ a.sortOrder b = .eq := by
  rw [equal_of_isScalar ha, beq_iff_eq, strictOrder?_eq]
  constructor
  · intro h
    split at h
    · exact Option.some.inj h
    · cases h
  · intro h
    rw [if_pos ⟨ha, rank_eq_of_sortOrder h⟩, h]

theorem equal_congr_of_isScalar {a b : Value} (ha : a.isScalar = true) (h : a.equal b = true)
    (c : Value) : a.equal c = b.equal c := by
  have hb : b.isScalar = true := isScalar_of_rank_eq (rank_eq_of_equal h) ▸ ha
  rw [equal_iff_of_isScalar ha] at h
  rw [Bool.eq_iff_iff, equal_iff_of_isScalar ha, equal_iff_of_isScalar hb,
    Std.TransCmp.congr_left h]

/-! ## Equality as filters see it -/

mutual

theorem equal_self : ∀ v : Value, v.equal v = true
  | .null => by rw [equal]
  | .list items => by rw [equal, equalAll_self items]
  | .raw document => by rw [equal, document.same_self]
  | .filter body => by rw [equal, body.same_self]
  | .bool _ | .int _ | .decimal _ | .text _ | .instant _ =>
      (equal_iff_of_isScalar rfl _).mpr Std.ReflCmp.compare_self

theorem equalAll_self : ∀ vs : List Value, equalAll vs vs = true
  | [] => by rw [equalAll]
  | v :: rest => by rw [equalAll, equal_self v, equalAll_self rest, Bool.and_self]

end

mutual

theorem equal_congr : ∀ {a b : Value}, a.equal b = true → ∀ c, a.equal c = b.equal c
  | .null, b, h, _ => by
      have hrank := rank_eq_of_equal h
      cases b <;> cases hrank
      rfl
  | .list _, b, h, c => by
      have hrank := rank_eq_of_equal h
      cases b <;> cases hrank
      rw [equal] at h
      cases c with
      | list _ => rw [equal, equal, equalAll_congr h]
      | _ => rfl
  | .raw _, b, h, c => by
      have hrank := rank_eq_of_equal h
      cases b <;> cases hrank
      rw [equal] at h
      cases c with
      | raw _ => rw [equal, equal, Json.isEquality_same.congr h]
      | _ => rfl
  | .filter _, b, h, c => by
      have hrank := rank_eq_of_equal h
      cases b <;> cases hrank
      rw [equal] at h
      cases c with
      | filter _ => rw [equal, equal, Filter.isEquality_same.congr h]
      | _ => rfl
  | .bool _, _, h, c | .int _, _, h, c | .decimal _, _, h, c | .text _, _, h, c
  | .instant _, _, h, c => equal_congr_of_isScalar rfl h c

theorem equalAll_congr : ∀ {as bs : List Value}, equalAll as bs = true →
    ∀ cs, equalAll as cs = equalAll bs cs
  | [], bs, h, _ => by
      cases bs <;> simp only [equalAll, Bool.false_eq_true] at h
      rfl
  | _ :: _, [], h, _ => by simp only [equalAll, Bool.false_eq_true] at h
  | _ :: _, _ :: _, h, cs => by
      simp only [equalAll, Bool.and_eq_true] at h
      cases cs <;> simp only [equalAll, equal_congr h.1, equalAll_congr h.2]

end

theorem isEquality_equal : IsEquality equal where
  self := equal_self
  congr := equal_congr

/-- Lists are equal if they are so element by element. -/
theorem equalAll_iff_forall₂ : ∀ {as bs : List Value},
    equalAll as bs = true ↔ List.Forall₂ (fun a b => a.equal b = true) as bs
  | [], [] => by simp [equalAll]
  | [], _ :: _ => by simp [equalAll]
  | _ :: _, [] => by simp [equalAll]
  | _ :: _, _ :: _ => by simp [equalAll, equalAll_iff_forall₂]

end Value

end RowQuery
