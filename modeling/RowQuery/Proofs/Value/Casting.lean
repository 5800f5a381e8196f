import RowQuery.Proofs.Value.Equality
import RowQuery.Proofs.Value.Numbers
import RowQuery.Value.Cast

/-!
# Casting is the lossless conversion

A value has the shape of a type if it is null, of the kind of the type, or a
list of values that have the shape of the elements (`Value.HasShape`). What a
cast yields has the shape of its type, and casting leaves every value alone that
has it already. Unless documents are asked for, the result is equal to what was
cast, and a value that cannot be cast is equal to no value of that shape.

The first two are said of all types. Documents are different for the rest: a
number is cast to the document that it is written as, and is not equal to it.
-/

namespace RowQuery

/-- No part of the type is a document. -/
def DataType.IsRawFree : DataType → Prop
  | .raw => False
  | .list element => element.IsRawFree
  | _ => True

namespace Value

/-- The values of a type, null among them at every level. -/
inductive HasShape : DataType → Value → Prop where
  | null {type : DataType} : HasShape type .null
  | bool {b : Bool} : HasShape .bool (.bool b)
  | int {n : Int64} : HasShape .int (.int n)
  | decimal {d : Decimal} : HasShape .decimal (.decimal d)
  | text {s : String} : HasShape .text (.text s)
  | instant {t : Instant} : HasShape .instant (.instant t)
  | raw {document : Json} : HasShape .raw (.raw document)
  | list {element : DataType} {items : List Value} (h : ∀ item ∈ items, HasShape element item) :
      HasShape (.list element) (.list items)

/-! ## Element by element -/

theorem exists_mem_of_forall₂ {α β : Type} {R : α → β → Prop} {as : List α} {bs : List β}
    (h : List.Forall₂ R as bs) : ∀ a ∈ as, ∃ b ∈ bs, R a b := by
  induction h with
  | nil => nofun
  | @cons a b _ _ hab _ ih =>
      rintro c (_ | ⟨_, hc⟩)
      · exact ⟨b, List.mem_cons_self .., hab⟩
      · obtain ⟨d, hd, hcd⟩ := ih c hc
        exact ⟨d, List.mem_cons_of_mem _ hd, hcd⟩

theorem castAll?_eq_some_iff {type : DataType} : ∀ {vs ws : List Value},
    castAll? vs type = some ws ↔ List.Forall₂ (fun v w => v.castTo? type = some w) vs ws
  | [], ws => by cases ws <;> simp [castAll?]
  | v :: rest, ws => by
      rw [castAll?, List.forall₂_cons_left_iff]
      simp only [← castAll?_eq_some_iff]
      cases v.castTo? type <;> cases castAll? rest type <;> simp [eq_comm]

theorem exists_castAll? {type : DataType} {vs : List Value}
    (h : ∀ v ∈ vs, ∃ w, v.castTo? type = some w) : ∃ ws, castAll? vs type = some ws := by
  induction vs with
  | nil => exact ⟨[], rfl⟩
  | cons v rest ih =>
      obtain ⟨w, hw⟩ := h v (List.mem_cons_self ..)
      obtain ⟨ws, hws⟩ := ih fun u hu => h u (List.mem_cons_of_mem _ hu)
      exact ⟨w :: ws, by rw [castAll?, hw, hws]⟩

theorem acceptsAll_iff {type : DataType} {vs : List Value} :
    type.acceptsAll vs = true ↔ ∀ v ∈ vs, type.accepts v = true := by
  induction vs with
  | nil => simp [DataType.acceptsAll]
  | cons v rest ih => simp [DataType.acceptsAll, ih]

/-! ## Values of the shape -/

theorem HasShape.accepts {type : DataType} {w : Value} (h : HasShape type w) :
    type.accepts w = true := by
  induction h with
  | list _ ih => rw [DataType.accepts, acceptsAll_iff.mpr ih]
  | _ => simp only [DataType.accepts]

/-- A value of the shape is left alone. -/
theorem HasShape.castTo? {type : DataType} {w : Value} (h : HasShape type w) :
    w.castTo? type = some w := by
  induction h with
  | list _ ih =>
      have hitems := castAll?_eq_some_iff.mpr (List.forall₂_same.mpr ih)
      rw [Value.castTo?, hitems, Option.map_some]
  | _ => simp only [Value.castTo?]

/-! ## What a cast can do -/

/-- A value that can be cast has the shape already, or is a number that becomes one of
the other kind, or is written as a document, or is a list whose elements can be cast. -/
theorem castTo?_cases {type : DataType} {v w : Value} (h : v.castTo? type = some w) :
    (HasShape type v ∧ w = v)
      ∨ (type = .decimal ∧ ∃ n, v = .int n ∧ w = .decimal (.ofInt64 n))
      ∨ (type = .int ∧ ∃ d n, v = .decimal d ∧ w = .int n ∧ d.value = n.toInt)
      ∨ (type = .raw ∧ ∃ document, w = .raw document)
      ∨ ∃ element vs ws, type = .list element ∧ v = .list vs ∧ w = .list ws
          ∧ List.Forall₂ (fun v w => v.castTo? element = some w) vs ws := by
  cases type with
  | list element =>
      cases v <;> simp only [Value.castTo?, Option.some.injEq, reduceCtorEq] at h
      case null => exact .inl ⟨.null, h.symm⟩
      case list vs =>
        obtain ⟨ws, hws, rfl⟩ := Option.map_eq_some_iff.mp h
        exact .inr (.inr (.inr (.inr
          ⟨element, vs, ws, rfl, rfl, rfl, castAll?_eq_some_iff.mp hws⟩)))
  | int =>
      cases v <;> simp only [Value.castTo?, Option.some.injEq, reduceCtorEq] at h
      case null => exact .inl ⟨.null, h.symm⟩
      case int n => exact .inl ⟨.int, h.symm⟩
      case decimal d =>
        obtain ⟨n, hn, rfl⟩ := Option.map_eq_some_iff.mp h
        exact .inr (.inr (.inl ⟨rfl, d, n, rfl, rfl, Decimal.toInt64?_eq_some_iff.mp hn⟩))
  | decimal =>
      cases v <;> simp only [Value.castTo?, Option.some.injEq, reduceCtorEq] at h
      case null => exact .inl ⟨.null, h.symm⟩
      case int n => exact .inr (.inl ⟨rfl, n, rfl, h.symm⟩)
      case decimal d => exact .inl ⟨.decimal, h.symm⟩
  | raw =>
      cases v <;> simp only [Value.castTo?, Option.some.injEq, reduceCtorEq] at h
      case null => exact .inl ⟨.null, h.symm⟩
      all_goals exact .inr (.inr (.inr (.inl ⟨rfl, _, h.symm⟩)))
  | _ =>
      cases v <;> simp only [Value.castTo?, Option.some.injEq, reduceCtorEq] at h
      all_goals exact .inl ⟨by constructor, h.symm⟩

theorem hasShape_of_castTo? {type : DataType} {v w : Value} (h : v.castTo? type = some w) :
    HasShape type w := by
  rcases castTo?_cases h with ⟨hshape, rfl⟩ | ⟨rfl, n, rfl, rfl⟩ | ⟨rfl, d, n, rfl, rfl, -⟩
    | ⟨rfl, document, rfl⟩ | ⟨element, vs, ws, rfl, rfl, rfl, hitems⟩
  · exact hshape
  · exact .decimal
  · exact .int
  · exact .raw
  · refine .list fun item hitem => ?_
    obtain ⟨v, -, hv⟩ := exists_mem_of_forall₂ hitems.flip item hitem
    exact hasShape_of_castTo? hv

/-! ## Nothing is lost -/

theorem equal_of_castTo? {type : DataType} (htype : type.IsRawFree) {v w : Value}
    (h : v.castTo? type = some w) : v.equal w = true := by
  rcases castTo?_cases h with ⟨-, rfl⟩ | ⟨rfl, n, rfl, rfl⟩ | ⟨rfl, d, n, rfl, rfl, hvalue⟩
    | ⟨rfl, -⟩ | ⟨element, vs, ws, rfl, rfl, rfl, hitems⟩
  · exact equal_self _
  · exact (equal_iff_number_eq rfl rfl).mpr (Decimal.value_ofInt64 n).symm
  · exact (equal_iff_number_eq rfl rfl).mpr hvalue
  · exact htype.elim
  · have helement : element.IsRawFree := htype
    rw [equal, equalAll_iff_forall₂]
    exact hitems.imp fun _ _ hv => equal_of_castTo? helement hv

/-- What is equal to a value of the shape can be cast. -/
theorem exists_castTo? {type : DataType} (htype : type.IsRawFree) {u : Value}
    (hu : HasShape type u) {v : Value} (h : v.equal u = true) : ∃ w, v.castTo? type = some w := by
  have hrank := rank_eq_of_equal h
  induction hu generalizing v with
  | raw => exact htype.elim
  | @list element us _ ih =>
      cases v <;> cases hrank
      case list vs =>
        rw [equal, equalAll_iff_forall₂] at h
        have hitems : ∀ v ∈ vs, ∃ w, v.castTo? element = some w := by
          intro v hv
          obtain ⟨u, hu, hequal⟩ := exists_mem_of_forall₂ h v hv
          exact ih u hu htype hequal (rank_eq_of_equal hequal)
        obtain ⟨ws, hws⟩ := exists_castAll? hitems
        exact ⟨.list ws, by rw [castTo?, hws, Option.map_some]⟩
  | @int n =>
      cases v with
      | int m => exact ⟨.int m, rfl⟩
      | decimal d =>
          have hvalue : d.value = n.toInt := (equal_iff_number_eq rfl rfl).mp h
          have hinteger := Decimal.toInt64?_eq_some_iff.mpr hvalue
          exact ⟨.int n, by rw [castTo?, hinteger, Option.map_some]⟩
      | _ => cases hrank
  | null | bool | decimal | text | instant => cases v <;> cases hrank <;> exact ⟨_, rfl⟩

/-! ## Exactness -/

/-- Casting to a type without documents converts a value if and only if nothing
is lost: the result is a value of the type that is equal to the one cast and is
left alone by casting it again, and only what is equal to no value of the type
is not converted. -/
theorem castTo?_lossless {type : DataType} (htype : type.IsRawFree) (v : Value) :
    (∀ w, v.castTo? type = some w →
        HasShape type w ∧ type.accepts w = true ∧ v.equal w = true
          ∧ w.castTo? type = some w)
      ∧ (v.castTo? type = none → ∀ u, HasShape type u → v.equal u = false) := by
  constructor
  · intro w hw
    have hshape := hasShape_of_castTo? hw
    exact ⟨hshape, hshape.accepts, equal_of_castTo? htype hw, hshape.castTo?⟩
  · intro hnone u hu
    by_contra hequal
    obtain ⟨w, hw⟩ := exists_castTo? htype hu (Bool.eq_true_of_not_eq_false hequal)
    exact absurd (hnone.symm.trans hw) nofun

/-- Among integers, a whole decimal in a list is converted, and the list fails
as a whole if one of its elements has a fraction. -/
theorem castTo?_lossless_integers :
    let integers : DataType := .list (.list .int)
    let four : Decimal := ⟨false, 400, 2, by decide, by decide⟩
    let half : Decimal := ⟨false, 5, 1, by decide, by decide⟩
    integers.IsRawFree
      ∧ (Value.list [.null, .list [.decimal four]]).castTo? integers
        = some (.list [.null, .list [.int 4]])
      ∧ (Value.list [.null, .list [.decimal four]]).equal (.list [.null, .list [.int 4]]) = true
      ∧ (Value.list [.null, .list [.decimal half]]).castTo? integers = none
      ∧ ∀ u, HasShape integers u →
          (Value.list [.null, .list [.decimal half]]).equal u = false := by
  intro integers four half
  have hfour : four.toInt64? = some 4 := by decide
  have hcast : (Value.list [.null, .list [.decimal four]]).castTo? integers
      = some (.list [.null, .list [.int 4]]) := by
    simp only [integers, castTo?, castAll?, hfour, Option.map_some]
  have hnone : (Value.list [.null, .list [.decimal half]]).castTo? integers = none := by rfl
  have hfree : integers.IsRawFree := trivial
  refine ⟨hfree, hcast, ?_, hnone, ?_⟩
  · exact ((castTo?_lossless hfree _).1 _ hcast).2.2.1
  · exact (castTo?_lossless hfree _).2 hnone

end Value

end RowQuery
