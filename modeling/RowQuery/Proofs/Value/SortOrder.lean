import RowQuery.Proofs.Number.DecimalValue
import RowQuery.Proofs.Sorting.StableSort
import RowQuery.Value.Order

/-!
# The order of all values is a total preorder

`Value.sortOrder` compares two values by their kind, then by number or by
bytes, and at last element by element (`Value.sortOrder_eq`). Only the last
part looks into values. Cut off at a nesting depth it is `Value.orderWithin`, a
total preorder for each depth because lexicographic orders are, and two values
never need more depth than the size of one of them.

What this means is listed at the end: the laws of a total preorder, that the
order extends `Value.strictOrder?`, and that whatever is sorted by values can be
stably sorted in one way only.
-/

namespace RowQuery

namespace Value

/-! ## Comparing the outside of values -/

/-- The number by which a scalar compares with others of its rank. -/
def number : Value → ℚ
  | .bool b => b.toNat
  | .int n => n.toInt
  | .decimal d => d.value
  | .instant t => t.unixNanos
  | _ => 0

/-- The bytes by which texts and documents compare. -/
def bytes : Value → List UInt8
  | .text s => textBytes s
  | .raw document => textBytes document.text
  | _ => []

/-- The elements of a list. -/
def items : Value → List Value
  | .list items => items
  | _ => []

/-- Compares values without looking into lists. -/
def outerOrder : Value → Value → Ordering :=
  compareLex (compareOn rank) (compareLex (compareOn number) (compareOn bytes))

instance : Std.TransCmp outerOrder :=
  inferInstanceAs (Std.TransCmp (compareLex _ (compareLex _ _)))

theorem compare_intCast (m n : ℤ) : compare (m : ℚ) n = compare m n := by
  rw [← cmp_eq_compare, ← cmp_eq_compare, (Int.cast_strictMono (R := ℚ)).cmp_map_eq]

theorem compare_toNat (b c : Bool) : compare (b.toNat : ℚ) c.toNat = compare b c := by
  have h := compare_intCast b.toNat c.toNat
  push_cast at h
  rw [h]
  cases b <;> cases c <;> rfl

theorem compareText_eq (a b : String) : compareText a b = compare (textBytes a) (textBytes b) :=
  rfl

/-! ## Looking into lists -/

theorem sortOrderAll_eq : ∀ as bs : List Value,
    sortOrderAll as bs = List.compareLex sortOrder as bs
  | [], [] => rfl
  | [], _ :: _ => rfl
  | _ :: _, [] => rfl
  | a :: as, b :: bs => by
      rw [sortOrderAll, sortOrderAll_eq as bs, List.compareLex_cons_cons]

theorem compare_rank_then {a b : Value} (hrank : a.rank ≠ b.rank) (o : Ordering) :
    (compare a.rank b.rank).then o = compare a.rank b.rank := by
  have hne : compare a.rank b.rank ≠ .eq := mt compare_eq_iff_eq.mp hrank
  cases h : compare a.rank b.rank with
  | eq => exact absurd h hne
  | lt => rfl
  | gt => rfl

theorem sortOrder_of_rank_ne {a b : Value} (hrank : a.rank ≠ b.rank) :
    a.sortOrder b = compare a.rank b.rank := by
  rw [sortOrder]
  · exact compare_rank_then hrank _
  -- two lists are of one rank, and so are two documents
  · rintro as bs rfl rfl
    exact hrank rfl
  · rintro d e rfl rfl
    exact hrank rfl

/-- The outside of two values decides, and after it the elements of lists. -/
theorem sortOrder_eq (a b : Value) :
    a.sortOrder b = (outerOrder a b).then (List.compareLex sortOrder a.items b.items) := by
  by_cases hrank : a.rank = b.rank
  · -- only values of one kind and the two kinds of numbers are left
    cases a <;> cases b <;> cases hrank
    all_goals
      simp [sortOrder, sortOrderAll_eq, strictOrder?, outerOrder, compareLex, compareOn, rank,
        kind, Kind.rank, number, bytes, items, compare_intCast, compare_toNat, compareText_eq,
        Decimal.compare_eq_compare_value, Instant.compare, List.compareLex_nil_nil]
  · rw [sortOrder_of_rank_ne hrank, outerOrder, compareLex, compareOn, compare_rank_then hrank,
      compare_rank_then hrank]

/-! ## A bound on the depth -/

/-- The order of values that looks into lists up to a depth. -/
def orderWithin : (depth : Nat) → Value → Value → Ordering
  | 0 => outerOrder
  | depth + 1 =>
      compareLex outerOrder fun a b => List.compareLex (orderWithin depth) a.items b.items

/-- A total preorder of lists orders values by their elements. -/
theorem transCmp_items {cmp : Value → Value → Ordering} [Std.TransCmp cmp] :
    Std.TransCmp fun a b : Value => List.compareLex cmp a.items b.items where
  eq_swap := Std.OrientedCmp.eq_swap
  isLE_trans := Std.TransCmp.isLE_trans

theorem transCmp_orderWithin (depth : Nat) : Std.TransCmp (orderWithin depth) := by
  induction depth with
  | zero => exact inferInstanceAs (Std.TransCmp outerOrder)
  | succ depth ih =>
      have : Std.TransCmp fun a b : Value =>
          List.compareLex (orderWithin depth) a.items b.items := transCmp_items
      exact inferInstanceAs (Std.TransCmp (compareLex outerOrder _))

/-- Lists compare alike under comparisons that agree on the elements of the
first. -/
theorem compareLex_congr {α : Type} {f g : α → α → Ordering} : ∀ {as bs : List α},
    (∀ a ∈ as, ∀ b, f a b = g a b) → List.compareLex f as bs = List.compareLex g as bs
  | [], [], _ => rfl
  | [], _ :: _, _ => rfl
  | _ :: _, [], _ => rfl
  | a :: as, b :: bs, h => by
      rw [List.compareLex_cons_cons, List.compareLex_cons_cons, h a (List.mem_cons_self ..) b,
        compareLex_congr fun c hc => h c (List.mem_cons_of_mem _ hc)]

theorem sizeOf_lt_of_mem_items {a item : Value} (h : item ∈ a.items) : sizeOf item < sizeOf a := by
  cases a with
  | list items =>
      have hmem : sizeOf item < sizeOf items := List.sizeOf_lt_of_mem h
      have hlist : sizeOf (Value.list items) = 1 + sizeOf items := by simp
      omega
  | _ => cases h

/-- The size of the first value is depth enough. -/
theorem sortOrder_eq_orderWithin {depth : Nat} {a : Value} (hsize : sizeOf a ≤ depth) (b : Value) :
    a.sortOrder b = orderWithin depth a b := by
  induction depth generalizing a b with
  | zero =>
      have : 0 < sizeOf a := by cases a <;> simp
      omega
  | succ depth ih =>
      have hitems : List.compareLex sortOrder a.items b.items
          = List.compareLex (orderWithin depth) a.items b.items := by
        apply compareLex_congr
        intro item hitem other
        have hlt : sizeOf item < sizeOf a := sizeOf_lt_of_mem_items hitem
        exact ih (by omega) other
      rw [sortOrder_eq, hitems]
      rfl

/-- The order of all values is a total preorder: any three values are ordered
by one `orderWithin`. -/
instance : Std.TransCmp sortOrder where
  eq_swap {a b} := by
    have := transCmp_orderWithin (sizeOf a + sizeOf b)
    have hab := sortOrder_eq_orderWithin (Nat.le_add_right (sizeOf a) (sizeOf b)) b
    have hba := sortOrder_eq_orderWithin (Nat.le_add_left (sizeOf b) (sizeOf a)) a
    rw [hab, hba]
    exact Std.OrientedCmp.eq_swap
  isLE_trans {a b c} hab hbc := by
    have := transCmp_orderWithin (sizeOf a + sizeOf b)
    have ha := sortOrder_eq_orderWithin (Nat.le_add_right (sizeOf a) (sizeOf b))
    have hb := sortOrder_eq_orderWithin (Nat.le_add_left (sizeOf b) (sizeOf a))
    rw [ha] at hab ⊢
    rw [hb] at hbc
    exact Std.TransCmp.isLE_trans hab hbc

/-! ## Scalars -/

/-- Whether a value has a place in the order of scalars. -/
def isScalar : Value → Bool
  | .bool _ | .int _ | .decimal _ | .text _ | .instant _ => true
  | _ => false

theorem isSome_strictOrder? (a b : Value) :
    (strictOrder? a b).isSome = (a.isScalar && a.rank == b.rank) := by
  cases a <;> cases b <;> rfl

/-- Values that can be compared are scalars of one rank. -/
theorem exists_strictOrder?_iff {a b : Value} :
    (∃ o, strictOrder? a b = some o) ↔ a.isScalar = true ∧ a.rank = b.rank := by
  rw [← Option.isSome_iff_exists, isSome_strictOrder?, Bool.and_eq_true, beq_iff_eq]

/-! ## The laws -/

/-- Things that have values as keys are ordered by their keys. -/
instance transCmp_keys {α : Type} (key : α → Value) :
    Std.TransCmp fun x y => (key x).sortOrder (key y) where
  eq_swap := Std.OrientedCmp.eq_swap
  isLE_trans := Std.TransCmp.isLE_trans

/-- The order of all values extends the order of scalars. -/
theorem sortOrder_of_strictOrder? {a b : Value} {o : Ordering} (h : strictOrder? a b = some o) :
    a.sortOrder b = o := by
  obtain ⟨-, hrank⟩ := exists_strictOrder?_iff.mp ⟨o, h⟩
  rw [sortOrder]
  · rw [compare_eq_iff_eq.mpr hrank, h]
    rfl
  -- neither lists nor documents are scalars
  · rintro as bs rfl rfl
    cases h
  · rintro d e rfl rfl
    cases h

/-- Where two steps do not go down, the way over both is level only if each step
is. -/
theorem sortOrder_eq_iff_of_le {a b c : Value} (hab : a.sortOrder b ≠ .gt)
    (hbc : b.sortOrder c ≠ .gt) :
    a.sortOrder c = .eq ↔ a.sortOrder b = .eq ∧ b.sortOrder c = .eq := by
  constructor
  · intro hac
    have hswap : c.sortOrder a = (a.sortOrder c).swap := Std.OrientedCmp.eq_swap
    have hca : (c.sortOrder a).isLE := by
      rw [hswap, hac]
      rfl
    have hba : (b.sortOrder a).isLE :=
      Std.TransCmp.isLE_trans (Ordering.ne_gt_iff_isLE.mp hbc) hca
    have heq : a.sortOrder b = .eq :=
      Std.OrientedCmp.isLE_antisymm (Ordering.ne_gt_iff_isLE.mp hab) hba
    exact ⟨heq, (Std.TransCmp.congr_left heq).symm.trans hac⟩
  · rintro ⟨heq, hbc⟩
    exact (Std.TransCmp.congr_left heq).trans hbc

/-- The order of all values is a total preorder that extends the order of
scalars, so that to sort stably by values has one result. -/
theorem sortOrder_laws (a b c : Value) :
    a.sortOrder a = .eq
      ∧ b.sortOrder a = (a.sortOrder b).swap
      ∧ (a.sortOrder b ≠ .gt → b.sortOrder c ≠ .gt →
          a.sortOrder c ≠ .gt
            ∧ (a.sortOrder c = .eq ↔ a.sortOrder b = .eq ∧ b.sortOrder c = .eq))
      ∧ (∀ o, strictOrder? a b = some o → a.sortOrder b = o)
      ∧ ∀ {α : Type} (key : α → Value) (before : List α),
          ∃! after, StablySorted (fun x y => (key x).sortOrder (key y)) before after := by
  refine ⟨Std.ReflCmp.compare_self, Std.OrientedCmp.eq_swap, fun hab hbc => ⟨?_, ?_⟩,
    fun o => sortOrder_of_strictOrder?, fun key before => ?_⟩
  · exact Ordering.ne_gt_iff_isLE.mpr (Std.TransCmp.isLE_trans
      (Ordering.ne_gt_iff_isLE.mp hab) (Ordering.ne_gt_iff_isLE.mp hbc))
  · exact sortOrder_eq_iff_of_le hab hbc
  · exact ⟨_, stablySorted_stableSort before, fun _ h => h.unique (stablySorted_stableSort before)⟩

/-- An integer, the decimal of the same number and a list in ascending order;
the two numbers are level. -/
theorem sortOrder_two_list :
    let two : Value := .int 2
    let decimalTwo : Value := .decimal ⟨false, 200, 2, by decide, by decide⟩
    let list : Value := .list [decimalTwo, .null]
    strictOrder? two decimalTwo = some .eq ∧ two.sortOrder decimalTwo = .eq
      ∧ two.sortOrder decimalTwo ≠ .gt ∧ decimalTwo.sortOrder list ≠ .gt
      ∧ two.sortOrder list ≠ .gt ∧ two.sortOrder list ≠ .eq := by
  intro two decimalTwo list
  have hscalar : strictOrder? two decimalTwo = some .eq := by decide +kernel
  have hlist : decimalTwo.sortOrder list = .lt := by decide +kernel
  obtain ⟨-, -, htrans, hextends, -⟩ := sortOrder_laws two decimalTwo list
  have htwo : two.sortOrder decimalTwo = .eq := hextends .eq hscalar
  have hle : two.sortOrder decimalTwo ≠ .gt := by
    rw [htwo]
    decide
  have hle' : decimalTwo.sortOrder list ≠ .gt := by
    rw [hlist]
    decide
  obtain ⟨hover, heq⟩ := htrans hle hle'
  refine ⟨hscalar, htwo, hle, hle', hover, fun h => ?_⟩
  have := (heq.mp h).2
  rw [hlist] at this
  cases this

end Value

end RowQuery
