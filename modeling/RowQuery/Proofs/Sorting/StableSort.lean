/-!
# Stable sorting

`stableSort` puts a list into the order of a comparison and leaves elements
that the comparison does not tell apart in the order in which they were.

`StablySorted` says the same of two lists without an algorithm: the second is a
permutation of the first, it ascends, and the elements tied with any given one
stand in it as they stand in the first. The comparison has to be a total
preorder (`Std.TransCmp`); then there is exactly one such list
(`stablySorted_iff`).

To sort by two comparisons, the first one deciding, is to sort by the second
and then by the first (`StablySorted.lex`). Elements can be left out before or
after sorting (`filter_stableSort`).
-/

namespace RowQuery

variable {α : Type}

/-- The elements of a list that a comparison does not tell from a given one. -/
def tiedWith (cmp : α → α → Ordering) (a : α) (l : List α) : List α :=
  l.filter fun b => cmp a b == .eq

/-- The second list is the first one, stably sorted. -/
structure StablySorted (cmp : α → α → Ordering) (before after : List α) : Prop where
  perm : after.Perm before
  ascending : after.Pairwise fun a b => (cmp a b).isLE
  /-- Ties keep their order. -/
  ties : ∀ a, tiedWith cmp a after = tiedWith cmp a before

/-- A list in the order of a comparison, ties as they were. -/
def stableSort (cmp : α → α → Ordering) (l : List α) : List α :=
  l.mergeSort fun a b => (cmp a b).isLE

/-! ## Ties -/

theorem mem_tiedWith {cmp : α → α → Ordering} {a b : α} {l : List α} :
    b ∈ tiedWith cmp a l ↔ b ∈ l ∧ cmp a b = .eq := by
  simp [tiedWith, List.mem_filter]

theorem tiedWith_sublist (cmp : α → α → Ordering) (a : α) (l : List α) :
    (tiedWith cmp a l).Sublist l :=
  List.filter_sublist

/-- What is tied under two comparisons is what is tied under the second among
what is tied under the first. -/
theorem tiedWith_compareLex (first second : α → α → Ordering) (a : α) (l : List α) :
    tiedWith (compareLex first second) a l
      = tiedWith second a (tiedWith first a l) := by
  simp only [tiedWith, List.filter_filter]
  apply List.filter_congr
  intro b _
  simp only [compareLex]
  cases first a b <;> cases second a b <;> rfl

theorem tiedWith_comm (first second : α → α → Ordering) (a : α) (l : List α) :
    tiedWith first a (tiedWith second a l) = tiedWith second a (tiedWith first a l) := by
  simp only [tiedWith, List.filter_filter, Bool.and_comm]

theorem tiedWith_filter (cmp : α → α → Ordering) (a : α) (test : α → Bool) (l : List α) :
    tiedWith cmp a (l.filter test) = (tiedWith cmp a l).filter test := by
  simp only [tiedWith, List.filter_filter, Bool.and_comm]

/-- What passes a test stays stably sorted. -/
theorem StablySorted.filter {cmp : α → α → Ordering} {before after : List α}
    (h : StablySorted cmp before after) (test : α → Bool) :
    StablySorted cmp (before.filter test) (after.filter test) := by
  refine ⟨h.perm.filter test, h.ascending.filter test, ?_⟩
  intro a
  rw [tiedWith_filter, tiedWith_filter, h.ties a]

section Preorder

variable {cmp : α → α → Ordering} [Std.TransCmp cmp]

/-- Elements that are tied with one element are tied with each other. -/
theorem pairwise_tiedWith (a : α) (l : List α) :
    (tiedWith cmp a l).Pairwise fun b c => (cmp b c).isLE := by
  apply List.pairwise_of_forall_mem_list
  intro b hb c hc
  have hab : cmp a b = .eq := (mem_tiedWith.mp hb).2
  have hac : cmp a c = .eq := (mem_tiedWith.mp hc).2
  rw [← Std.TransCmp.congr_left hab, hac]
  rfl

/-! ## There is one stably sorted list -/

/-- Two ascending lists with the same ties are the same list: their heads are
tied, so both are the first element of one list of ties. -/
theorem eq_of_ascending_of_ties : ∀ {l₁ l₂ : List α},
    (l₁.Pairwise fun a b => (cmp a b).isLE) → (l₂.Pairwise fun a b => (cmp a b).isLE) →
      (∀ a, tiedWith cmp a l₁ = tiedWith cmp a l₂) → l₁ = l₂
  | [], [], _, _, _ => rfl
  | [], b :: l₂, _, _, hties => by
      have hb : b ∈ tiedWith cmp b (b :: l₂) :=
        mem_tiedWith.mpr ⟨List.mem_cons_self .., Std.ReflCmp.compare_self⟩
      rw [← hties b] at hb
      cases hb
  | a :: l₁, [], _, _, hties => by
      have ha : a ∈ tiedWith cmp a (a :: l₁) :=
        mem_tiedWith.mpr ⟨List.mem_cons_self .., Std.ReflCmp.compare_self⟩
      rw [hties a] at ha
      cases ha
  | a :: l₁, b :: l₂, hasc₁, hasc₂, hties => by
      have hle : ∀ {x y : α} {l l' : List α},
          ((x :: l).Pairwise fun a b => (cmp a b).isLE) →
          tiedWith cmp y (x :: l) = tiedWith cmp y (y :: l') → (cmp x y).isLE := by
        intro x y l l' hasc heq
        have hy : y ∈ tiedWith cmp y (y :: l') :=
          mem_tiedWith.mpr ⟨List.mem_cons_self .., Std.ReflCmp.compare_self⟩
        rw [← heq] at hy
        rcases List.mem_cons.mp (mem_tiedWith.mp hy).1 with rfl | hmem
        · have hself : cmp y y = .eq := Std.ReflCmp.compare_self
          rw [hself]
          rfl
        · exact List.rel_of_pairwise_cons hasc hmem
      have hab : cmp a b = .eq :=
        Std.OrientedCmp.isLE_antisymm (hle hasc₁ (hties b)) (hle hasc₂ (hties a).symm)
      have hself : cmp a a = .eq := Std.ReflCmp.compare_self
      have hheads := hties a
      simp only [tiedWith, List.filter_cons, hself, hab, beq_self_eq_true, if_true,
        List.cons.injEq] at hheads
      obtain ⟨rfl, -⟩ := hheads
      have htails : ∀ c, tiedWith cmp c l₁ = tiedWith cmp c l₂ := by
        intro c
        have hc := hties c
        simp only [tiedWith, List.filter_cons] at hc ⊢
        split at hc
        · exact List.cons.inj hc |>.2
        · exact hc
      rw [eq_of_ascending_of_ties hasc₁.of_cons hasc₂.of_cons htails]

theorem StablySorted.unique {l l₁ l₂ : List α} (h₁ : StablySorted cmp l l₁)
    (h₂ : StablySorted cmp l l₂) : l₁ = l₂ :=
  eq_of_ascending_of_ties h₁.ascending h₂.ascending
    (fun a => (h₁.ties a).trans (h₂.ties a).symm)

/-- `stableSort` does what its name says: the ties of an element are an
ascending sublist, which sorting leaves in place. -/
theorem stablySorted_stableSort (l : List α) : StablySorted cmp l (stableSort cmp l) := by
  have htrans : ∀ a b c : α, (cmp a b).isLE → (cmp b c).isLE → (cmp a c).isLE :=
    fun _ _ _ => Std.TransCmp.isLE_trans
  have htotal : ∀ a b : α, (cmp a b).isLE || (cmp b a).isLE := by
    intro a b
    have hswap : cmp b a = (cmp a b).swap := Std.OrientedCmp.eq_swap
    rw [hswap]
    cases cmp a b <;> rfl
  have hperm : (stableSort cmp l).Perm l := List.mergeSort_perm l _
  refine ⟨hperm, List.pairwise_mergeSort htrans htotal l, fun a => ?_⟩
  have hsub : (tiedWith cmp a l).Sublist (tiedWith cmp a (stableSort cmp l)) := by
    have hstays : (tiedWith cmp a l).Sublist (stableSort cmp l) :=
      List.sublist_mergeSort htrans htotal (pairwise_tiedWith a l) (tiedWith_sublist cmp a l)
    have := hstays.filter fun b => cmp a b == .eq
    simpa only [tiedWith, List.filter_filter, Bool.and_self] using this
  exact (hsub.eq_of_length (hperm.filter _).length_eq.symm).symm

theorem stablySorted_iff {l l' : List α} :
    StablySorted cmp l l' ↔ l' = stableSort cmp l := by
  constructor
  · exact fun h => h.unique (stablySorted_stableSort l)
  · rintro rfl
    exact stablySorted_stableSort l

/-- It makes no difference whether elements are left out before sorting or
after it. -/
theorem filter_stableSort (test : α → Bool) (l : List α) :
    (stableSort cmp l).filter test = stableSort cmp (l.filter test) :=
  stablySorted_iff.mp ((stablySorted_stableSort l).filter test)

end Preorder

/-! ## Sorting by two comparisons -/

/-- Sorting by `second` and then by `first` sorts by both, `first` deciding:
where `first` ties two elements, the second sort has kept what the first sort
did with them. -/
theorem StablySorted.lex {first second : α → α → Ordering} [Std.TransCmp first]
    {l m n : List α} (h₂ : StablySorted second l m) (h₁ : StablySorted first m n) :
    StablySorted (compareLex first second) l n := by
  refine ⟨h₁.perm.trans h₂.perm, ?_, fun a => ?_⟩
  · rw [List.pairwise_iff_forall_sublist]
    intro a b hab
    have hfirst : (first a b).isLE := List.pairwise_iff_forall_sublist.mp h₁.ascending hab
    rw [compareLex, Ordering.isLE_then_iff_and]
    refine ⟨hfirst, ?_⟩
    rcases Ordering.isLE_iff_eq_lt_or_eq_eq.mp hfirst with hlt | heq
    · exact Or.inl hlt
    · have htied : [a, b].Sublist (tiedWith first a m) := by
        have hself : first a a = .eq := Std.ReflCmp.compare_self
        have := hab.filter fun c => first a c == .eq
        simp only [List.filter_cons, hself, heq, beq_self_eq_true, if_true,
          List.filter_nil] at this
        rw [← h₁.ties a]
        exact this
      exact Or.inr (List.pairwise_iff_forall_sublist.mp h₂.ascending
        (htied.trans (tiedWith_sublist first a m)))
  · rw [tiedWith_compareLex, h₁.ties a, tiedWith_comm, h₂.ties a, tiedWith_comm,
      tiedWith_compareLex]

end RowQuery
