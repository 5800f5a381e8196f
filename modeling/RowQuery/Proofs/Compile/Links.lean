import Mathlib.Data.List.Forall2
import RowQuery.Compile.Order
import RowQuery.Proofs.Fault.Success

/-!
# Resolving links

The links of an order resolve if the table has the key of each, and they fail
with the first key that it does not have.
-/

namespace RowQuery

/-- A fault at the first of some links whose key is unknown. -/
def OrderLink.FirstFault (table : FieldTable) (links : List OrderLink) (fault : QueryFault) :
    Prop :=
  ∃ before link after, links = before ++ link :: after
    ∧ (∀ l ∈ before, ∃ field, table.get? l.key = some field)
    ∧ table.get? link.key = none ∧ fault = .unknownKey link.key

namespace OrderLink

variable {table : FieldTable}

theorem resolve_eq_error_iff {link : OrderLink} {fault : QueryFault} :
    link.resolve table = .error fault
      ↔ table.get? link.key = none ∧ fault = .unknownKey link.key := by
  rw [resolve, Except.map_eq_error, FieldTable.lookup]
  cases table.get? link.key with
  | none => simp [eq_comm]
  | some field => simp

theorem exists_resolve_iff {link : OrderLink} :
    (∃ resolved, link.resolve table = .ok resolved)
      ↔ ∃ field, table.get? link.key = some field := by
  rw [resolve, Except.exists_map_eq_ok, FieldTable.lookup]
  cases table.get? link.key with
  | none => simp
  | some field => simp

/-- Links fail with their first fault. -/
theorem resolveAll_eq_error_iff {links : List OrderLink} {fault : QueryFault} :
    resolveAll table links = .error fault ↔ FirstFault table links fault := by
  induction links with
  | nil =>
      constructor
      · intro h
        cases h
      · rintro ⟨before, link, after, hlinks, -⟩
        simp at hlinks
  | cons first rest ih =>
      rw [resolveAll, Except.bind_eq_error]
      constructor
      · rintro (hfirst | ⟨resolved, hresolved, hrest⟩)
        · exact ⟨[], first, rest, rfl, fun l hl => (List.not_mem_nil hl).elim,
            resolve_eq_error_iff.mp hfirst⟩
        · have hothers : resolveAll table rest = .error fault := by
            rcases Except.bind_eq_error.mp hrest with hothers | ⟨others, -, hreturn⟩
            · exact hothers
            · cases hreturn
          obtain ⟨before, link, after, rfl, hbefore, hlink⟩ := ih.mp hothers
          have hfield := exists_resolve_iff.mp ⟨resolved, hresolved⟩
          exact ⟨first :: before, link, after, rfl, List.forall_mem_cons.mpr ⟨hfield, hbefore⟩,
            hlink⟩
      · rintro ⟨before, link, after, hlinks, hbefore, hlink⟩
        cases before with
        | nil =>
            obtain ⟨rfl, rfl⟩ := List.cons.inj hlinks
            exact .inl (resolve_eq_error_iff.mpr hlink)
        | cons head before =>
            obtain ⟨rfl, rfl⟩ := List.cons.inj hlinks
            obtain ⟨hfirst, hbefore⟩ := List.forall_mem_cons.mp hbefore
            obtain ⟨resolved, hresolved⟩ := exists_resolve_iff.mpr hfirst
            have hothers := ih.mpr ⟨before, link, after, rfl, hbefore, hlink⟩
            exact .inr ⟨resolved, hresolved, Except.bind_eq_error.mpr (.inl hothers)⟩

/-- Links resolve if their keys are known. -/
theorem exists_resolveAll {links : List OrderLink}
    (h : ∀ link ∈ links, ∃ field, table.get? link.key = some field) :
    ∃ resolved, resolveAll table links = .ok resolved := by
  cases hresolved : resolveAll table links with
  | ok resolved => exact ⟨resolved, rfl⟩
  | error fault =>
      obtain ⟨before, link, after, rfl, -, hkey, -⟩ := resolveAll_eq_error_iff.mp hresolved
      obtain ⟨field, hfield⟩ := h link List.mem_append_cons_self
      rw [hkey] at hfield
      cases hfield

/-- Links resolve one by one. -/
theorem resolveAll_eq_ok_iff {links : List OrderLink} {resolved : List ResolvedLink} :
    resolveAll table links = .ok resolved
      ↔ List.Forall₂ (fun link r => link.resolve table = .ok r) links resolved := by
  induction links generalizing resolved with
  | nil =>
      rw [resolveAll, List.forall₂_nil_left_iff]
      exact ⟨fun h => (Except.ok.inj h).symm, fun h => h ▸ rfl⟩
  | cons link rest ih =>
      rw [resolveAll, Except.bind_eq_ok, List.forall₂_cons_left_iff]
      constructor
      · rintro ⟨r, hr, hrest⟩
        obtain ⟨others, hothers, hreturn⟩ := Except.bind_eq_ok.mp hrest
        exact ⟨r, others, hr, ih.mp hothers, (Except.ok.inj hreturn).symm⟩
      · rintro ⟨r, others, hr, hothers, rfl⟩
        exact ⟨r, hr, Except.bind_eq_ok.mpr ⟨others, ih.mpr hothers, rfl⟩⟩

theorem resolveAll_append (table : FieldTable) (as bs : List OrderLink) :
    resolveAll table (as ++ bs) = (do
      let resolved ← resolveAll table as
      let others ← resolveAll table bs
      return resolved ++ others) := by
  induction as with
  | nil =>
      show resolveAll table bs = (do return [] ++ (← resolveAll table bs))
      cases resolveAll table bs <;> rfl
  | cons link rest ih =>
      rw [List.cons_append, resolveAll, resolveAll, ih]
      cases link.resolve table with
      | error fault => rfl
      | ok resolved =>
          cases resolveAll table rest with
          | error fault => rfl
          | ok others => cases resolveAll table bs <;> rfl

end OrderLink

namespace Order

/-- An order resolves as the list of its links does. -/
theorem resolve_eq (table : FieldTable) (order : Order) :
    (order.resolve table).map ResolvedOrder.links = OrderLink.resolveAll table order.links := by
  rw [resolve, links, OrderLink.resolveAll]
  cases order.first.resolve table with
  | error e => rfl
  | ok primary => cases OrderLink.resolveAll table order.later <;> rfl

/-- An order resolves link by link. -/
theorem resolve_eq_ok_iff {table : FieldTable} {order : Order} {resolved : ResolvedOrder} :
    order.resolve table = .ok resolved
      ↔ List.Forall₂ (fun link r => link.resolve table = .ok r) order.links resolved.links := by
  rw [← OrderLink.resolveAll_eq_ok_iff, ← resolve_eq, Except.map_eq_ok]
  constructor
  · exact fun h => ⟨resolved, h, rfl⟩
  · rintro ⟨⟨primary, later⟩, hother, hlinks⟩
    obtain ⟨rfl, rfl⟩ := List.cons.inj hlinks
    exact hother

theorem resolve_eq_error_iff {table : FieldTable} {order : Order} {fault : QueryFault} :
    order.resolve table = .error fault ↔ OrderLink.FirstFault table order.links fault := by
  rw [← OrderLink.resolveAll_eq_error_iff, ← resolve_eq, Except.map_eq_error]

end Order

end RowQuery
