import RowQuery.Json.Parser

/-!
# Objects in key order

Every object that is read from a text lists its entries in the order of their
keys, and no key twice: an entry is put in its place among those before it, and
replaces the one with its key. Key order passes to the parts of a document.
-/

namespace RowQuery

/-- Texts compare as their bytes do, one after the other. -/
instance : Std.TransCmp compareText :=
  inferInstanceAs (Std.TransCmp (compareOn textBytes))

namespace Json

variable {key : String} {document : Json} {entries rest : List (String × Json)} {items : List Json}

/-! ## Parts -/

/-- A key does not stand again behind its entry. -/
theorem SortedEntries.findKey_rest (h : SortedEntries ((key, document) :: rest)) :
    findKey key rest = none := by
  obtain ⟨hless, -, -⟩ := h
  induction rest with
  | nil => rfl
  | cons entry rest ih =>
      have hne : entry.1 ≠ key := by
        intro heq
        have hlt := hless entry (List.mem_cons_self ..)
        have heq : compareText key entry.1 = .eq := heq ▸ Std.ReflCmp.compare_self
        rw [heq] at hlt
        cases hlt
      rw [findKey, if_neg hne]
      exact ih fun e he => hless e (List.mem_cons_of_mem _ he)

theorem SortedEntries.sortedKeys_of_findKey (h : SortedEntries entries)
    (hkey : findKey key entries = some document) : document.SortedKeys := by
  induction entries with
  | nil => cases hkey
  | cons entry rest ih =>
      obtain ⟨-, hentry, hrest⟩ := h
      rw [findKey] at hkey
      split at hkey
      · exact Option.some.inj hkey ▸ hentry
      · exact ih hrest hkey

theorem sortedItems_iff : SortedItems items ↔ ∀ item ∈ items, item.SortedKeys := by
  induction items with
  | nil => simp [SortedItems]
  | cons item rest ih => rw [SortedItems, ih, List.forall_mem_cons]

/-! ## Reading -/

/-- What holds of an entry and of all that are there holds after it is put in. -/
theorem forall_insertSorted {α : Type} {P : String × α → Prop} {value : α}
    {entries : List (String × α)} (hentry : P (key, value)) (hentries : ∀ e ∈ entries, P e) :
    ∀ e ∈ insertSorted key value entries, P e := by
  induction entries with
  | nil => exact List.forall_mem_singleton.mpr hentry
  | cons first rest ih =>
      obtain ⟨k, v⟩ := first
      obtain ⟨hfirst, hrest⟩ := List.forall_mem_cons.mp hentries
      rw [insertSorted]
      split
      · exact List.forall_mem_cons.mpr ⟨hentry, hentries⟩
      · exact List.forall_mem_cons.mpr ⟨hentry, hrest⟩
      · exact List.forall_mem_cons.mpr ⟨hfirst, ih hrest⟩

theorem SortedEntries.insertSorted (h : SortedEntries entries) (hdocument : document.SortedKeys) :
    SortedEntries (insertSorted key document entries) := by
  induction entries with
  | nil => exact ⟨fun entry hentry => (List.not_mem_nil hentry).elim, hdocument, trivial⟩
  | cons first rest ih =>
      obtain ⟨k, v⟩ := first
      obtain ⟨hless, hfirst, hrest⟩ := h
      rw [RowQuery.insertSorted]
      split
      · next hlt =>
          refine ⟨List.forall_mem_cons.mpr ⟨hlt, fun entry hentry => ?_⟩, hdocument,
            hless, hfirst, hrest⟩
          exact Std.TransCmp.lt_trans hlt (hless entry hentry)
      · next heq =>
          refine ⟨fun entry hentry => ?_, hdocument, hrest⟩
          exact Std.TransCmp.lt_of_eq_of_lt heq (hless entry hentry)
      · next hgt =>
          exact ⟨forall_insertSorted (Std.OrientedCmp.lt_of_gt hgt) hless, hfirst, ih hrest⟩

/-- A reader gives documents in key order. -/
def Reader.Sorted (value : Reader) : Prop :=
  ∀ cs document rest, value cs = some (document, rest) → document.SortedKeys

theorem sortedKeys_of_items? {value : Reader} (hvalue : value.Sorted) {steps : Nat}
    {done : List Json} {cs rest : List Char} (hdone : ∀ item ∈ done, item.SortedKeys)
    (h : items? value steps done cs = some (document, rest)) : document.SortedKeys := by
  induction steps generalizing done cs with
  | zero => cases h
  | succ steps ih =>
      rw [items?] at h
      split at h
      · cases h
      · next item after hitem =>
          have hall : ∀ i ∈ item :: done, i.SortedKeys :=
            List.forall_mem_cons.mpr ⟨hvalue _ _ _ hitem, hdone⟩
          split at h
          · exact ih hall h
          · cases h
            exact sortedItems_iff.mpr fun i hi => hall i (List.mem_reverse.mp hi)
          · cases h

theorem sortedKeys_of_entries? {value : Reader} (hvalue : value.Sorted) {steps : Nat}
    {done : List (String × Json)} {cs rest : List Char} (hdone : SortedEntries done)
    (h : entries? value steps done cs = some (document, rest)) : document.SortedKeys := by
  induction steps generalizing done cs with
  | zero => cases h
  | succ steps ih =>
      rw [entries?] at h
      split at h
      · split at h
        · cases h
        · next key after _ =>
          split at h
          · split at h
            · cases h
            · next item after hitem =>
                have hall : SortedEntries (insertSorted key item done) :=
                  hdone.insertSorted (hvalue _ _ _ hitem)
                dsimp only at h
                split at h
                · exact ih hall h
                · cases h
                  exact hall
                · cases h
          · cases h
      · cases h

theorem sorted_scalar? : Reader.Sorted scalar? := by
  intro cs document rest h
  unfold scalar? at h
  split at h <;> obtain ⟨_, -, ⟨⟩⟩ := Option.map_eq_some_iff.mp h <;> trivial

theorem sorted_value? : ∀ nesting, Reader.Sorted (value? nesting)
  | 0, cs, document, rest, h => by
      rw [value?] at h
      split at h
      · cases h
      · cases h
      · exact sorted_scalar? _ _ _ h
  | nesting + 1, cs, document, rest, h => by
      rw [value?] at h
      split at h
      · split at h
        · cases h
          trivial
        · exact sortedKeys_of_items? (sorted_value? nesting) (List.forall_mem_nil _) h
      · split at h
        · cases h
          trivial
        · exact sortedKeys_of_entries? (sorted_value? nesting) (by trivial) h
      · exact sorted_scalar? _ _ _ h

/-- A document that is read from a text has all its objects in key order. -/
theorem sortedKeys_of_parse? {text : String} (h : parse? text = some document) :
    document.SortedKeys := by
  rw [parse?] at h
  split at h
  · next read rest hread =>
      split at h
      · cases h
        exact sorted_value? _ _ _ _ hread
      · cases h
  · cases h

end Json

end RowQuery
