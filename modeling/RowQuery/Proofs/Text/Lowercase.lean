import RowQuery.Schema.KeyMatching

/-!
# Small letters and the case of ASCII letters

Texts that differ only in the case of ASCII letters have the same small letters.
What `lowercase` asks of a character, its small letter and whether it ends a
word, it asks alike of an ASCII letter and of its small one, so the letters
around a capital sigma do not change either (`lowercaseAfter_toLower`).
-/

namespace RowQuery

/-- Nothing that is asked of a character depends on the case of an ASCII letter. -/
structure SameLetter (a b : Char) : Prop where
  small : lowerChar a = lowerChar b
  cased : isCased a = isCased b
  transparent : isTransparent a = isTransparent b
  sigma : a.toNat = 0x3A3 ↔ b.toNat = 0x3A3

instance (a b : Char) : Decidable (SameLetter a b) :=
  decidable_of_iff (lowerChar a = lowerChar b ∧ isCased a = isCased b
      ∧ isTransparent a = isTransparent b ∧ (a.toNat = 0x3A3 ↔ b.toNat = 0x3A3))
    ⟨fun ⟨h₁, h₂, h₃, h₄⟩ => ⟨h₁, h₂, h₃, h₄⟩, fun ⟨h₁, h₂, h₃, h₄⟩ => ⟨h₁, h₂, h₃, h₄⟩⟩

theorem toLower_of_le {c : Char} (h : 128 ≤ c.toNat) : c.toLower = c := by
  have hbig : ¬c.val ≤ 'Z'.val := by
    rw [UInt32.le_iff_toNat_le]
    exact Nat.not_le.mpr (Nat.lt_of_lt_of_le (by decide) h)
  exact dif_neg fun hupper => hbig hupper.2

theorem sameLetter_toLower (c : Char) : SameLetter c.toLower c := by
  by_cases hascii : c.toNat < 128
  · have hall : ∀ n < 128, SameLetter (Char.ofNat n).toLower (Char.ofNat n) := by decide
    have hc := hall c.toNat hascii
    rw [Char.ofNat_toNat] at hc
    exact hc
  · rw [toLower_of_le (Nat.le_of_not_lt hascii)]
    exact ⟨rfl, rfl, rfl, Iff.rfl⟩

theorem startsCased_toLower (cs : List Char) :
    startsCased (cs.map Char.toLower) = startsCased cs := by
  induction cs with
  | nil => rfl
  | cons c rest ih =>
      have hc := sameLetter_toLower c
      rw [startsCased, startsCased, List.map_cons, List.find?_cons, List.find?_cons,
        hc.transparent]
      cases isTransparent c with
      | true => exact ih
      | false => exact hc.cased

theorem lowercaseAfter_toLower (afterCased : Bool) (cs : List Char) :
    lowercaseAfter afterCased (cs.map Char.toLower) = lowercaseAfter afterCased cs := by
  induction cs generalizing afterCased with
  | nil => rfl
  | cons c rest ih =>
      have hc := sameLetter_toLower c
      simp only [List.map_cons, lowercaseAfter, hc.sigma, hc.small, hc.cased, hc.transparent,
        startsCased_toLower, ih]

theorem lowercase_congr {s t : String} (h : s.toList.map Char.toLower = t.toList.map Char.toLower) :
    lowercase s = lowercase t := by
  rw [lowercase, lowercase, ← lowercaseAfter_toLower false s.toList, h, lowercaseAfter_toLower]

end RowQuery
