import RowQuery.Proofs.Text.Lowercase
import RowQuery.Proofs.Text.Matching

/-!
# What a pattern means

A pattern matches a text that can be cut into pieces, one after the other, such
that each character of the pattern, or the escape that it starts, takes its
piece. `Pattern.Cuts` lists the pieces of a pattern, and speaks of characters
alone: how a pattern is split into tokens, and how its tokens are matched, is not
part of what it means.
-/

namespace RowQuery

namespace Pattern

/-! ## Letters -/

/-- Two characters that differ at most in the case of an ASCII letter. -/
inductive EqualButCase : Char → Char → Prop
  | same (c : Char) : EqualButCase c c
  | small {a b : Char} (hcapital : a.isUpper = true) (h : b.toNat = a.toNat + 32) :
      EqualButCase a b
  | capital {a b : Char} (hcapital : b.isUpper = true) (h : a.toNat = b.toNat + 32) :
      EqualButCase a b

theorem isUpper_iff {c : Char} : c.isUpper = true ↔ 65 ≤ c.toNat ∧ c.toNat ≤ 90 := by
  have hrange : c.isUpper = decide (c.val ≥ 65 ∧ c.val ≤ 90) := rfl
  rw [hrange, decide_eq_true_eq, ge_iff_le, UInt32.le_iff_toNat_le, UInt32.le_iff_toNat_le]
  rfl

theorem toNat_toLower (c : Char) :
    c.toLower.toNat = if c.isUpper then c.toNat + 32 else c.toNat := by
  by_cases hascii : c.toNat < 128
  · have hall : ∀ n < 128, (Char.ofNat n).toLower.toNat
        = if (Char.ofNat n).isUpper then (Char.ofNat n).toNat + 32 else (Char.ofNat n).toNat := by
      decide
    have hc := hall c.toNat hascii
    rwa [Char.ofNat_toNat] at hc
  · have hsmall : ¬c.isUpper = true := by
      rw [isUpper_iff]
      omega
    rw [toLower_of_le (Nat.le_of_not_lt hascii), if_neg hsmall]

theorem sameLetter_iff {a b : Char} : sameLetter a b = true ↔ EqualButCase a b := by
  have hcodes : sameLetter a b = true ↔ a.toLower.toNat = b.toLower.toNat := by
    rw [sameLetter, beq_iff_eq, Char.toNat_inj]
  rw [hcodes, toNat_toLower, toNat_toLower]
  constructor
  · intro h
    split at h <;> split at h
    · rw [Char.toNat_inj.mp (Nat.add_right_cancel h)]
      exact .same b
    · next hcapital _ => exact .small hcapital h.symm
    · next _ hcapital => exact .capital hcapital h
    · rw [Char.toNat_inj.mp h]
      exact .same b
  · rintro (_ | ⟨hcapital, h⟩ | ⟨hcapital, h⟩)
    · rfl
    · have hsmall : ¬b.isUpper = true := by
        rw [isUpper_iff] at hcapital ⊢
        omega
      rw [if_pos hcapital, if_neg hsmall, h]
    · have hsmall : ¬a.isUpper = true := by
        rw [isUpper_iff] at hcapital ⊢
        omega
      rw [if_neg hsmall, if_pos hcapital, h]

/-! ## Pieces -/

/-- The pieces of a text that a pattern takes, one for each wildcard, escape or
other character of it. -/
inductive Cuts : List Char → List (List Char) → Prop
  | done : Cuts [] []
  /-- Any run of characters, also none. -/
  | run {pattern : List Char} {pieces : List (List Char)} (piece : List Char)
      (hrest : Cuts pattern pieces) : Cuts ('%' :: pattern) (piece :: pieces)
  /-- Any one character. -/
  | one {pattern : List Char} {pieces : List (List Char)} (c : Char)
      (hrest : Cuts pattern pieces) : Cuts ('_' :: pattern) ([c] :: pieces)
  /-- The character behind a backslash, whichever it is. -/
  | escaped {pattern : List Char} {pieces : List (List Char)} {a c : Char}
      (hletter : EqualButCase a c) (hrest : Cuts pattern pieces) :
      Cuts ('\\' :: a :: pattern) ([c] :: pieces)
  /-- A backslash with nothing behind it. -/
  | backslash : Cuts ['\\'] [['\\']]
  /-- Any other character. -/
  | plain {pattern : List Char} {pieces : List (List Char)} {a c : Char}
      (hplain : a ≠ '%' ∧ a ≠ '_' ∧ a ≠ '\\') (hletter : EqualButCase a c)
      (hrest : Cuts pattern pieces) : Cuts (a :: pattern) ([c] :: pieces)

theorem equalButCase_backslash {c : Char} : EqualButCase '\\' c ↔ c = '\\' := by
  constructor
  · rintro (_ | ⟨hcapital, -⟩ | ⟨hcapital, h⟩)
    · rfl
    · exact absurd hcapital (by decide)
    · rw [isUpper_iff] at hcapital
      have hcode : '\\'.toNat = 92 := rfl
      omega
  · rintro rfl
    exact .same _

theorem readTokens_cons {a : Char} {pattern : List Char} (h : a ≠ '\\' ∨ pattern = []) :
    readTokens (a :: pattern)
      = (if a = '%' then .run else if a = '_' then .one else .char a) :: readTokens pattern := by
  refine readTokens.eq_3 a pattern ?_
  rintro c rest rfl rfl
  simp at h

/-- The tokens of a pattern match a text that is cut into its pieces. -/
theorem Cuts.matches_flatten {pattern : List Char} {pieces : List (List Char)}
    (h : Cuts pattern pieces) : Matches (readTokens pattern) pieces.flatten := by
  induction h with
  | done => rfl
  | run piece hrest ih =>
      rw [readTokens_cons (by simp), List.flatten_cons]
      exact ih.run
  | one c hrest ih =>
      rw [readTokens_cons (by simp), List.flatten_cons]
      exact ⟨c, _, rfl, ih⟩
  | escaped hletter hrest ih =>
      rw [readTokens, List.flatten_cons]
      exact ⟨_, _, rfl, sameLetter_iff.mpr hletter, ih⟩
  | backslash =>
      rw [readTokens_cons (by simp), List.flatten_cons]
      exact ⟨_, _, rfl, sameLetter_iff.mpr (.same _), rfl⟩
  | plain hplain hletter hrest ih =>
      rw [readTokens_cons (.inl hplain.2.2), if_neg hplain.1, if_neg hplain.2.1,
        List.flatten_cons]
      exact ⟨_, _, rfl, sameLetter_iff.mpr hletter, ih⟩

/-- A text that the tokens of a pattern match can be cut into its pieces. -/
theorem exists_cuts_of_matches {pattern text : List Char}
    (h : Matches (readTokens pattern) text) :
    ∃ pieces, Cuts pattern pieces ∧ text = pieces.flatten := by
  induction pattern using readTokens.induct generalizing text with
  | case1 => exact ⟨[], .done, h⟩
  | case2 a rest ih =>
      rw [readTokens] at h
      obtain ⟨c, after, rfl, hletter, hafter⟩ := h
      obtain ⟨pieces, hpieces, rfl⟩ := ih hafter
      exact ⟨[c] :: pieces, .escaped (sameLetter_iff.mp hletter) hpieces, rfl⟩
  | case3 a rest hescape ih =>
      have hlast : a ≠ '\\' ∨ rest = [] := by
        cases rest with
        | nil => exact .inr rfl
        | cons c more => exact .inl fun ha => hescape c more ha rfl
      rw [readTokens_cons hlast] at h
      split at h
      · next hrun =>
          obtain ⟨piece, after, rfl, hafter⟩ := h
          obtain ⟨pieces, hpieces, rfl⟩ := ih hafter
          exact ⟨piece :: pieces, hrun ▸ .run piece hpieces, rfl⟩
      · next hrun =>
          split at h
          · next hone =>
              obtain ⟨c, after, rfl, hafter⟩ := h
              obtain ⟨pieces, hpieces, rfl⟩ := ih hafter
              exact ⟨[c] :: pieces, hone ▸ .one c hpieces, rfl⟩
          · next hone =>
              obtain ⟨c, after, rfl, hletter, hafter⟩ := h
              obtain ⟨pieces, hpieces, rfl⟩ := ih hafter
              rw [sameLetter_iff] at hletter
              by_cases hbackslash : a = '\\'
              · subst hbackslash
                obtain rfl := hlast.resolve_left fun hne => hne rfl
                obtain rfl := equalButCase_backslash.mp hletter
                cases hpieces
                exact ⟨_, .backslash, rfl⟩
              · exact ⟨[c] :: pieces, .plain ⟨hrun, hone, hbackslash⟩ hletter hpieces, rfl⟩

/-- A pattern matches a text if and only if the text can be cut into the pieces of
the pattern. -/
theorem matches?_iff_cuts (pattern text : String) :
    matches? pattern text = true
      ↔ ∃ pieces, Cuts pattern.toList pieces ∧ text.toList = pieces.flatten := by
  rw [matches?, run_eq_true_iff, tokens, matches_joinRuns]
  constructor
  · exact exists_cuts_of_matches
  · rintro ⟨pieces, hpieces, htext⟩
    rw [htext]
    exact hpieces.matches_flatten

/-- The first run has to eat a character more than the nearest `a` asks for. -/
example : matches? "%aA_\\%" "xaaaz%" = true := by decide

end Pattern

end RowQuery
