import RowQuery.Json.Parser
import RowQuery.Json.Printer
import RowQuery.Proofs.Json.NumberLayout

/-!
# Documents are told apart by their texts

Two documents with one text are one document (`Json.text_injective`), down to the
sign of every zero and the order in which entries are kept.

A document can be read off any text that begins with its own, if the next
character is one that may follow a value (`SelfDelimiting`). The first character
tells its kind; strings are read back by the reader itself, numbers by their
parts, and arrays and objects by induction, piece after piece.
-/

namespace RowQuery

namespace Json

/-! ## Strings -/

theorem readHex?_hexDigit :
    ∀ n < 32, readHex? ['0', '0', hexDigit (n / 16), hexDigit n] = some n := by
  decide

/-- A character below the blank is read back from its code. -/
theorem unicodeEscape?_hexDigit {c : Char} (h : c.toNat < 32) (rest : List Char) :
    unicodeEscape? ('0' :: '0' :: hexDigit (c.toNat / 16) :: hexDigit c.toNat :: rest)
      = some (c, rest) := by
  have hlow : ¬(0xDC00 ≤ c.toNat ∧ c.toNat ≤ 0xDFFF) := by omega
  have hhigh : ¬(0xD800 ≤ c.toNat ∧ c.toNat ≤ 0xDBFF) := by omega
  rw [unicodeEscape?, hexFour?, readHex?_hexDigit _ h, Option.map_some, Option.bind_eq_bind,
    Option.bind_some]
  dsimp only
  rw [if_neg hlow, if_neg hhigh, Char.ofNat_toNat]

/-- One step of the reader takes what was written for one character. -/
theorem stringRest?_escapeChar (steps : Nat) (done : List Char) (c : Char) (rest : List Char) :
    stringRest? (steps + 1) done (escapeChar c ++ rest) = stringRest? steps (c :: done) rest := by
  have hcode : ∀ n, c.toNat = n → Char.ofNat n = c := by
    rintro n rfl
    exact Char.ofNat_toNat c
  rw [escapeChar]
  split
  · next h => rw [h]; rfl
  split
  · next h => rw [h]; rfl
  split
  · next h => rw [h]; rfl
  split
  · next h => rw [h]; rfl
  split
  · next h => rw [h]; rfl
  split
  · next h => rw [← hcode 8 h]; rfl
  split
  · next h => rw [← hcode 12 h]; rfl
  split
  · next h =>
      have hread := unicodeEscape?_hexDigit h rest
      simp only [List.cons_append, List.nil_append, stringRest?, hread]
  · next hquote hbackslash _ _ _ _ _ hcontrol =>
      rw [List.singleton_append, stringRest?.eq_5]
      · rw [if_neg (not_or.mpr ⟨hbackslash, hcontrol⟩)]
      · exact hquote
      · exact fun _ h _ => hbackslash h
      · exact fun _ _ h _ => hbackslash h

theorem stringRest?_flatMap {cs : List Char} {steps : Nat} (h : cs.length < steps)
    (done rest : List Char) :
    stringRest? steps done (cs.flatMap escapeChar ++ '"' :: rest)
      = some (String.ofList (done.reverse ++ cs), rest) := by
  obtain ⟨steps, rfl⟩ := Nat.exists_eq_succ_of_ne_zero (Nat.ne_of_gt (Nat.zero_lt_of_lt h))
  induction cs generalizing steps done with
  | nil =>
      rw [List.append_nil]
      rfl
  | cons c cs ih =>
      rw [List.length_cons] at h
      obtain ⟨steps, rfl⟩ := Nat.exists_eq_succ_of_ne_zero (show steps ≠ 0 by omega)
      rw [List.flatMap_cons, List.append_assoc, stringRest?_escapeChar, ih _ _ (by omega),
        List.reverse_cons, List.append_assoc, List.singleton_append]

theorem toList_quote (s : String) :
    (quote s).toList = '"' :: (s.toList.flatMap escapeChar ++ ['"']) := by
  rw [quote, String.toList_ofList]

theorem length_escapeChar_pos (c : Char) : 0 < (escapeChar c).length := by
  rw [escapeChar]
  repeat' split
  all_goals exact Nat.succ_pos _

theorem length_le_flatMap_escapeChar (cs : List Char) :
    cs.length ≤ (cs.flatMap escapeChar).length := by
  induction cs with
  | nil => exact Nat.le_refl _
  | cons c cs ih =>
      have hpos := length_escapeChar_pos c
      rw [List.flatMap_cons, List.length_append, List.length_cons]
      omega

/-- What is quoted is read back. -/
theorem string?_quote (s : String) (rest : List Char) :
    string? ((quote s).toList.tail ++ rest) = some (s, rest) := by
  have hsteps : s.toList.length
      < (s.toList.flatMap escapeChar ++ '"' :: rest).length + 1 := by
    have := length_le_flatMap_escapeChar s.toList
    rw [List.length_append]
    omega
  rw [toList_quote, List.tail_cons, List.append_assoc, List.singleton_append, string?,
    stringRest?_flatMap hsteps, List.reverse_nil, List.nil_append, String.ofList_toList]

theorem eq_of_quote_append_eq {s t : String} {rest other : List Char}
    (h : (quote s).toList ++ rest = (quote t).toList ++ other) : s = t ∧ rest = other := by
  have hread := string?_quote s rest
  have htail : (quote s).toList.tail ++ rest = (quote t).toList.tail ++ other := by
    rw [toList_quote, toList_quote] at h ⊢
    exact (List.cons.inj h).2
  rw [htail, string?_quote] at hread
  obtain ⟨rfl, rfl⟩ := Prod.mk.inj (Option.some.inj hread)
  exact ⟨rfl, rfl⟩

/-! ## Kinds -/

/-- A character for the kind of a document. -/
def mark : Json → Char
  | .null => 'n'
  | .bool true => 't'
  | .bool false => 'f'
  | .number _ => '0'
  | .string _ => '"'
  | .array _ => '['
  | .object _ => '\x7b'

/-- The mark of the documents whose text begins with a character. -/
def markOf (first : Char) : Char := if first = '-' ∨ first.isDigit = true then '0' else first

theorem exists_text_eq_cons (a : Json) :
    ∃ first rest, a.text.toList = first :: rest ∧ markOf first = a.mark := by
  cases a with
  | null => exact ⟨'n', _, rfl, rfl⟩
  | bool b =>
      cases b
      · exact ⟨'f', _, rfl, rfl⟩
      · exact ⟨'t', _, rfl, rfl⟩
  | number n =>
      obtain ⟨layout, hlayout, -⟩ := n.exists_isLaidOut
      obtain ⟨first, rest, hchars, hfirst⟩ := layout.exists_chars_eq_cons
      exact ⟨first, rest, hlayout.trans hchars, if_pos hfirst⟩
  | string s => exact ⟨'"', _, toList_quote s, rfl⟩
  | array items =>
      exact ⟨'[', _, by rw [text, String.toList_append, String.toList_append]; rfl, rfl⟩
  | object entries =>
      exact ⟨'\x7b', _, by rw [text, String.toList_append, String.toList_append]; rfl, rfl⟩

/-- Whether two documents are of one kind; true and false are two. -/
def sameKind : Json → Json → Bool
  | .null, .null => true
  | .bool a, .bool b => a == b
  | .number _, .number _ => true
  | .string _, .string _ => true
  | .array _, .array _ => true
  | .object _, .object _ => true
  | _, _ => false

theorem sameKind_eq (a b : Json) : sameKind a b = (a.mark == b.mark) := by
  rcases a with _ | (_ | _) | _ | _ | _ | _ <;> rcases b with _ | (_ | _) | _ | _ | _ | _ <;> rfl

/-- The first character tells the kind. -/
theorem sameKind_of_append_eq {a b : Json} {rest other : List Char}
    (h : a.text.toList ++ rest = b.text.toList ++ other) : sameKind a b = true := by
  obtain ⟨first, _, ha, hmark⟩ := a.exists_text_eq_cons
  obtain ⟨first', _, hb, hmark'⟩ := b.exists_text_eq_cons
  rw [ha, hb] at h
  rw [sameKind_eq, beq_iff_eq, ← hmark, ← hmark', (List.cons.inj h).1]

/-! ## Pieces -/

/-- Whether a value ends in front of a text. -/
def EndsValue (rest : List Char) : Prop := ∀ c ∈ rest.head?, c = ',' ∨ c = ']' ∨ c = '\x7d'

theorem EndsValue.endsBefore {rest : List Char} (h : EndsValue rest) :
    JsonNumber.EndsBefore rest := by
  intro c hc
  rcases h c hc with rfl | rfl | rfl <;> decide

section Pieces

variable {α : Type} {text : α → String}

/-- Whether something can be read off a text in front of which its own stands. -/
def SelfDelimiting (text : α → String) (a : α) : Prop :=
  ∀ ⦃b : α⦄ ⦃rest other : List Char⦄, EndsValue rest → EndsValue other →
    (text a).toList ++ rest = (text b).toList ++ other → a = b ∧ rest = other

/-- The pieces after the first, with a comma in front of each. -/
def laterPieces (text : α → String) (as : List α) : List Char :=
  as.flatMap fun a => ',' :: (text a).toList

theorem toList_intercalate_cons (a : α) (as : List α) :
    (String.intercalate "," ((a :: as).map text)).toList
      = (text a).toList ++ laterPieces text as := by
  induction as generalizing a with
  | nil => simp [laterPieces]
  | cons b bs ih =>
      rw [List.map_cons, List.map_cons, String.intercalate_cons_cons, ← List.map_cons,
        String.toList_append, String.toList_append, ih, laterPieces, laterPieces,
        List.flatMap_cons, List.append_assoc]
      rfl

variable {close : Char} (hclose : close = ']' ∨ close = '\x7d')

include hclose

theorem endsValue_close (rest : List Char) : EndsValue (close :: rest) := by
  rintro c ⟨⟩
  exact .inr hclose

theorem endsValue_laterPieces (as : List α) (rest : List Char) :
    EndsValue (laterPieces text as ++ close :: rest) := by
  cases as with
  | nil => exact endsValue_close hclose rest
  | cons a as =>
      rintro c ⟨⟩
      exact .inl rfl

theorem eq_of_laterPieces_append_eq {as bs : List α} {rest other : List Char}
    (has : ∀ a ∈ as, SelfDelimiting text a)
    (h : laterPieces text as ++ close :: rest = laterPieces text bs ++ close :: other) :
    as = bs ∧ rest = other := by
  have hcomma : close ≠ ',' := by
    rcases hclose with rfl | rfl <;> decide
  induction as generalizing bs with
  | nil =>
      cases bs with
      | nil => exact ⟨rfl, (List.cons.inj h).2⟩
      | cons b bs => exact absurd (List.cons.inj h).1 hcomma
  | cons a as ih =>
      cases bs with
      | nil => exact absurd (List.cons.inj h).1.symm hcomma
      | cons b bs =>
          obtain ⟨ha, hrest⟩ := List.forall_mem_cons.mp has
          rw [laterPieces, laterPieces, List.flatMap_cons, List.flatMap_cons, List.append_assoc,
            List.append_assoc] at h
          obtain ⟨rfl, hlater⟩ := ha (endsValue_laterPieces hclose as rest)
            (endsValue_laterPieces hclose bs other) (List.cons.inj h).2
          obtain ⟨rfl, hend⟩ := ih hrest hlater
          exact ⟨rfl, hend⟩

/-- Pieces between commas can be read off, up to a bracket with which none of them
begins. -/
theorem eq_of_intercalate_append_eq {as bs : List α} {rest other : List Char}
    (has : ∀ a ∈ as, SelfDelimiting text a)
    (hfirst : ∀ a, ∃ first rest, (text a).toList = first :: rest ∧ first ≠ close)
    (h : (String.intercalate "," (as.map text)).toList ++ close :: rest
      = (String.intercalate "," (bs.map text)).toList ++ close :: other) :
    as = bs ∧ rest = other := by
  cases as with
  | nil =>
      cases bs with
      | nil => exact ⟨rfl, (List.cons.inj h).2⟩
      | cons b bs =>
          obtain ⟨first, _, hb, hne⟩ := hfirst b
          rw [toList_intercalate_cons, hb] at h
          exact absurd (List.cons.inj h).1.symm hne
  | cons a as =>
      cases bs with
      | nil =>
          obtain ⟨first, _, ha, hne⟩ := hfirst a
          rw [toList_intercalate_cons, ha] at h
          exact absurd (List.cons.inj h).1 hne
      | cons b bs =>
          obtain ⟨ha, hrest⟩ := List.forall_mem_cons.mp has
          rw [toList_intercalate_cons, toList_intercalate_cons, List.append_assoc,
            List.append_assoc] at h
          obtain ⟨rfl, hlater⟩ := ha (endsValue_laterPieces hclose as rest)
            (endsValue_laterPieces hclose bs other) h
          obtain ⟨rfl, hend⟩ := eq_of_laterPieces_append_eq hclose hrest hlater
          exact ⟨rfl, hend⟩

end Pieces

/-! ## Documents -/

def entryText (entry : String × Json) : String := quote entry.1 ++ ":" ++ entry.2.text

theorem itemTexts_eq (items : List Json) : itemTexts items = items.map text := by
  induction items with
  | nil => rfl
  | cons item rest ih => rw [itemTexts, ih, List.map_cons]

theorem entryTexts_eq (entries : List (String × Json)) :
    entryTexts entries = entries.map entryText := by
  induction entries with
  | nil => rfl
  | cons entry rest ih => rw [entryTexts, ih, List.map_cons, entryText]

theorem toList_text_array (items : List Json) (rest : List Char) :
    (array items).text.toList ++ rest
      = '[' :: ((String.intercalate "," (items.map text)).toList ++ ']' :: rest) := by
  rw [text, itemTexts_eq, String.toList_append, String.toList_append, List.append_assoc,
    List.append_assoc]
  rfl

theorem toList_text_object (entries : List (String × Json)) (rest : List Char) :
    (object entries).text.toList ++ rest
      = '\x7b' :: ((String.intercalate "," (entries.map entryText)).toList ++ '\x7d' :: rest) := by
  rw [text, entryTexts_eq, String.toList_append, String.toList_append, List.append_assoc,
    List.append_assoc]
  rfl

theorem toList_entryText (entry : String × Json) (rest : List Char) :
    (entryText entry).toList ++ rest
      = (quote entry.1).toList ++ ':' :: (entry.2.text.toList ++ rest) := by
  rw [entryText, String.toList_append, String.toList_append, List.append_assoc, List.append_assoc]
  rfl

theorem exists_text_ne_bracket (a : Json) :
    ∃ first rest, a.text.toList = first :: rest ∧ first ≠ ']' := by
  obtain ⟨first, rest, htext, hmark⟩ := a.exists_text_eq_cons
  refine ⟨first, rest, htext, ?_⟩
  rintro rfl
  have hne : a.mark ≠ ']' := by
    rcases a with _ | (_ | _) | _ | _ | _ | _ <;> simp [mark]
  exact hne hmark.symm

theorem exists_entryText_ne_brace (entry : String × Json) :
    ∃ first rest, (entryText entry).toList = first :: rest ∧ first ≠ '\x7d' := by
  have htext := toList_entryText entry []
  rw [List.append_nil, toList_quote] at htext
  exact ⟨_, _, htext, by decide⟩

theorem selfDelimiting_entry {key : String} {value : Json} (h : SelfDelimiting text value) :
    SelfDelimiting entryText (key, value) := by
  rintro ⟨key', value'⟩ rest other hrest hother heq
  rw [toList_entryText, toList_entryText] at heq
  obtain ⟨rfl, hvalue⟩ := eq_of_quote_append_eq heq
  obtain ⟨rfl, hend⟩ := h hrest hother (List.cons.inj hvalue).2
  exact ⟨rfl, hend⟩

mutual

/-- A document can be read off what begins with its text. -/
theorem selfDelimiting : ∀ a : Json, SelfDelimiting text a
  | .null => by
      intro b _ _ _ _ h
      have hkind := sameKind_of_append_eq h
      cases b <;> cases hkind
      exact ⟨rfl, List.append_cancel_left h⟩
  | .bool v => by
      intro b _ _ _ _ h
      have hkind := sameKind_of_append_eq h
      cases b with
      | bool w =>
          obtain rfl : v = w := beq_iff_eq.mp hkind
          exact ⟨rfl, List.append_cancel_left h⟩
      | _ => cases hkind
  | .number n => by
      intro b _ _ hrest hother h
      have hkind := sameKind_of_append_eq h
      cases b <;> cases hkind
      rw [text, text] at h
      obtain ⟨rfl, hend⟩ := JsonNumber.eq_of_append_eq hrest.endsBefore hother.endsBefore h
      exact ⟨rfl, hend⟩
  | .string s => by
      intro b _ _ _ _ h
      have hkind := sameKind_of_append_eq h
      cases b <;> cases hkind
      rw [text, text] at h
      obtain ⟨rfl, hend⟩ := eq_of_quote_append_eq h
      exact ⟨rfl, hend⟩
  | .array items => by
      intro b _ _ _ _ h
      have hitems := selfDelimiting_items items
      have hkind := sameKind_of_append_eq h
      cases b <;> cases hkind
      rw [toList_text_array, toList_text_array] at h
      obtain ⟨rfl, hend⟩ := eq_of_intercalate_append_eq (.inl rfl) hitems exists_text_ne_bracket
        (List.cons.inj h).2
      exact ⟨rfl, hend⟩
  | .object entries => by
      intro b _ _ _ _ h
      have hentries := selfDelimiting_entries entries
      have hkind := sameKind_of_append_eq h
      cases b <;> cases hkind
      rw [toList_text_object, toList_text_object] at h
      obtain ⟨rfl, hend⟩ := eq_of_intercalate_append_eq (.inr rfl) hentries
        exists_entryText_ne_brace (List.cons.inj h).2
      exact ⟨rfl, hend⟩

theorem selfDelimiting_items : ∀ items : List Json, ∀ item ∈ items, SelfDelimiting text item
  | [] => nofun
  | item :: rest =>
      List.forall_mem_cons.mpr ⟨selfDelimiting item, selfDelimiting_items rest⟩

theorem selfDelimiting_entries : ∀ entries : List (String × Json),
    ∀ entry ∈ entries, SelfDelimiting entryText entry
  | [] => nofun
  | (_, value) :: rest =>
      List.forall_mem_cons.mpr
        ⟨selfDelimiting_entry (selfDelimiting value), selfDelimiting_entries rest⟩

end

/-- Documents with one text are one document. -/
theorem text_injective : Function.Injective text := by
  intro a b h
  have hnil : EndsValue [] := by
    rintro c ⟨⟩
  exact (a.selfDelimiting hnil hnil (congrArg (·.toList ++ []) h)).1

-- The two zeros are equal as numbers, and have two texts.
example : (number (.double (.zero true))).text = "-0.0"
    ∧ (number (.double (.zero false))).text = "0.0" := by
  decide

end Json

end RowQuery
