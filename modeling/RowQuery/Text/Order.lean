/-!
# The order of texts

Texts compare by their UTF-8 bytes. The order is used wherever the library
sorts or compares text: object keys, text cells, ordinal comparisons.

`insertSorted` keeps an association list in key order, the last entry for a
key winning, and `findKey` looks an entry up.
-/

namespace RowQuery

def textBytes (s : String) : List UInt8 := s.toByteArray.data.toList

/-- Compares two texts byte by byte; a text that runs out first is the
smaller one. -/
def compareText (a b : String) : Ordering :=
  List.compareLex compare (textBytes a) (textBytes b)

/-- Puts `value` under `key` into an association list that is sorted by key.
An entry already there under the same key is replaced. -/
def insertSorted {α : Type} (key : String) (value : α) :
    List (String × α) → List (String × α)
  | [] => [(key, value)]
  | (k, v) :: rest =>
      match compareText key k with
      | .lt => (key, value) :: (k, v) :: rest
      | .eq => (key, value) :: rest
      | .gt => (k, v) :: insertSorted key value rest

def findKey {α : Type} (key : String) : List (String × α) → Option α
  | [] => none
  | (k, v) :: rest => if k = key then some v else findKey key rest

theorem textBytes_inj {a b : String} : textBytes a = textBytes b ↔ a = b := by
  constructor
  · intro h
    apply String.toByteArray_inj.1
    have harr : a.toByteArray.data = b.toByteArray.data := Array.toList_inj.1 h
    cases ha : a.toByteArray
    cases hb : b.toByteArray
    simp_all
  · rintro rfl
    rfl

end RowQuery
