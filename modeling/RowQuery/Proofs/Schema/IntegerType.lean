import RowQuery.Proofs.Value.Numbers
import RowQuery.Schema.AsValue
import RowQuery.Value.Cast

/-!
# Integer types of row fields

The nine types of machine integers that a field may have. Whatever the type, an
integer becomes a number value with the same number, but of two kinds: an
integer where a signed word of 64 bits holds it, and a decimal past that. Every
one of them is of the integer type, and only those of the first kind can be cast
to it.
-/

namespace RowQuery

/-- A type of machine integers. -/
inductive IntegerType where
  | int8
  | int16
  | int32
  | int64
  | uint8
  | uint16
  | uint32
  | uint64
  | usize
deriving Repr, DecidableEq

namespace IntegerType

/-- The integers of the type. -/
def Carrier : IntegerType → Type
  | .int8 => Int8
  | .int16 => Int16
  | .int32 => Int32
  | .int64 => Int64
  | .uint8 => UInt8
  | .uint16 => UInt16
  | .uint32 => UInt32
  | .uint64 => UInt64
  | .usize => USize

/-- How the integers of the type are values. -/
@[reducible] def kind : (type : IntegerType) → AsValue type.Carrier
  | .int8 => inferInstanceAs (AsValue Int8)
  | .int16 => inferInstanceAs (AsValue Int16)
  | .int32 => inferInstanceAs (AsValue Int32)
  | .int64 => inferInstanceAs (AsValue Int64)
  | .uint8 => inferInstanceAs (AsValue UInt8)
  | .uint16 => inferInstanceAs (AsValue UInt16)
  | .uint32 => inferInstanceAs (AsValue UInt32)
  | .uint64 => inferInstanceAs (AsValue UInt64)
  | .usize => inferInstanceAs (AsValue USize)

/-- The number of an integer. -/
def number : (type : IntegerType) → type.Carrier → Int
  | .int8 => Int8.toInt
  | .int16 => Int16.toInt
  | .int32 => Int32.toInt
  | .int64 => Int64.toInt
  | .uint8 => fun n => UInt8.toNat n
  | .uint16 => fun n => UInt16.toNat n
  | .uint32 => fun n => UInt32.toNat n
  | .uint64 => fun n => UInt64.toNat n
  | .usize => fun n => USize.toNat n

theorem dataType_kind (type : IntegerType) : type.kind.dataType = .int := by
  cases type <;> rfl

theorem number_injective (type : IntegerType) : Function.Injective type.number := by
  intro a b h
  cases type with
  | int8 => exact Int8.toInt_inj.mp h
  | int16 => exact Int16.toInt_inj.mp h
  | int32 => exact Int32.toInt_inj.mp h
  | int64 => exact Int64.toInt_inj.mp h
  | uint8 => exact UInt8.toNat_inj.mp (Int.ofNat_inj.mp h)
  | uint16 => exact UInt16.toNat_inj.mp (Int.ofNat_inj.mp h)
  | uint32 => exact UInt32.toNat_inj.mp (Int.ofNat_inj.mp h)
  | uint64 => exact UInt64.toNat_inj.mp (Int.ofNat_inj.mp h)
  | usize => exact USize.toNat_inj.mp (Int.ofNat_inj.mp h)

end IntegerType

/-! ## The two kinds of values -/

/-- A word below the sign bit keeps its number when it becomes signed. -/
theorem toInt_toInt64_of_lt {word : UInt64} {n limit : Nat} (hword : word.toNat = n)
    (hn : n < limit) (hlimit : limit ≤ 2 ^ 63) : word.toInt64.toInt = n := by
  have hbits : 2 * word.toBitVec.toNat < 2 ^ 64 := by
    rw [UInt64.toNat_toBitVec]
    omega
  rw [Int64.toInt, UInt64.toBitVec_toInt64, BitVec.toInt_eq_toNat_of_lt hbits,
    UInt64.toNat_toBitVec, hword]

/-- A value that stands for a number: an integer where a signed word holds the
number, and a decimal past that. -/
def Value.StandsFor (v : Value) (n : Int) : Prop :=
  (∃ m : Int64, v = .int m ∧ m.toInt = n) ∨ 2 ^ 63 ≤ n ∧ ∃ d : Decimal, v = .decimal d ∧ d.value = n

theorem Value.standsFor_ofUInt64 {word : UInt64} {n : Nat} (hword : word.toNat = n) :
    (Value.ofUInt64 word).StandsFor n := by
  rw [ofUInt64]
  split
  · rename_i hlt
    exact .inl ⟨_, rfl, toInt_toInt64_of_lt hword (hword ▸ hlt) (Nat.le_refl _)⟩
  · rename_i hle
    refine .inr ⟨by omega, _, rfl, ?_⟩
    rw [Decimal.ofUInt64, Decimal.value_ofInt, hword]

namespace IntegerType

variable {type : IntegerType} {x y : type.Carrier}

theorem standsFor_toValue : ∀ (type : IntegerType) (x : type.Carrier),
    (type.kind.toValue x).StandsFor (type.number x)
  | .int8, x => .inl ⟨_, rfl, Int8.toInt_toInt64 x⟩
  | .int16, x => .inl ⟨_, rfl, Int16.toInt_toInt64 x⟩
  | .int32, x => .inl ⟨_, rfl, Int32.toInt_toInt64 x⟩
  | .int64, _ => .inl ⟨_, rfl, rfl⟩
  | .uint8, x => .inl ⟨_, rfl,
      toInt_toInt64_of_lt (UInt8.toNat_toUInt64 x) (UInt8.toNat_lt x) (by decide)⟩
  | .uint16, x => .inl ⟨_, rfl,
      toInt_toInt64_of_lt (UInt16.toNat_toUInt64 x) (UInt16.toNat_lt x) (by decide)⟩
  | .uint32, x => .inl ⟨_, rfl,
      toInt_toInt64_of_lt (UInt32.toNat_toUInt64 x) (UInt32.toNat_lt x) (by decide)⟩
  | .uint64, _ => Value.standsFor_ofUInt64 rfl
  | .usize, x => Value.standsFor_ofUInt64 (USize.toNat_toUInt64 x)

/-- The value of an integer is a number value of the same number. -/
theorem number_toValue (type : IntegerType) (x : type.Carrier) :
    (type.kind.toValue x).isNumeric = true ∧ (type.kind.toValue x).number = type.number x := by
  rcases type.standsFor_toValue x with ⟨n, hn, hnumber⟩ | ⟨-, d, hd, hnumber⟩
  · rw [hn, ← hnumber]
    exact ⟨rfl, rfl⟩
  · rw [hd, ← hnumber]
    exact ⟨rfl, rfl⟩

/-- The values of two integers are equal to a filter only if the integers are
the same. -/
theorem equal_toValue_iff : (type.kind.toValue x).equal (type.kind.toValue y) = true ↔ x = y := by
  obtain ⟨hx, hxnumber⟩ := type.number_toValue x
  obtain ⟨hy, hynumber⟩ := type.number_toValue y
  rw [Value.equal_iff_number_eq hx hy, hxnumber, hynumber, Int.cast_inj]
  exact type.number_injective.eq_iff

end IntegerType

/-! ## Casting to the integer type -/

/-- A decimal past the signed words has no integer. -/
theorem Decimal.toInt64?_of_le {d : Decimal} {n : Int} (h : d.value = n) (hle : 2 ^ 63 ≤ n) :
    d.toInt64? = none := by
  refine Option.eq_none_iff_forall_ne_some.mpr fun m hm => ?_
  have hvalue : n = m.toInt := Int.cast_inj.mp (h.symm.trans (toInt64?_eq_some_iff.mp hm))
  have := m.toInt_lt
  omega

namespace IntegerType

variable {type : IntegerType} {x : type.Carrier}

theorem castTo?_of_lt (h : type.number x < 2 ^ 63) :
    (type.kind.toValue x).castTo? .int = some (type.kind.toValue x) := by
  rcases type.standsFor_toValue x with ⟨n, hn, -⟩ | ⟨hle, -⟩
  · rw [hn]
    rfl
  · omega

theorem castTo?_of_le (h : 2 ^ 63 ≤ type.number x) :
    (type.kind.toValue x).castTo? .int = none ∧ (type.kind.toValue x).kind = .decimal := by
  rcases type.standsFor_toValue x with ⟨n, -, hnumber⟩ | ⟨hle, d, hd, hvalue⟩
  · have := n.toInt_lt
    omega
  · rw [hd, Value.castTo?, Decimal.toInt64?_of_le hvalue hle]
    exact ⟨rfl, rfl⟩

end IntegerType

end RowQuery
