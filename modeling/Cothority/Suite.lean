import Mathlib

/-! The algebra the code reaches through `abstract.Suite`. Secrets are the scalars `S` of a field
and points the elements of an `S`-module `P`: `Point().Null()` is `0`, `Point().Mul(nil, s)` is
`s • base` and `Point().Mul(p, s)` is `s • p`. A suite's cipher is deterministic, so a secret it
picks is a function of the blocks the cipher absorbed: the seed it was built from, then every
`Message`. A Go panic on a nil pointer is returned by the model as an error carrying the runtime's
text. -/

namespace Cothority

/-- A Go `[]byte`, also a `hashid.HashId`. -/
abbrev Bytes := List UInt8

/-- A Go `[]byte(s)`: the UTF-8 bytes of the string. -/
def stringBytes (s : String) : Bytes := s.toUTF8.data.toList

/-- The runtime's text for a nil dereference: what reading an unset `abstract.Point` or
`abstract.Secret` does. -/
def nilDeref : String := "runtime error: invalid memory address or nil pointer dereference"

@[simp] theorem except_ok_bind {ε α β : Type} (a : α) (f : α → Except ε β) :
    (Except.ok a >>= f) = f a := rfl

@[simp] theorem except_pure {ε α : Type} (a : α) : (pure a : Except ε α) = .ok a := rfl

/-- The operations of an `abstract.Suite` the modelled code calls, beside the field and module
laws of its secrets and points. -/
structure Suite (S P : Type) where
  /-- The standard base point `G`. -/
  base : P
  /-- `Point.MarshalBinary`. -/
  marshal : P → Bytes
  /-- `Secret.MarshalBinary`. -/
  marshalSecret : S → Bytes
  /-- `Secret().Pick(cipher)` for a cipher built by `Cipher` from the first block, that absorbed
  each later block with `Message`. -/
  pick : List Bytes → S
  /-- `Hash()` written the bytes, then `Sum(nil)`. -/
  hash : Bytes → Bytes

/-- `bytes.Compare`: the lexicographic order of byte strings, as `-1`, `0` or `1`. -/
def bytesCompare : Bytes → Bytes → Int
  | [], [] => 0
  | [], _ :: _ => -1
  | _ :: _, [] => 1
  | a :: as, b :: bs => if a < b then -1 else if b < a then 1 else bytesCompare as bs

theorem bytesCompare_eq_zero {a b : Bytes} : bytesCompare a b = 0 ↔ a = b := by
  induction a generalizing b with
  | nil => cases b <;> simp [bytesCompare]
  | cons x xs ih =>
      cases b with
      | nil => simp [bytesCompare]
      | cons y ys =>
          simp only [bytesCompare, List.cons.injEq]
          by_cases hxy : x < y
          · simp [hxy, UInt8.ne_of_lt hxy]
          · by_cases hyx : y < x
            · simp [hxy, hyx, (UInt8.ne_of_lt hyx).symm]
            · have hx : x = y := UInt8.eq_of_toBitVec_eq
                (BitVec.le_antisymm (UInt8.not_lt.mp hyx) (UInt8.not_lt.mp hxy))
              simp [hxy, hyx, hx, ih]

instance fact_prime_eleven : Fact (Nat.Prime 11) := ⟨by decide⟩

/-- The additive group `ZMod 11` over itself with base point `1`, a point or a secret marshalled
as its one byte, a cipher that picks the first byte of its seed and a hash that keeps the length.
A suite small enough to run the model on. -/
def toySuite : Suite (ZMod 11) (ZMod 11) where
  base := 1
  marshal p := [p.val.toUInt8]
  marshalSecret s := [s.val.toUInt8]
  pick
    | (b :: _) :: _ => (b.toNat : ZMod 11)
    | _ => 0
  hash bs := [bs.length.toUInt8]

end Cothority
