import Cothority.Sign.Merkle

/-! Decoding a round's log, `SNLog.UnmarshalBinary`. `Suite.Read` reads the secret and the two
points, each from the next `MarshalSize()` bytes, as `abstract.Suite` does for every suite. The
roots that `MarshalBinary` gob-encodes after them are not decoded: the method re-encodes the log it
decodes into, with its new secret and points and its old roots, and keeps the input past that
length. A call that can panic returns `Except String (α × Option String)` as in
`Cothority.Sign.Messages`. -/

namespace Cothority.Sign

set_option linter.unusedSectionVars false

section Codec

variable {S P : Type} [CommRing S] [AddCommGroup P] [Module S P]

/-- The `abstract.Marshaling` contract `Suite.Read` relies on: every secret is written on
`secretSize` bytes and every point on `pointSize`, and `UnmarshalBinary` of those bytes gives the
value back. -/
structure Codec (suite : Suite S P) where
  secretSize : Nat
  pointSize : Nat
  unmarshalSecret : Bytes → Except String S
  unmarshalPoint : Bytes → Except String P
  marshalSecret_length : ∀ s, (suite.marshalSecret s).length = secretSize
  marshal_length : ∀ p, (suite.marshal p).length = pointSize
  unmarshalSecret_marshalSecret : ∀ s, unmarshalSecret (suite.marshalSecret s) = .ok s
  unmarshalPoint_marshal : ∀ p, unmarshalPoint (suite.marshal p) = .ok p

variable {suite : Suite S P}

/-- `io.ReadFull` of `n` bytes: `EOF` when none is left, `unexpected EOF` when fewer than `n`. -/
def readFull (n : Nat) (b : Bytes) : Except String (Bytes × Bytes) :=
  if n ≤ b.length then .ok (b.take n, b.drop n)
  else if b = [] then .error "EOF" else .error "unexpected EOF"

/-- `UnmarshalFrom` of a secret: `UnmarshalBinary` of the next `secretSize` bytes. -/
def Codec.readSecret (codec : Codec suite) (b : Bytes) : Except String (S × Bytes) := do
  let (bs, rest) ← readFull codec.secretSize b
  let s ← codec.unmarshalSecret bs
  pure (s, rest)

/-- `UnmarshalFrom` of a point: `UnmarshalBinary` of the next `pointSize` bytes. -/
def Codec.readPoint (codec : Codec suite) (b : Bytes) : Except String (P × Bytes) := do
  let (bs, rest) ← readFull codec.pointSize b
  let p ← codec.unmarshalPoint bs
  pure (p, rest)

/-- `Suite.Read(b, &v, &V, &V_hat)`: the fields in order; a field that does not read, and the
ones after it, keep their value, and the error is returned. -/
def SNLog.suiteRead (codec : Codec suite) (data : Bytes) (snLog : SNLog S P) :
    SNLog S P × Option String :=
  match codec.readSecret data with
  | .error e => (snLog, some e)
  | .ok (v, data) =>
      match codec.readPoint data with
      | .error e => ({ snLog with v := v }, some e)
      | .ok (V, data) =>
          match codec.readPoint data with
          | .error e => ({ snLog with v := v, V := V }, some e)
          | .ok (V_hat, _) => ({ snLog with v := v, V := V, V_hat := V_hat }, none)

/-- The runtime's panic text for a slice expression past the end of its operand. -/
def sliceBounds : String := "runtime error: slice bounds out of range"

/-- `SNLog.UnmarshalBinary`: the secret and the points by `Suite.Read`, then as the roots the input
past the length of the log re-encoded by `MarshalBinary` (whose error is dropped). The result is
the decoded log and the error of `Suite.Read`. -/
def SNLog.unmarshalBinary (codec : Codec suite) (gobEncode : Bytes → Bytes) (data : Bytes)
    (snLog : SNLog S P) : Except String (SNLog S P × Option String) :=
  let (snLog, err) := snLog.suiteRead codec data
  let rem := SNLog.marshalBinary suite gobEncode snLog
  if rem.length ≤ data.length then .ok ({ snLog with CMTRoots := data.drop rem.length }, err)
  else .error sliceBounds

theorem readFull_append (a rest : Bytes) : readFull a.length (a ++ rest) = .ok (a, rest) := by
  simp [readFull]

theorem Codec.readSecret_marshalSecret (codec : Codec suite) (s : S) (rest : Bytes) :
    codec.readSecret (suite.marshalSecret s ++ rest) = .ok (s, rest) := by
  rw [Codec.readSecret, ← codec.marshalSecret_length s, readFull_append]
  simp [codec.unmarshalSecret_marshalSecret]

theorem Codec.readPoint_marshal (codec : Codec suite) (p : P) (rest : Bytes) :
    codec.readPoint (suite.marshal p ++ rest) = .ok (p, rest) := by
  rw [Codec.readPoint, ← codec.marshal_length p, readFull_append]
  simp [codec.unmarshalPoint_marshal]

theorem drop_length_append (a x y : Bytes) : (a ++ x).drop (a ++ y).length = x.drop y.length := by
  rw [List.length_append, List.drop_append]

theorem SNLog.suiteRead_marshalBinary (codec : Codec suite) (gobEncode : Bytes → Bytes)
    (l u : SNLog S P) :
    u.suiteRead codec (SNLog.marshalBinary suite gobEncode l) =
      ({ u with v := l.v, V := l.V, V_hat := l.V_hat }, none) := by
  simp only [SNLog.suiteRead, SNLog.marshalBinary, List.append_assoc,
    codec.readSecret_marshalSecret, codec.readPoint_marshal]

theorem SNLog.unmarshalBinary_marshalBinary (codec : Codec suite) (gobEncode : Bytes → Bytes)
    (l u : SNLog S P) :
    SNLog.unmarshalBinary codec gobEncode (SNLog.marshalBinary suite gobEncode l) u =
      if (gobEncode u.CMTRoots).length ≤ (gobEncode l.CMTRoots).length then
        .ok ({ l with CMTRoots := (gobEncode l.CMTRoots).drop (gobEncode u.CMTRoots).length },
          none)
      else .error sliceBounds := by
  simp only [SNLog.unmarshalBinary, SNLog.suiteRead_marshalBinary]
  rw [SNLog.marshalBinary, SNLog.marshalBinary, drop_length_append]
  simp only [List.length_append, Nat.add_le_add_iff_left]

/-- A decoder that already holds the roots of the log it decodes: `UnmarshalBinary` returns `nil`
with the secret and the points of the log and no roots at all, for every suite and every gob
encoding. -/
theorem unmarshalBinary_drops_CMTRoots (codec : Codec suite) (gobEncode : Bytes → Bytes)
    (l u : SNLog S P) (hu : u.CMTRoots = l.CMTRoots) (hl : l.CMTRoots ≠ []) :
    ∃ u', SNLog.unmarshalBinary codec gobEncode (SNLog.marshalBinary suite gobEncode l) u =
        .ok (u', none) ∧
      u'.v = l.v ∧ u'.V = l.V ∧ u'.V_hat = l.V_hat ∧ u'.CMTRoots = [] ∧ u'.CMTRoots ≠ l.CMTRoots :=
  ⟨{ l with CMTRoots := [] }, by
    rw [SNLog.unmarshalBinary_marshalBinary, hu, if_pos le_rfl, List.drop_length], rfl, rfl, rfl,
    rfl, hl.symm⟩

theorem readFull_bind_ok_length {α : Type} {n : Nat} {u : Bytes → Except String α} {b : Bytes}
    {x : α} {rest : Bytes}
    (h : (do let (bs, rest) ← readFull n b; let x ← u bs; pure (x, rest) :
      Except String (α × Bytes)) = .ok (x, rest)) : rest.length + n = b.length := by
  cases hr : readFull n b with
  | error e => rw [hr] at h; cases h
  | ok p =>
      have hlen : p.2.length + n = b.length := by
        unfold readFull at hr
        split_ifs at hr with hn
        cases hr
        simp only [List.length_drop]
        omega
      rw [hr, except_ok_bind] at h
      cases hu : u p.1 with
      | error e => simp only [hu] at h; cases h
      | ok y =>
          simp only [hu, except_ok_bind, except_pure, Except.ok.injEq, Prod.mk.injEq] at h
          rw [← h.2, hlen]

theorem SNLog.marshalBinary_length (codec : Codec suite) (gobEncode : Bytes → Bytes)
    (l : SNLog S P) :
    (SNLog.marshalBinary suite gobEncode l).length =
      codec.secretSize + codec.pointSize + codec.pointSize + (gobEncode l.CMTRoots).length := by
  simp only [SNLog.marshalBinary, List.length_append, codec.marshalSecret_length,
    codec.marshal_length]

theorem SNLog.suiteRead_error_of_short (codec : Codec suite) {data : Bytes} (snLog : SNLog S P)
    (hshort : data.length < codec.secretSize + codec.pointSize + codec.pointSize) :
    (snLog.suiteRead codec data).2.isSome := by
  unfold SNLog.suiteRead
  split
  · rfl
  · next v rest hv =>
      split
      · rfl
      · next V rest' hV =>
          split
          · rfl
          · next V_hat rest'' hV_hat =>
              have h₁ := readFull_bind_ok_length hv
              have h₂ := readFull_bind_ok_length hV
              have h₃ := readFull_bind_ok_length hV_hat
              omega

/-- **A short input panics.** For every input shorter than a secret and two points and every log
it is decoded into, `Suite.Read` fails, and `UnmarshalBinary` panics on its slice expression
before returning that error: `EOF` and `unexpected EOF` never reach the caller. -/
theorem unmarshalBinary_short_panics (codec : Codec suite) (gobEncode : Bytes → Bytes)
    {data : Bytes} (snLog : SNLog S P)
    (hshort : data.length < codec.secretSize + codec.pointSize + codec.pointSize) :
    (snLog.suiteRead codec data).2.isSome ∧
      SNLog.unmarshalBinary codec gobEncode data snLog = .error sliceBounds := by
  refine ⟨SNLog.suiteRead_error_of_short codec snLog hshort, ?_⟩
  rcases h : snLog.suiteRead codec data with ⟨u, err⟩
  simp only [SNLog.unmarshalBinary, h]
  rw [if_neg (by rw [SNLog.marshalBinary_length codec]; omega)]

end Codec

/-- One byte a value of the toy suite, `0` to `10`. -/
def toyUnmarshal : Bytes → Except String (ZMod 11)
  | [b] => if b.toNat < 11 then .ok (b.toNat : ZMod 11) else .error "invalid encoding"
  | _ => .error "invalid encoding"

theorem toyUnmarshal_marshal (s : ZMod 11) : toyUnmarshal (toySuite.marshal s) = .ok s := by
  have hs : s.val < 11 := ZMod.val_lt s
  have h : s.val.toUInt8.toNat = s.val := by
    simp [Nat.toUInt8, UInt8.toNat, UInt8.ofNat]
    omega
  simp [toyUnmarshal, toySuite, h, hs]

/-- The codec of the toy suite. -/
def toyCodec : Codec toySuite where
  secretSize := 1
  pointSize := 1
  unmarshalSecret := toyUnmarshal
  unmarshalPoint := toyUnmarshal
  marshalSecret_length _ := rfl
  marshal_length _ := rfl
  unmarshalSecret_marshalSecret := toyUnmarshal_marshal
  unmarshalPoint_marshal := toyUnmarshal_marshal

theorem unmarshalBinary_drops_CMTRoots_toy :
    (⟨0, 0, 0, [7]⟩ : SNLog (ZMod 11) (ZMod 11)).CMTRoots = [7] ∧ ([7] : Bytes) ≠ [] ∧
    ∃ u', SNLog.unmarshalBinary toyCodec id (SNLog.marshalBinary toySuite id ⟨1, 2, 3, [7]⟩)
        ⟨0, 0, 0, [7]⟩ = .ok (u', none) ∧
      u'.v = 1 ∧ u'.V = 2 ∧ u'.V_hat = 3 ∧ u'.CMTRoots = [] ∧ u'.CMTRoots ≠ [7] :=
  ⟨rfl, by decide, unmarshalBinary_drops_CMTRoots toyCodec id ⟨1, 2, 3, [7]⟩ ⟨0, 0, 0, [7]⟩ rfl
    (by decide)⟩

theorem unmarshalBinary_short_panics_empty :
    ([] : Bytes).length < toyCodec.secretSize + toyCodec.pointSize + toyCodec.pointSize ∧
    ((⟨0, 0, 0, []⟩ : SNLog (ZMod 11) (ZMod 11)).suiteRead toyCodec []).2.isSome ∧
      SNLog.unmarshalBinary toyCodec id [] ⟨0, 0, 0, []⟩ = .error sliceBounds :=
  ⟨by decide, unmarshalBinary_short_panics toyCodec id ⟨0, 0, 0, []⟩ (by decide)⟩

end Cothority.Sign
