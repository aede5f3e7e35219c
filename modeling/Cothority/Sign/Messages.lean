import Cothority.Suite

/-! The messages of `lib/sign` (`messagessign.go`) and how a node decodes one from the wire: the
JSON envelope `JSONdata` names the suite and carries the protobuf bytes, `GetSuite` looks the name
up in `suites.All()`, and the protobuf decoder fills the message. A call that can stop the process
returns `Except String (α × Option String)`: `.error` is the process stopping, on a runtime panic
or on `dbg.Fatal`, with the message printed; `.ok (a, err)` is the call returning `a` and the Go
`error` `err` (`none` for `nil`). The JSON and protobuf decoders are libraries outside the
repository and are parameters. -/

namespace Cothority.Sign

/-- `MessageType`. -/
inductive MessageType where
  | unset
  | announcement
  | commitment
  | challenge
  | response
  | signatureBroadcast
  | statusReturn
  | catchUpReq
  | catchUpResp
  | groupChange
  | groupChanged
  | statusConnections
  | closeAll
  | default
  | error
  deriving DecidableEq, Repr

/-- `SigningMessage` with its plain fields; the payload pointers (`Am`, `Com`, ...) are filled
only by the protobuf decoder, a parameter here, and read by no modelled function. -/
structure SigningMessage where
  Suite : String
  Type' : MessageType
  From : String
  To : String
  ViewNbr : Nat
  LastSeenVote : Int
  RoundNbr : Int
  deriving DecidableEq, Repr

/-- `JSONdata`, the envelope `MarshalJSON` writes. -/
structure JSONdata where
  Suite : String
  Data : Bytes
  deriving DecidableEq, Repr

section Decode

variable {σ : Type}

/-- `GetSuite`: the suite of that name in `suites.All()`, given as a list of names and suites;
`dbg.Fatal` when there is none. -/
def getSuite (all : List (String × σ)) (suite : String) : Except String σ :=
  match all.lookup suite with
  | some s => .ok s
  | none => .error ("Didn't find suite " ++ suite)

/-- `UnmarshalBinarySuite`: the suite the envelope names, then `protobuf.DecodeWithConstructors`
(`decode`), which fills the message and returns its error. -/
def SigningMessage.unmarshalBinarySuite (all : List (String × σ))
    (decode : σ → Bytes → SigningMessage → SigningMessage × Option String) (jdata : JSONdata)
    (sm : SigningMessage) : Except String (SigningMessage × Option String) := do
  let suite ← getSuite all jdata.Suite
  pure (decode suite jdata.Data sm)

/-- `UnmarshalJSON`. `jsonUnmarshal d` is what a fresh `JSONdata` holds after
`json.Unmarshal(d, jdata)`, whose error the code drops. -/
def SigningMessage.unmarshalJSON (all : List (String × σ)) (jsonUnmarshal : Bytes → JSONdata)
    (decode : σ → Bytes → SigningMessage → SigningMessage × Option String) (sm : SigningMessage)
    (dataJSON : Bytes) : Except String (SigningMessage × Option String) :=
  sm.unmarshalBinarySuite all decode (jsonUnmarshal dataJSON)

theorem unmarshalJSON_eq (all : List (String × σ)) (jsonUnmarshal : Bytes → JSONdata)
    (decode : σ → Bytes → SigningMessage → SigningMessage × Option String) (sm : SigningMessage)
    (dataJSON : Bytes) :
    sm.unmarshalJSON all jsonUnmarshal decode dataJSON =
      match all.lookup (jsonUnmarshal dataJSON).Suite with
      | some suite => .ok (decode suite (jsonUnmarshal dataJSON).Data sm)
      | none => .error ("Didn't find suite " ++ (jsonUnmarshal dataJSON).Suite) := by
  simp only [SigningMessage.unmarshalJSON, SigningMessage.unmarshalBinarySuite, getSuite]
  split <;> rfl

/-- Input that is not JSON leaves the envelope empty (`json.Unmarshal` checks the syntax before
it writes) and `suites.All()` has no suite without a name: on such input `UnmarshalJSON` stops the
process on `dbg.Fatal` instead of returning the JSON error. -/
theorem unmarshalJSON_invalid_fatal (all : List (String × σ)) (jsonUnmarshal : Bytes → JSONdata)
    (decode : σ → Bytes → SigningMessage → SigningMessage × Option String) (sm : SigningMessage)
    (dataJSON : Bytes) (hjson : jsonUnmarshal dataJSON = ⟨"", []⟩) (hall : all.lookup "" = none) :
    sm.unmarshalJSON all jsonUnmarshal decode dataJSON = .error "Didn't find suite " := by
  rw [unmarshalJSON_eq, hjson]
  simp only [hall]
  rfl

theorem unmarshalJSON_invalid_fatal_empty :
    (fun _ : Bytes => (⟨"", []⟩ : JSONdata)) [] = ⟨"", []⟩ ∧
    [("Ed25519", ()), ("P256", ())].lookup "" = none ∧
    SigningMessage.unmarshalJSON [("Ed25519", ()), ("P256", ())] (fun _ => ⟨"", []⟩)
      (fun _ _ sm => (sm, none)) ⟨"", .unset, "", "", 0, 0, 0⟩ [] =
      .error "Didn't find suite " :=
  ⟨rfl, rfl, unmarshalJSON_invalid_fatal _ _ _ _ [] rfl rfl⟩

end Decode

end Cothority.Sign
