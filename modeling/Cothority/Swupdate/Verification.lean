import Mathlib

/-! `app/swupdate`: the developers' approval of a commit. A commit is approved when at least
`Threshold` developers of the policy have signed its id. A signer is counted by the key id of the
primary key its signature verifies under, so a developer who signed twice counts once. The file
scanners and `openpgp` have no source in the repository and are parameters: the approval is
stated for every policy, every list of signatures and every signature check. -/

namespace Cothority.Swupdate

/-- `commitPolicy`, without `CothKey`, which `ApprovalCheck` reads and never uses. -/
structure CommitPolicy where
  /-- The number of developers whose signatures approve a commit. -/
  Threshold : Int
  /-- The developers' armored PGP public keys. -/
  DevPubKeys : List String

/-- What `ApprovalCheck` calls outside its file: the two scanners (error `none` for `nil`), the
key-ring decoder, and the detached-signature check giving the signer's primary key id, if any. -/
structure Verifier (Entity : Type) where
  PolicyScanner : String → CommitPolicy × Option String
  SigScanner : String → List String × Option String
  readArmoredKeyRing : String → List Entity
  checkArmoredDetachedSignature : List Entity → String → String → Option String

variable {Entity : Type}

/-- One turn of the loop over the signatures: a valid signature's key id joins `approvers` unless
it is there already. `approvers` is the map's keys in the order they were added. -/
def addApprover (approvers : List String) : Option String → List String
  | some keyId => if keyId ∈ approvers then approvers else approvers ++ [keyId]
  | none => approvers

/-- `ApprovalCheck(PolicyFile, SignaturesFile, Id)`. `PolicyScanner`'s error is overwritten by
`SigScanner`'s, and the loops declare their own `err`, so the error returned is `SigScanner`'s;
the errors of the key rings and of the signatures are only logged. -/
def approvalCheck (v : Verifier Entity) (PolicyFile SignaturesFile Id : String) :
    Bool × Option String :=
  let policy := (v.PolicyScanner PolicyFile).1
  let (Signatures, err) := v.SigScanner SignaturesFile
  let developers := policy.DevPubKeys.flatMap v.readArmoredKeyRing
  let approvers := Signatures.foldl (fun approvers signature =>
    addApprover approvers (v.checkArmoredDetachedSignature developers Id signature)) []
  (decide (policy.Threshold ≤ approvers.length), err)

theorem addApprover_of_mem {approvers : List String} {k : String} (hk : k ∈ approvers) :
    addApprover approvers (some k) = approvers := if_pos hk

theorem addApprover_of_not_mem {approvers : List String} {k : String} (hk : k ∉ approvers) :
    addApprover approvers (some k) = approvers ++ [k] := if_neg hk

theorem foldl_addApprover (check : String → Option String) (Signatures : List String)
    {approvers : List String} (h : approvers.Nodup) :
    (Signatures.foldl (fun a s => addApprover a (check s)) approvers).Nodup ∧
      (Signatures.foldl (fun a s => addApprover a (check s)) approvers).toFinset =
        approvers.toFinset ∪ (Signatures.filterMap check).toFinset := by
  induction Signatures generalizing approvers with
  | nil => simp [h]
  | cons s Signatures ih =>
      rw [List.foldl_cons]
      cases hs : check s with
      | none =>
          rw [List.filterMap_cons_none hs]
          exact ih h
      | some k =>
          rw [List.filterMap_cons_some hs]
          by_cases hk : k ∈ approvers
          · rw [addApprover_of_mem hk]
            refine ⟨(ih h).1, (ih h).2.trans ?_⟩
            rw [List.toFinset_cons, Finset.union_insert,
              Finset.insert_eq_of_mem (Finset.mem_union_left _ (List.mem_toFinset.mpr hk))]
          · rw [addApprover_of_not_mem hk]
            have hnd : (approvers ++ [k]).Nodup := List.nodup_append.mpr ⟨h, by simp, by simpa⟩
            refine ⟨(ih hnd).1, (ih hnd).2.trans ?_⟩
            ext x
            simp only [List.toFinset_append, List.toFinset_cons, List.toFinset_nil, Finset.mem_union,
              Finset.mem_insert, Finset.not_mem_empty, or_false]
            tauto

/-- **The approval counts distinct signers.** For every verifier and all three arguments,
`ApprovalCheck` approves exactly when the policy's threshold is at most the number of distinct key
ids among the valid signatures of the commit id, checked against every entity of the policy's
keys, and it returns `SigScanner`'s error. -/
theorem approvalCheck_eq_distinct_signers (v : Verifier Entity)
    (PolicyFile SignaturesFile Id : String) :
    approvalCheck v PolicyFile SignaturesFile Id =
      (decide ((v.PolicyScanner PolicyFile).1.Threshold ≤
          ((((v.SigScanner SignaturesFile).1.filterMap
            (v.checkArmoredDetachedSignature
              ((v.PolicyScanner PolicyFile).1.DevPubKeys.flatMap v.readArmoredKeyRing) Id)).toFinset
            ).card : Int)),
        (v.SigScanner SignaturesFile).2) := by
  obtain ⟨hnd, hset⟩ := foldl_addApprover
    (v.checkArmoredDetachedSignature
      ((v.PolicyScanner PolicyFile).1.DevPubKeys.flatMap v.readArmoredKeyRing) Id)
    (v.SigScanner SignaturesFile).1 List.nodup_nil
  rw [List.toFinset_nil, Finset.empty_union] at hset
  simp only [approvalCheck, ← List.toFinset_card_of_nodup hnd, hset]

/-- Two signatures by one key, for a threshold of two. -/
example : approvalCheck ⟨fun _ => (⟨2, ["k"]⟩, none), fun _ => (["s", "s"], none), fun k => [k],
    fun _ _ s => some s⟩ "policy" "signatures" "id" = (false, none) := by decide

end Cothority.Swupdate
