import PushOperator.Proofs.Corrections

/-!
# What a correction of storage is good for

A check of the storage finds drift exactly when the two claims ask for different storage. Whether
what it answers is in order then depends on the wanted claim: one that asks for storage is followed,
but from one that asks for none the live claim comes back as it was, and the next check answers the
same again (`storageDrift_corrects_iff`). The claims that the operator builds all ask for storage
(`Child.exists_storage_claim`).
-/

namespace PushOperator.Claim

/-- A check of the storage answers nothing exactly when two claims ask for the same storage or for
none. What it answers otherwise is the live claim in all but its storage. It asks for the wanted
storage, so that the next check answers nothing, exactly when there is wanted storage; if there is
none, it is the live claim itself. -/
theorem storageDrift_corrects_iff (found desired : Claim) :
    (storageDrift found desired = none ↔ storage? found = storage? desired) ∧
    ∀ corrected, storageDrift found desired = some corrected →
      withoutStorage corrected = withoutStorage found ∧
      (storage? corrected = storage? desired ↔ storage? desired ≠ none) ∧
      (storageDrift corrected desired = none ↔ storage? desired ≠ none) ∧
      (storage? desired = none → corrected = found) := by
  constructor
  · exact storageDrift_eq_none
  · intro corrected h
    rw [storageDrift_eq_none]
    obtain ⟨hother, ⟨rfl, hnone⟩ | ⟨size, hsize, rfl⟩⟩ := storageDrift_eq_some h
    · have hbad : storage? corrected = storage? desired ↔ storage? desired ≠ none := by
        constructor
        · exact fun hsame => absurd hsame hother
        · exact fun hsome => absurd hnone hsome
      exact ⟨rfl, hbad, hbad, fun _ => rfl⟩
    · have hgood : storage? (withStorage found size) = storage? desired ↔
          storage? desired ≠ none := by
        rw [storage?_withStorage, hsize]
        simp
      refine ⟨withoutStorage_withStorage found size, hgood, hgood, ?_⟩
      intro hnone
      rw [hsize] at hnone
      cases hnone

/-- A claim that asks for the given resources. -/
def ofRequests (requests : List (String × String)) : Claim where
  metadata := { name := some "a-postgresql", ns := some "push" }
  spec := some { resources := some { requests := some (Dict.ofList requests) } }
  status := none

/-- A claim without a spec asks for no storage. -/
def unsizedClaim : Claim where
  metadata := { name := some "a-postgresql", ns := some "push" }
  spec := none
  status := none

theorem storageDrift_corrects_iff_unsizedClaim : ∃ corrected,
    storageDrift unsizedClaim (ofRequests [("storage", "9Gi")]) = some corrected ∧
      storage? corrected = some "9Gi" ∧
      withoutStorage corrected = withoutStorage unsizedClaim ∧
      storageDrift corrected (ofRequests [("storage", "9Gi")]) = none := by
  have hdrift : storageDrift unsizedClaim (ofRequests [("storage", "9Gi")]) =
      some (withStorage unsizedClaim "9Gi") := rfl
  have hwanted : storage? (ofRequests [("storage", "9Gi")]) = some "9Gi" := rfl
  obtain ⟨hrest, hstorage, hagain, -⟩ := (storageDrift_corrects_iff _ _).2 _ hdrift
  rw [hwanted] at hstorage hagain
  exact ⟨_, hdrift, hstorage.2 (by simp), hrest, hagain.2 (by simp)⟩

/-- Where no storage is wanted, a claim that asks for some has drifted, but it comes back with the
same storage and has drifted again. -/
theorem uncorrected_unsizedClaim : ∃ corrected,
    storageDrift (ofRequests [("other", "1"), ("storage", "5Gi")]) unsizedClaim = some corrected ∧
      storage? corrected = some "5Gi" ∧ storage? unsizedClaim = none ∧
      storageDrift corrected unsizedClaim = some corrected :=
  ⟨_, rfl, rfl, rfl, rfl⟩

end PushOperator.Claim
