import Mathlib.Data.List.Induction
import Mathlib.Tactic.Common
import PushOperator.Proofs.Registry

/-!
# Entries of dictionaries

What a dictionary made of entries holds: under each key the last value that is given for it.
-/

namespace PushOperator.Dict

variable {β : Type}

/-- The values that entries give for a key, in their order. -/
def given (entries : List (String × β)) (key : String) : List β :=
  entries.filterMap fun entry => if entry.1 = key then some entry.2 else none

theorem given_append (a b : List (String × β)) (key : String) :
    given (a ++ b) key = given a key ++ given b key := List.filterMap_append

theorem given_eq_nil {entries : List (String × β)} {key : String}
    (h : ∀ entry ∈ entries, entry.1 ≠ key) : given entries key = [] :=
  List.filterMap_eq_nil_iff.2 fun entry hmem => if_neg (h entry hmem)

/-- A dictionary gives one value for a key at most. -/
theorem given_entries (d : Dict β) (key : String) : given d.entries key = (d.get? key).toList := by
  obtain ⟨entries, sorted⟩ := d
  show given entries key = (findEntry key entries).toList
  induction entries with
  | nil => rfl
  | cons head rest ih =>
    obtain ⟨hhead, hrest⟩ := List.pairwise_cons.1 sorted
    unfold findEntry
    by_cases hkey : key = head.1
    · subst hkey
      have hnone : given rest head.1 = [] := given_eq_nil fun entry hmem heq =>
        String.lt_irrefl _ (heq ▸ hhead entry hmem)
      rw [if_pos rfl, given, List.filterMap_cons, if_pos rfl]
      exact congrArg _ hnone
    · rw [if_neg hkey, given, List.filterMap_cons, if_neg (Ne.symm hkey)]
      exact ih hrest

/-- Of several values for a key the last one wins. -/
theorem get?_ofList (entries : List (String × β)) (key : String) :
    (ofList entries).get? key = (given entries key).getLast? := by
  induction entries using List.reverseRecOn with
  | nil => rfl
  | append_singleton entries entry ih =>
    have hinsert : ofList (entries ++ [entry]) = (ofList entries).insert entry.1 entry.2 := by
      unfold ofList insertAll
      rw [List.foldl_append]
      rfl
    rw [hinsert, get?_insert, ih, given_append]
    by_cases hkey : key = entry.1
    · simp [given, hkey]
    · simp [given, hkey, Ne.symm hkey]

/-- The entries of a dictionary make that dictionary. -/
theorem ofList_entries (d : Dict β) : ofList d.entries = d := by
  refine eq_of_get? fun key => ?_
  rw [get?_ofList, given_entries]
  cases d.get? key <;> rfl

/-- What a dictionary holds was given to it. -/
theorem mem_of_mem_ofList {entries : List (String × β)} {entry : String × β}
    (h : entry ∈ (ofList entries).entries) : entry ∈ entries := by
  have hget : (ofList entries).get? entry.1 = some entry.2 := get?_eq_some_iff.2 h
  rw [get?_ofList] at hget
  obtain ⟨entry', hmem, heq⟩ := List.mem_filterMap.1 (List.mem_of_getLast? hget)
  split at heq
  · next hkey =>
    rwa [Prod.ext hkey (Option.some.inj heq)] at hmem
  · cases heq

end PushOperator.Dict
