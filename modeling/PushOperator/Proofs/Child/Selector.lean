import Mathlib.Tactic.Common
import PushOperator.Child.Backup
import PushOperator.Cluster.Basic

/-!
# The selector of the children

The selector that a server makes for its children matches exactly the labels that name the server
and the child, as long as there is no comma in the name of the server. The labels of a backup job
are among them, whatever labels the backup brings along.
-/

namespace PushOperator

open Child Cluster

/-- A part `key=value` of a selector asks for that value. -/
theorem Cluster.meets_pair {labels : Dict String} {key value : String} (hkey : '=' ∉ key.toList) :
    meets labels (key ++ "=" ++ value) = true ↔ labels.get? key = some value := by
  have hlist : (key ++ "=" ++ value).toList = key.toList ++ '=' :: value.toList := by
    simp
  have hbefore : ∀ x ∈ key.toList, decide (x ≠ '=') = true := by
    intro x hx
    have hne : x ≠ '=' := fun h => hkey (h ▸ hx)
    simpa using hne
  have htake : (key ++ "=" ++ value).toList.takeWhile (· ≠ '=') = key.toList := by
    rw [hlist, List.takeWhile_append_of_pos hbefore]
    simp
  have hdrop : (key ++ "=" ++ value).toList.dropWhile (· ≠ '=') = '=' :: value.toList := by
    rw [hlist, List.dropWhile_append_of_pos hbefore]
    simp
  have hne : key ++ "=" ++ value ≠ "" := by
    intro h
    have hempty := congrArg String.toList h
    rw [hlist] at hempty
    simp at hempty
  unfold meets
  rw [if_neg hne, htake, hdrop]
  simp

namespace Child

variable {server : Server} {suffix : String}

/-- The labels of a child, as they stand in the dictionary. -/
theorem entries_labels : (labels server suffix).entries =
    [("app", server.anyName), ("service", childName server suffix)] := by
  have hlt : ¬"service" < "app" := by decide
  simp [labels, Dict.ofList, Dict.insertAll, Dict.empty, Dict.insert, Dict.insertEntry, hlt]

/-- What the selector of a child asks for. -/
theorem selects_selector {found : Dict String} (hname : ',' ∉ server.anyName.toList)
    (hsuffix : ',' ∉ suffix.toList) :
    selects (selector server suffix) found = true ↔ found.get? "app" = some server.anyName ∧
      found.get? "service" = some (childName server suffix) := by
  have happ : ',' ∉ ("app" ++ "=" ++ server.anyName).toList := by
    simpa using hname
  have hservice : ',' ∉ ("service" ++ "=" ++ childName server suffix).toList := by
    simpa [childName] using ⟨hname, hsuffix⟩
  have hsplit : (selector server suffix).toList.splitOn ',' =
      [("app" ++ "=" ++ server.anyName).toList,
        ("service" ++ "=" ++ childName server suffix).toList] := by
    rw [selector, entries_labels, String.toList_intercalate]
    refine List.splitOn_intercalate ',' ?_ (by simp)
    intro part hpart
    simp only [List.map_cons, List.map_nil, List.mem_cons, List.not_mem_nil, or_false] at hpart
    rcases hpart with rfl | rfl
    · exact happ
    · exact hservice
  unfold selects
  rw [hsplit]
  simp only [List.map_cons, List.map_nil, String.ofList_toList, List.all_cons, List.all_nil,
    Bool.and_true, Bool.and_eq_true]
  rw [meets_pair (by decide), meets_pair (by decide)]

/-- The selector is a matter of the name of the server. -/
theorem selector_congr {server' : Server} (h : server'.anyName = server.anyName) :
    selector server' suffix = selector server suffix := by
  unfold selector labels childName
  rw [h]

/-- The labels of a backup job name the server, whatever labels the backup brings along. -/
theorem selects_jobLabels (hname : ',' ∉ server.anyName.toList) (backup : Backup) :
    selects (selector server Child.backup) (Backup.jobLabels server backup) = true := by
  rw [selects_selector hname (by decide)]
  unfold Backup.jobLabels
  rw [entries_labels]
  simp [Dict.insertAll, Dict.get?_insert]

/-- A selector that asks for nothing matches all labels. -/
theorem selects_empty (found : Dict String) : selects "" found = true := by
  simp [selects, meets]

end Child

end PushOperator
