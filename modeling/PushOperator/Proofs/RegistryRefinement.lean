import Mathlib.Data.Finset.Basic
import Mathlib.Data.List.Induction
import PushOperator.Proofs.Registry

/-!
# The registry as a set of pairs

A registry that starts out empty and is then changed by recording and forgetting stands for a set of
pairs of a kind and a name: recording puts a pair into the set, and forgetting takes it out
(`represents_after`). So a name is listed exactly when the last change to it was to record it
(`mem_pairsAfter_iff`). A registry also has an order of its names, which a set does not show, and
forgetting disturbs it in one place only (`refines_of_changes`).
-/

namespace PushOperator.Registry

/-! ## Changes in a row -/

/-- A change to a registry. -/
inductive Change where
  | add (kind name : String)
  | remove (kind name : String)
  deriving DecidableEq

namespace Change

/-- The kind and the name that are recorded or forgotten. -/
def pair : Change → String × String
  | add kind name | remove kind name => (kind, name)

/-- What becomes of a registry. -/
def apply (r : Registry) : Change → Registry
  | add kind name => r.add kind name
  | remove kind name => r.remove kind name

/-- What becomes of a set of pairs. -/
def onPairs (pairs : Finset (String × String)) : Change → Finset (String × String)
  | add kind name => insert (kind, name) pairs
  | remove kind name => pairs.erase (kind, name)

end Change

/-- The registry that changes lead to from the empty one. -/
def after (changes : List Change) : Registry := changes.foldl Change.apply ∅

/-- The set of pairs that changes lead to from the empty one. -/
def pairsAfter (changes : List Change) : Finset (String × String) :=
  changes.foldl Change.onPairs ∅

/-- The last of the changes to a pair. -/
def lastTo (pair : String × String) (changes : List Change) : Option Change :=
  (changes.filter (·.pair = pair)).getLast?

variable {r : Registry} {pairs : Finset (String × String)} {changes : List Change}
  {kind kind' name last : String} {before between : List String}

theorem after_concat (changes : List Change) (change : Change) :
    after (changes ++ [change]) = change.apply (after changes) := by
  unfold after
  rw [List.foldl_append]
  rfl

theorem pairsAfter_concat (changes : List Change) (change : Change) :
    pairsAfter (changes ++ [change]) = change.onPairs (pairsAfter changes) := by
  unfold pairsAfter
  rw [List.foldl_append]
  rfl

theorem lastTo_concat (pair : String × String) (changes : List Change) (change : Change) :
    lastTo pair (changes ++ [change]) =
      if change.pair = pair then some change else lastTo pair changes := by
  unfold lastTo
  rw [List.filter_append]
  by_cases hpair : change.pair = pair
  · simp [hpair]
  · simp [hpair]

/-! ## The set that a registry stands for -/

/-- The registry lists each pair of the set once and nothing else. -/
structure Represents (r : Registry) (pairs : Finset (String × String)) : Prop where
  distinct : r.Distinct
  contains_iff : ∀ kind name, r.contains kind name = true ↔ (kind, name) ∈ pairs

theorem represents_empty : (∅ : Registry).Represents ∅ where
  distinct := distinct_empty
  contains_iff kind name := by
    rw [contains_iff, names_empty]
    simp

/-- A registry and its set take a change in step. -/
theorem Represents.apply (h : r.Represents pairs) (change : Change) :
    (change.apply r).Represents (change.onPairs pairs) := by
  cases change with
  | add kind name =>
    refine ⟨h.distinct.add kind name, fun kind' name' => ?_⟩
    show (r.add kind name).contains kind' name' = true ↔ (kind', name') ∈ insert (kind, name) pairs
    rw [contains_add, h.contains_iff, Finset.mem_insert, Prod.mk.injEq, or_comm]
  | remove kind name =>
    refine ⟨h.distinct.remove kind name, fun kind' name' => ?_⟩
    show (r.remove kind name).contains kind' name' = true ↔
      (kind', name') ∈ pairs.erase (kind, name)
    rw [contains_remove h.distinct, h.contains_iff, Finset.mem_erase, ne_eq, Prod.mk.injEq,
      and_comm]

/-- So they agree after any number of changes. -/
theorem represents_after (changes : List Change) :
    (after changes).Represents (pairsAfter changes) := by
  induction changes using List.reverseRecOn with
  | nil => exact represents_empty
  | append_singleton changes change ih =>
    rw [after_concat, pairsAfter_concat]
    exact ih.apply change

/-- A pair is in the set exactly when the last change to it has put it there. -/
theorem mem_pairsAfter_iff :
    (kind, name) ∈ pairsAfter changes ↔ lastTo (kind, name) changes = some (.add kind name) := by
  induction changes using List.reverseRecOn with
  | nil => simp [pairsAfter, lastTo]
  | append_singleton changes change ih =>
    rw [pairsAfter_concat, lastTo_concat]
    cases change with
    | add kind' name' =>
      show (kind, name) ∈ insert (kind', name') (pairsAfter changes) ↔ _
      rw [Finset.mem_insert, ih]
      by_cases hpair : (kind', name') = (kind, name)
      · obtain ⟨rfl, rfl⟩ := Prod.mk.inj hpair
        simp [Change.pair]
      · simp [Change.pair, hpair, Ne.symm hpair]
    | remove kind' name' =>
      show (kind, name) ∈ (pairsAfter changes).erase (kind', name') ↔ _
      rw [Finset.mem_erase, ih]
      by_cases hpair : (kind', name') = (kind, name)
      · simp [Change.pair, hpair]
      · simp [Change.pair, hpair, Ne.symm hpair]

/-! ## The order of the names -/

/-- A change only concerns the names of its own kind. -/
theorem names_apply_of_ne (r : Registry) {change : Change} (h : kind ≠ change.pair.1) :
    (change.apply r).names kind = r.names kind := by
  cases change with
  | add kind' name => exact names_add.trans (if_neg h)
  | remove kind' name => exact names_remove.trans (if_neg h)

/-- Recording a name that is listed already changes nothing. -/
theorem add_of_contains (h : r.contains kind name = true) : r.add kind name = r := by
  have hmem : name ∈ r.names kind := contains_iff.1 h
  have hget : r.kinds.get? kind = some (r.names kind) := by
    unfold names at hmem ⊢
    cases hget : r.kinds.get? kind with
    | none =>
      rw [hget] at hmem
      cases hmem
    | some known => rfl
  unfold add
  dsimp only
  rw [if_pos (List.contains_iff_mem.2 hmem), Dict.insert_self hget]

/-- A new name comes last. -/
theorem names_add_concat (hnew : r.contains kind name = false) :
    (r.add kind name).names kind = r.names kind ++ [name] := by
  have hnot : name ∉ r.names kind := by
    rw [← contains_iff, hnew]
    exact Bool.false_ne_true
  rw [names_add, if_pos rfl, if_neg hnot]

theorem names_remove_self : (r.remove kind name).names kind = swapRemove name (r.names kind) :=
  names_remove.trans (if_pos rfl)

/-- The last name that is listed is forgotten without a trace. -/
theorem names_remove_concat (h : r.Distinct) (hnames : r.names kind = before ++ [name]) :
    (r.remove kind name).names kind = before := by
  have hnodup : (before ++ [name]).Nodup := hnames ▸ h kind
  rw [names_remove_self, hnames]
  exact swapRemove_concat fun hmem => List.disjoint_of_nodup_append hnodup hmem (by simp)

/-- In the place of any other name comes the last one, and those before and between stay. -/
theorem names_remove_append_concat (h : r.Distinct)
    (hnames : r.names kind = before ++ name :: (between ++ [last])) :
    (r.remove kind name).names kind = before ++ last :: between := by
  have hnodup : (before ++ name :: (between ++ [last])).Nodup := hnames ▸ h kind
  rw [names_remove_self, hnames]
  exact swapRemove_append_concat fun hmem =>
    List.disjoint_of_nodup_append hnodup hmem List.mem_cons_self

/-- Recording a new name and forgetting it again leaves the names as they were. The kind may be new
to the registry, and then it stays there without names. -/
theorem names_remove_add (h : r.Distinct) (hnew : r.contains kind name = false) (kind' : String) :
    ((r.add kind name).remove kind name).names kind' = r.names kind' := by
  by_cases hkind : kind' = kind
  · subst hkind
    exact names_remove_concat (h.add kind' name) (names_add_concat hnew)
  · rw [names_remove, if_neg hkind, names_add, if_neg hkind]

/-! ## The main statement -/

/-- What a registry is like after changes: which names it lists, and what another change does to
them and to their order. -/
structure Refines (r : Registry) (changes : List Change) : Prop where
  distinct : ∀ kind, (r.names kind).Nodup
  pairs : ∀ kind name, r.contains kind name = true ↔ (kind, name) ∈ pairsAfter changes
  last : ∀ kind name,
    r.contains kind name = true ↔ lastTo (kind, name) changes = some (.add kind name)
  others : ∀ (change : Change) kind, kind ≠ change.pair.1 →
    (change.apply r).names kind = r.names kind
  known : ∀ kind name, r.contains kind name = true → r.add kind name = r
  unknown : ∀ kind name, r.contains kind name = false → r.remove kind name = r
  appended : ∀ kind name, r.contains kind name = false →
    (r.add kind name).names kind = r.names kind ++ [name]
  dropped : ∀ kind name before, r.names kind = before ++ [name] →
    (r.remove kind name).names kind = before
  moved : ∀ kind name before between last,
    r.names kind = before ++ name :: (between ++ [last]) →
      (r.remove kind name).names kind = before ++ last :: between
  restored : ∀ kind name, r.contains kind name = false → ∀ kind',
    ((r.add kind name).remove kind name).names kind' = r.names kind'

/-- Whatever names have been recorded and forgotten, in whatever order: the registry lists each name
once whose last change was to record it. Another change leaves the other kinds alone, and a needless
one everything. A new name comes last. Forgetting a name puts the last one of its kind into its
place and leaves the rest, so that forgetting a new name undoes that it was recorded. -/
theorem refines_of_changes (changes : List Change) : (after changes).Refines changes where
  distinct := (represents_after changes).distinct
  pairs := (represents_after changes).contains_iff
  last kind name := by
    rw [(represents_after changes).contains_iff, mem_pairsAfter_iff]
  others change kind h := names_apply_of_ne _ h
  known kind name h := add_of_contains h
  unknown kind name h := remove_of_not_contains h
  appended kind name h := names_add_concat h
  dropped kind name before h := names_remove_concat (represents_after changes).distinct h
  moved kind name before between last h :=
    names_remove_append_concat (represents_after changes).distinct h
  restored kind name h kind' := names_remove_add (represents_after changes).distinct h kind'

/-- The first of three names is forgotten, and the last one takes its place. -/
example : (after [.add "Secret" "a", .add "Secret" "b", .add "Secret" "c", .add "Route" "a",
    .remove "Secret" "a"]).names "Secret" = ["c", "b"] := by
  decide

end PushOperator.Registry
