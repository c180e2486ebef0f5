import Mathlib.Data.List.Nodup
import Mathlib.Tactic.Common
import PushOperator.Kind
import PushOperator.Registry

/-!
# What a registry lists

Recording a name adds it under its kind and nothing else, and forgetting it takes it out. Each name
stands under its kind once: recording keeps that, and so does forgetting, which only changes the
order of the other names.
-/

namespace PushOperator

/-- Setting the value that stands at a key already. -/
theorem Dict.insertEntry_self {β : Type} {key : String} {value : β} {l : List (String × β)}
    (sorted : l.Pairwise fun a b => a.1 < b.1) (h : findEntry key l = some value) :
    insertEntry key value l = l := by
  induction l with
  | nil => cases h
  | cons head rest ih =>
    obtain ⟨hhead, hrest⟩ := List.pairwise_cons.1 sorted
    unfold findEntry at h
    unfold insertEntry
    by_cases hkey : key = head.1
    · rw [if_pos hkey] at h
      obtain rfl : head.2 = value := Option.some.inj h
      have hlt : ¬key < head.1 := hkey ▸ String.lt_irrefl _
      rw [if_neg hlt, if_pos hkey, hkey]
    · rw [if_neg hkey] at h
      -- The key is among the rest, all of whose keys are larger than the first one.
      have hlt : head.1 < key := hhead _ (mem_of_findEntry h)
      have hnlt : ¬key < head.1 := fun hgt => String.lt_irrefl _ (String.lt_trans hlt hgt)
      rw [if_neg hnlt, if_neg hkey, ih hrest h]

theorem Dict.insert_self {β : Type} {d : Dict β} {key : String} {value : β}
    (h : d.get? key = some value) : d.insert key value = d := by
  obtain ⟨entries, sorted⟩ := d
  unfold Dict.insert
  simp only [Dict.insertEntry_self sorted h]

/-- Two dictionaries that hold the same under every key are equal. -/
theorem Dict.eq_of_get? {β : Type} {d d' : Dict β} (h : ∀ key, d.get? key = d'.get? key) :
    d = d' := by
  have hmem : ∀ entry, entry ∈ d.entries ↔ entry ∈ d'.entries := by
    rintro ⟨key, value⟩
    rw [← get?_eq_some_iff, ← get?_eq_some_iff, h]
  have hne {a b : String × β} (hlt : a.1 < b.1) : a ≠ b := by
    rintro rfl
    exact String.lt_irrefl _ hlt
  have hperm : d.entries.Perm d'.entries :=
    (List.perm_ext_iff_of_nodup (d.sorted.imp hne) (d'.sorted.imp hne)).2 hmem
  have heq : d.entries = d'.entries := by
    refine hperm.eq_of_pairwise (fun a b _ _ hab hba => ?_) d.sorted d'.sorted
    exact absurd (String.lt_trans hab hba) (String.lt_irrefl _)
  obtain ⟨entries, sorted⟩ := d
  subst heq
  rfl

/-- What was set at a key does not matter once the key is taken out. -/
theorem Dict.erase_insert {β : Type} (d : Dict β) (key : String) (value : β) :
    (d.insert key value).erase key = d.erase key := by
  apply Dict.eq_of_get?
  intro key'
  rw [Dict.get?_erase, Dict.get?_erase, Dict.get?_insert]
  by_cases h : key' = key
  · rw [if_pos h, if_pos h]
  · rw [if_neg h, if_neg h, if_neg h]

namespace Registry

variable {r : Registry} {kind kind' name name' : String}

/-! ## Recording -/

theorem names_empty (kind : String) : (∅ : Registry).names kind = [] := rfl

theorem contains_iff : r.contains kind name = true ↔ name ∈ r.names kind := by
  unfold contains
  rw [List.contains_iff_mem]

theorem names_add : (r.add kind name).names kind' =
    if kind' = kind then
      if name ∈ r.names kind then r.names kind else r.names kind ++ [name]
    else r.names kind' := by
  have hget : (r.add kind name).kinds.get? kind' = if kind' = kind then
      some (if (r.names kind).contains name then r.names kind else r.names kind ++ [name])
      else r.kinds.get? kind' := Dict.get?_insert _ _ _ _
  unfold names at hget ⊢
  rw [hget]
  by_cases hkind : kind' = kind
  · simp only [if_pos hkind, Option.getD_some, List.contains_iff_mem]
  · simp only [if_neg hkind]

/-- Recording a name adds it under its kind, and nothing else. -/
theorem contains_add : (r.add kind name).contains kind' name' = true ↔
    r.contains kind' name' = true ∨ kind' = kind ∧ name' = name := by
  rw [contains_iff, contains_iff, names_add]
  by_cases hkind : kind' = kind
  · subst hkind
    rw [if_pos rfl]
    split
    · next hmem =>
      refine ⟨.inl, ?_⟩
      rintro (hmem' | ⟨-, rfl⟩)
      · exact hmem'
      · exact hmem
    · simp
  · rw [if_neg hkind]
    simp [hkind]

/-- Records children in turn. -/
def addAll (r : Registry) (children : List (Kind × String)) : Registry :=
  children.foldl (fun r child => r.add child.1.name child.2) r

theorem contains_addAll {children : List (Kind × String)} :
    (r.addAll children).contains kind name = true ↔
      r.contains kind name = true ∨ ∃ k : Kind, k.name = kind ∧ (k, name) ∈ children := by
  induction children generalizing r with
  | nil => simp [addAll]
  | cons child children ih =>
    obtain ⟨k, name'⟩ := child
    have hcons : r.addAll ((k, name') :: children) = (r.add k.name name').addAll children := rfl
    rw [hcons, ih, contains_add, or_assoc]
    refine or_congr_right ⟨?_, ?_⟩
    · rintro (⟨rfl, rfl⟩ | ⟨k', hname, hmem⟩)
      · exact ⟨k, rfl, List.mem_cons_self⟩
      · exact ⟨k', hname, List.mem_cons_of_mem _ hmem⟩
    · rintro ⟨k', rfl, hmem⟩
      rcases List.mem_cons.1 hmem with heq | hmem'
      · obtain ⟨rfl, rfl⟩ := Prod.mk.inj heq
        exact .inl ⟨rfl, rfl⟩
      · exact .inr ⟨k', rfl, hmem'⟩

/-! ## Forgetting -/

theorem idxOf?_append_cons {before after : List String} (h : name ∉ before) :
    (before ++ name :: after).idxOf? name = some before.length := by
  induction before with
  | nil => simp [List.idxOf?_cons]
  | cons head before ih =>
    obtain ⟨hhead, hbefore⟩ := not_or.1 (List.mem_cons.not.1 h)
    rw [List.cons_append, List.idxOf?_cons, ih hbefore]
    simp [Ne.symm hhead]

/-- The last name takes the place of the one that is taken out. -/
theorem swapRemove_append_concat {before between : List String} {last : String}
    (h : name ∉ before) :
    swapRemove name (before ++ name :: (between ++ [last])) = before ++ last :: between := by
  have hlast : (before ++ name :: (between ++ [last])).getLastD name = last := by
    rw [← List.cons_append, ← List.append_assoc, List.getLastD_concat]
  unfold swapRemove
  rw [idxOf?_append_cons h, hlast]
  dsimp only
  rw [List.set_append_right _ _ (Nat.le_refl _), Nat.sub_self, List.set_cons_zero]
  rw [← List.cons_append, ← List.append_assoc, List.dropLast_concat]

/-- When it is the last name itself that is taken out, the names before it are left. -/
theorem swapRemove_concat {before : List String} (h : name ∉ before) :
    swapRemove name (before ++ [name]) = before := by
  unfold swapRemove
  rw [idxOf?_append_cons h]
  dsimp only
  rw [List.set_append_right _ _ (Nat.le_refl _), Nat.sub_self, List.set_cons_zero]
  exact List.dropLast_concat

/-- Taking a name out leaves the other names, perhaps in another order. -/
theorem swapRemove_perm (name : String) (names : List String) :
    (swapRemove name names).Perm (names.erase name) := by
  by_cases hmem : name ∈ names
  · obtain ⟨before, after, rfl, hbefore⟩ := List.eq_append_cons_of_mem hmem
    have herase : (before ++ name :: after).erase name = before ++ after := by
      rw [List.erase_append_right _ hbefore, List.erase_cons_head]
    rw [herase]
    -- The last name is the one that is taken out, or one that comes after it.
    rcases List.eq_nil_or_concat' after with rfl | ⟨between, last, rfl⟩
    · rw [swapRemove_concat hbefore, List.append_nil]
    · rw [swapRemove_append_concat hbefore]
      exact (List.perm_append_singleton last between).symm.append_left before
  · have hindex : names.idxOf? name = none := List.idxOf?_eq_none_iff.2 hmem
    unfold swapRemove
    rw [hindex, List.erase_of_not_mem hmem]

/-- A name that is not there is not taken out. -/
theorem swapRemove_of_not_mem {names : List String} (h : name ∉ names) :
    swapRemove name names = names := by
  unfold swapRemove
  rw [List.idxOf?_eq_none_iff.2 h]

theorem names_remove : (r.remove kind name).names kind' =
    if kind' = kind then swapRemove name (r.names kind) else r.names kind' := by
  unfold remove
  cases hget : r.kinds.get? kind with
  | none =>
    have hempty : r.names kind = [] := by
      unfold names
      rw [hget, Option.getD_none]
    by_cases hkind : kind' = kind
    · rw [if_pos hkind, hkind, hempty, swapRemove_of_not_mem List.not_mem_nil]
    · rw [if_neg hkind]
  | some known =>
    unfold names
    dsimp only
    rw [Dict.get?_insert, hget]
    split <;> rfl

/-- Forgetting a name that was not recorded changes nothing. -/
theorem remove_of_not_contains (h : r.contains kind name = false) : r.remove kind name = r := by
  have hnot : name ∉ r.names kind := fun hmem => by
    rw [contains_iff.2 hmem] at h
    cases h
  unfold remove
  cases hget : r.kinds.get? kind with
  | none => rfl
  | some known =>
    have hknown : r.names kind = known := by
      unfold names
      rw [hget, Option.getD_some]
    rw [hknown] at hnot
    dsimp only
    rw [swapRemove_of_not_mem hnot, Dict.insert_self hget]

/-! ## Names stand once -/

/-- Each name stands under its kind once. -/
def Distinct (r : Registry) : Prop := ∀ kind, (r.names kind).Nodup

theorem distinct_empty : (∅ : Registry).Distinct := fun kind => by
  rw [names_empty]
  exact List.nodup_nil

theorem Distinct.add (h : r.Distinct) (kind name : String) : (r.add kind name).Distinct := by
  intro kind'
  rw [names_add]
  split
  · split
    · exact h kind
    · next hnot =>
      have hsingle : [name].Nodup := List.nodup_singleton name
      refine (h kind).append hsingle ?_
      simpa using hnot
  · exact h kind'

theorem Distinct.addAll (h : r.Distinct) (children : List (Kind × String)) :
    (r.addAll children).Distinct := by
  induction children generalizing r with
  | nil => exact h
  | cons child children ih => exact ih (h.add child.1.name child.2)

theorem Distinct.remove (h : r.Distinct) (kind name : String) : (r.remove kind name).Distinct := by
  intro kind'
  rw [names_remove]
  split
  · exact (swapRemove_perm name _).nodup_iff.2 ((h kind).erase name)
  · exact h kind'

/-- Forgetting a name takes it out from under its kind, and nothing else. -/
theorem contains_remove (h : r.Distinct) : (r.remove kind name).contains kind' name' = true ↔
    r.contains kind' name' = true ∧ ¬(kind' = kind ∧ name' = name) := by
  rw [contains_iff, contains_iff, names_remove]
  by_cases hkind : kind' = kind
  · subst hkind
    rw [if_pos rfl, (swapRemove_perm name _).mem_iff, (h kind').mem_erase_iff]
    simp [and_comm]
  · rw [if_neg hkind]
    simp [hkind]

end Registry

end PushOperator
