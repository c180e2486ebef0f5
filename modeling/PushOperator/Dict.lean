/-!
# Dictionaries

A dictionary maps strings to values. Its entries stand in ascending order of their keys, so two
dictionaries are equal exactly when they hold the same values under the same keys. Labels,
annotations, quantities, secret data and the registry of children are dictionaries.
-/

namespace PushOperator

universe u v

/-- A finite map from strings, kept as entries in ascending order of their keys. -/
structure Dict (β : Type u) where
  entries : List (String × β)
  sorted : entries.Pairwise (fun a b => a.1 < b.1)
  deriving DecidableEq

namespace Dict

variable {β : Type u} {γ : Type v}

/-! ## Entries in key order -/

/-- Puts `value` at `key`, before the first larger key and in place of an equal one. -/
def insertEntry (key : String) (value : β) : List (String × β) → List (String × β)
  | [] => [(key, value)]
  | entry :: rest =>
    if key < entry.1 then (key, value) :: entry :: rest
    else if key = entry.1 then (key, value) :: rest
    else entry :: insertEntry key value rest

def findEntry (key : String) : List (String × β) → Option β
  | [] => none
  | entry :: rest => if key = entry.1 then some entry.2 else findEntry key rest

theorem mem_insertEntry {key : String} {value : β} {entry : String × β} {l : List (String × β)}
    (h : entry ∈ insertEntry key value l) : entry = (key, value) ∨ entry ∈ l := by
  induction l with
  | nil => simpa [insertEntry] using h
  | cons head rest ih =>
    unfold insertEntry at h
    split at h
    · simpa using h
    · split at h
      · rcases List.mem_cons.1 h with h | h
        · exact .inl h
        · exact .inr (List.mem_cons_of_mem _ h)
      · rcases List.mem_cons.1 h with h | h
        · exact .inr (h ▸ List.mem_cons_self)
        · exact (ih h).imp id (List.mem_cons_of_mem _)

theorem lt_of_not_lt_of_ne {a b : String} (h : ¬a < b) (hne : a ≠ b) : b < a :=
  Decidable.byContradiction fun h' =>
    hne (String.le_antisymm (String.not_lt.1 h') (String.not_lt.1 h))

theorem pairwise_insertEntry (key : String) (value : β) {l : List (String × β)}
    (h : l.Pairwise (fun a b => a.1 < b.1)) :
    (insertEntry key value l).Pairwise (fun a b => a.1 < b.1) := by
  induction l with
  | nil => simp [insertEntry]
  | cons head rest ih =>
    have ⟨hhead, hrest⟩ := List.pairwise_cons.1 h
    unfold insertEntry
    split
    · next hlt =>
      refine List.pairwise_cons.2 ⟨fun entry hmem => ?_, h⟩
      rcases List.mem_cons.1 hmem with rfl | hmem
      · exact hlt
      · exact String.lt_trans hlt (hhead entry hmem)
    · next hnlt =>
      split
      · next heq => exact List.pairwise_cons.2 ⟨fun entry hmem => heq ▸ hhead entry hmem, hrest⟩
      · next hne =>
        refine List.pairwise_cons.2 ⟨fun entry hmem => ?_, ih hrest⟩
        rcases mem_insertEntry hmem with rfl | hmem
        · exact lt_of_not_lt_of_ne hnlt hne
        · exact hhead entry hmem

theorem findEntry_insertEntry (key key' : String) (value : β) (l : List (String × β)) :
    findEntry key' (insertEntry key value l) =
      if key' = key then some value else findEntry key' l := by
  induction l with
  | nil => rfl
  | cons head rest ih =>
    unfold insertEntry
    split
    · rfl
    · split
      · next heq =>
        by_cases h : key' = key
        · simp [findEntry, h]
        · simp [findEntry, h, ← heq]
      · next hne =>
        by_cases h : key' = key
        · subst h
          simp [findEntry, hne, ih]
        · simp [findEntry, h, ih]

theorem findEntry_filter_ne (key key' : String) (l : List (String × β)) :
    findEntry key' (l.filter (·.1 ≠ key)) = if key' = key then none else findEntry key' l := by
  induction l with
  | nil => simp [findEntry]
  | cons head rest ih =>
    rw [List.filter_cons]
    split
    · next h =>
      have h : head.1 ≠ key := by simpa using h
      by_cases h' : key' = head.1
      · simp [findEntry, h', h]
      · unfold findEntry
        rw [if_neg h', if_neg h', ih]
    · next h =>
      have h : head.1 = key := by simpa using h
      rw [ih]
      by_cases h' : key' = key
      · simp [h']
      · simp [findEntry, h', h]

theorem mem_of_findEntry {key : String} {value : β} {l : List (String × β)}
    (h : findEntry key l = some value) : (key, value) ∈ l := by
  induction l with
  | nil => simp [findEntry] at h
  | cons head rest ih =>
    unfold findEntry at h
    split at h
    · next heq =>
      obtain rfl : head.2 = value := by simpa using h
      exact heq ▸ List.mem_cons_self
    · exact List.mem_cons_of_mem _ (ih h)

/-- In ascending entries every value is found at its key. -/
theorem findEntry_of_mem {key : String} {value : β} {l : List (String × β)}
    (sorted : l.Pairwise (fun a b => a.1 < b.1)) (h : (key, value) ∈ l) :
    findEntry key l = some value := by
  induction l with
  | nil => simp at h
  | cons head rest ih =>
    have ⟨hhead, hrest⟩ := List.pairwise_cons.1 sorted
    rcases List.mem_cons.1 h with rfl | h
    · simp [findEntry]
    · have hlt : head.1 < key := hhead _ h
      have hne : key ≠ head.1 := fun e => String.lt_irrefl _ (e ▸ hlt)
      simp [findEntry, hne, ih hrest h]

/-! ## Dictionaries -/

def empty : Dict β := ⟨[], .nil⟩

instance : EmptyCollection (Dict β) := ⟨empty⟩

instance : Inhabited (Dict β) := ⟨empty⟩

def get? (d : Dict β) (key : String) : Option β := findEntry key d.entries

def contains (d : Dict β) (key : String) : Bool := (d.get? key).isSome

def isEmpty (d : Dict β) : Bool := d.entries.isEmpty

def insert (d : Dict β) (key : String) (value : β) : Dict β :=
  ⟨insertEntry key value d.entries, pairwise_insertEntry key value d.sorted⟩

def erase (d : Dict β) (key : String) : Dict β :=
  ⟨d.entries.filter (·.1 ≠ key), d.sorted.filter _⟩

def keys (d : Dict β) : List String := d.entries.map (·.1)

def values (d : Dict β) : List β := d.entries.map (·.2)

/-- Sets all given values; of two under one key the later wins. -/
def insertAll (d : Dict β) (entries : List (String × β)) : Dict β :=
  entries.foldl (fun d entry => d.insert entry.1 entry.2) d

/-- The dictionary of the given values; of two under one key the later wins. -/
def ofList (entries : List (String × β)) : Dict β := empty.insertAll entries

/-! ## What is found where -/

@[simp]
theorem get?_empty (key : String) : (∅ : Dict β).get? key = none := rfl

theorem get?_insert (d : Dict β) (key key' : String) (value : β) :
    (d.insert key value).get? key' = if key' = key then some value else d.get? key' :=
  findEntry_insertEntry key key' value d.entries

theorem get?_erase (d : Dict β) (key key' : String) :
    (d.erase key).get? key' = if key' = key then none else d.get? key' :=
  findEntry_filter_ne key key' d.entries

theorem get?_eq_some_iff {d : Dict β} {key : String} {value : β} :
    d.get? key = some value ↔ (key, value) ∈ d.entries :=
  ⟨mem_of_findEntry, findEntry_of_mem d.sorted⟩

theorem mem_keys_iff {d : Dict β} {key : String} : key ∈ d.keys ↔ d.contains key = true := by
  unfold contains
  rw [Option.isSome_iff_exists]
  simp [keys, get?_eq_some_iff]

/-! ## Values -/

def map (f : β → γ) (d : Dict β) : Dict γ :=
  ⟨d.entries.map fun entry => (entry.1, f entry.2), by
    simpa [List.pairwise_map] using d.sorted⟩

end Dict

end PushOperator
