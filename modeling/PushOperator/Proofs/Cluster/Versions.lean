import PushOperator.Proofs.Cluster.World
import PushOperator.Proofs.Interaction.Grounds

/-!
# Versions

A cluster stamps every object that it stores with a version of its own, and whatever anybody writes,
no version is ever given again. So an object of which some version was read is still the same if it
still has that version, and then nothing newer of it has been seen (`recent_of_steps`). This holds
for any interaction, whatever others do between its calls.
-/

namespace PushOperator

open Cluster

/-! ## What a trace shows -/

/-- An object of any kind. -/
abbrev AnyObject := (k : Kind) × Object k

/-- The objects that an answer shows: what was read, and what a write has left. -/
def Entry.shows : Entry → List AnyObject
  | .call (.get k _ _) (.ok (some o)) => [⟨k, o⟩]
  | .call (.list k _ _) (.ok os) => os.map fun o => ⟨k, o⟩
  | .call (.create k _) (.ok o) | .call (.update k _) (.ok o) | .call (.updateStatus k _) (.ok o) =>
    [⟨k, o⟩]
  | _ => []

/-- All objects that a trace shows, in the order in which they were seen. -/
def shown (t : Trace) : List AnyObject := t.flatMap Entry.shows

/-- Whether an object belongs at a place. -/
def AnyObject.isAt (k : Kind) (ns name : String) (p : AnyObject) : Bool :=
  decide (p.1 = k ∧ nsOf p.2 = ns ∧ nameOf p.2 = name)

/-- What was seen last of a place. -/
def lastShown (t : Trace) (k : Kind) (ns name : String) : Option AnyObject :=
  (shown t).reverse.find? (AnyObject.isAt k ns name)

theorem shown_concat (t : Trace) (e : Entry) : shown (t ++ [e]) = shown t ++ e.shows := by
  simp [shown]

theorem mem_shown_of_entry {t : Trace} {e : Entry} {p : AnyObject} (he : e ∈ t) (hp : p ∈ e.shows) :
    p ∈ shown t :=
  List.mem_flatMap.2 ⟨e, he, hp⟩

theorem lastShown_concat (t : Trace) (e : Entry) (k : Kind) (ns name : String) :
    lastShown (t ++ [e]) k ns name =
      (e.shows.reverse.find? (AnyObject.isAt k ns name)).or (lastShown t k ns name) := by
  rw [lastShown, shown_concat, List.reverse_append, List.find?_append]
  rfl

/-- What an answer says of the places of objects: what is fetched is fetched from its place, and a
status that is written changes no place. -/
def Entry.InPlace : Entry → Prop
  | .call (.get _ ns name) (.ok (some o)) => nsOf o = ns ∧ nameOf o = name
  | .call (.updateStatus _ o) (.ok o') => nsOf o' = nsOf o ∧ nameOf o' = nameOf o
  | _ => True

namespace Cluster

variable {α : Type} {k k' : Kind} {c c' : Cluster} {ns name : String}

/-! ## Clusters that stamp -/

/-- Every object is stored under its own namespace and name. An object without one of them counts as
having an empty one. -/
def Keyed (c : Cluster) : Prop :=
  ∀ k ns name (o : Object k), c.get? k ns name = some o → nsOf o = ns ∧ nameOf o = name

/-- Every object is stored under its own namespace and name, with a uid and with a version that no
other object of its kind has. -/
structure Stamped (c : Cluster) : Prop where
  keyed : c.Keyed
  uid : ∀ k ns name (o : Object k), c.get? k ns name = some o → o.metadata.uid ≠ none
  version : ∀ k ns name (o : Object k), c.get? k ns name = some o →
    ∃ n ≤ c.revision, o.metadata.resourceVersion = some (toString n)
  apart : ∀ k ns name ns' name' (o o' : Object k), c.get? k ns name = some o →
    c.get? k ns' name' = some o' → o.metadata.resourceVersion = o'.metadata.resourceVersion →
      ns = ns' ∧ name = name'

theorem stamped_empty : empty.Stamped where
  keyed _ _ _ _ h := nomatch h
  uid _ _ _ _ h := nomatch h
  version _ _ _ _ h := nomatch h
  apart _ _ _ _ _ _ _ h := nomatch h

/-- Different revisions are different versions. -/
theorem eq_of_toString_eq {n m : Nat} (h : toString n = toString m) : n = m := by
  rw [Nat.toString_eq_ofList_toDigits, Nat.toString_eq_ofList_toDigits, String.ofList_inj] at h
  have hvalue := congrArg (Nat.ofDigitChars 10 · 0) h
  rwa [Nat.ofDigitChars_ten_toDigits, Nat.ofDigitChars_ten_toDigits] at hvalue

/-- The next revision is the version of no object that was there. -/
theorem ne_version_succ {o : Object k} {n m : Nat} (hle : n ≤ m)
    (hversion : o.metadata.resourceVersion = some (toString n)) :
    o.metadata.resourceVersion ≠ some (toString (m + 1)) := by
  intro h
  rw [hversion] at h
  obtain rfl := eq_of_toString_eq (Option.some.inj h)
  exact Nat.not_succ_le_self m hle

theorem Keyed.store (hc : c.Keyed) (o : Object k) :
    (c.store (nsOf o) (nameOf o) o).2.Keyed := by
  intro k' ns' name' o' h
  rcases get?_store_cases h with ⟨rfl, rfl, rfl, rfl⟩ | hbefore
  · exact ⟨rfl, rfl⟩
  · exact hc k' ns' name' o' hbefore

theorem Stamped.store (hc : c.Stamped) (o : Object k) :
    (c.store (nsOf o) (nameOf o) o).2.Stamped where
  keyed := hc.keyed.store o
  uid := by
    intro k' ns' name' o' h
    rcases get?_store_cases h with ⟨rfl, rfl, -, -⟩ | hbefore
    · exact Option.some_ne_none _
    · exact hc.uid k' ns' name' o' hbefore
  version := by
    intro k' ns' name' o' h
    rcases get?_store_cases h with ⟨rfl, rfl, -, -⟩ | hbefore
    · exact ⟨c.revision + 1, Nat.le_refl _, rfl⟩
    · obtain ⟨n, hle, hversion⟩ := hc.version k' ns' name' o' hbefore
      exact ⟨n, Nat.le_succ_of_le hle, hversion⟩
  apart := by
    intro k' ns₁ name₁ ns₂ name₂ o₁ o₂ h₁ h₂ hsame
    -- An object that was there before does not have the version of the new one.
    have hold {ns' name' : String} {o' : Object k'} (h : c.get? k' ns' name' = some o') :
        o'.metadata.resourceVersion ≠ some (toString (c.revision + 1)) := by
      obtain ⟨n, hle, hversion⟩ := hc.version k' ns' name' o' h
      exact ne_version_succ hle hversion
    rcases get?_store_cases h₁ with ⟨rfl, rfl, rfl, rfl⟩ | hbefore₁
    · rcases get?_store_cases h₂ with ⟨-, rfl, rfl, rfl⟩ | hbefore₂
      · exact ⟨rfl, rfl⟩
      · exact absurd hsame.symm (hold hbefore₂)
    · rcases get?_store_cases h₂ with ⟨rfl, rfl, -, -⟩ | hbefore₂
      · exact absurd hsame (hold hbefore₁)
      · exact hc.apart k' ns₁ name₁ ns₂ name₂ o₁ o₂ hbefore₁ hbefore₂ hsame

theorem Stamped.remove (hc : c.Stamped) (k : Kind) (ns name : String) :
    (c.remove k ns name).Stamped where
  keyed k' ns' name' o h := hc.keyed k' ns' name' o (get?_of_remove h)
  uid k' ns' name' o h := hc.uid k' ns' name' o (get?_of_remove h)
  version k' ns' name' o h := hc.version k' ns' name' o (get?_of_remove h)
  apart k' ns₁ name₁ ns₂ name₂ o₁ o₂ h₁ h₂ hsame :=
    hc.apart k' ns₁ name₁ ns₂ name₂ o₁ o₂ (get?_of_remove h₁) (get?_of_remove h₂) hsame

/-! ## What becomes of a cluster -/

/-- What may become of a cluster when anybody writes anything: objects are stored, in new places or
over others, and taken away. -/
inductive Becomes (c : Cluster) : Cluster → Prop
  | refl : Becomes c c
  | store {c' : Cluster} {k : Kind} (o : Object k) :
    Becomes c c' → Becomes c (c'.store (nsOf o) (nameOf o) o).2
  | remove {c' : Cluster} (k : Kind) (ns name : String) :
    Becomes c c' → Becomes c (c'.remove k ns name)

theorem Becomes.keyed (h : Becomes c c') (hc : c.Keyed) : c'.Keyed := by
  induction h with
  | refl => exact hc
  | store o _ ih => exact ih.store o
  | remove k ns name _ ih =>
    exact fun k' ns' name' o h => ih k' ns' name' o (get?_of_remove h)

theorem Becomes.stamped (h : Becomes c c') (hc : c.Stamped) : c'.Stamped := by
  induction h with
  | refl => exact hc
  | store o _ ih => exact ih.store o
  | remove k ns name _ ih => exact ih.remove k ns name

/-- An object that goes where it belongs is as good as stored by anybody. -/
theorem becomes_store {o : Object k} (hns : nsOf o = ns) (hname : nameOf o = name) :
    Becomes c (c.store ns name o).2 := by
  subst hns hname
  exact .store o .refl

theorem becomes_replace {o : Object k} {merged : Object k → Object k}
    (hplace : ∀ stored, c.get? k (nsOf o) (nameOf o) = some stored →
      nsOf (merged stored) = nsOf o ∧ nameOf (merged stored) = nameOf o) :
    Becomes c (c.replace o merged).2 := by
  unfold replace
  split
  · exact .refl
  · next stored hstored =>
    obtain ⟨hns, hname⟩ := hplace stored hstored
    split
    · exact .refl
    · exact becomes_store hns hname

theorem becomes_answer (hc : c.Keyed) (r : Request) : Becomes c (c.answer r).2 := by
  cases r with
  | get | list | probe => exact .refl
  | create k o =>
    unfold answer
    dsimp only
    split
    · exact .refl
    · exact .store o .refl
  | update k o => exact becomes_replace fun _ _ => ⟨rfl, rfl⟩
  | updateStatus k o =>
    exact becomes_replace fun stored hstored => hc k (nsOf o) (nameOf o) stored hstored
  | delete k o =>
    unfold answer
    dsimp only
    split
    · exact .refl
    · exact .remove k _ _ .refl

theorem becomes_of_flaky {r : Request} {a : Except Error r.Reply} (hc : c.Keyed)
    (h : flaky r c a c') : Becomes c c' := by
  rcases flaky_cases h with rfl | rfl
  · exact .refl
  · exact becomes_answer hc r

/-- A flaky cluster in which others are at work before each call. -/
def amid (others : Cluster → Cluster → Prop) : World Cluster := fun r c a c' =>
  ∃ c₁, others c c₁ ∧ flaky r c₁ a c'

/-- Others may do nothing. -/
theorem amid_of_flaky {others : Cluster → Cluster → Prop} (hothers : ∀ c, others c c) (r : Request)
    (c : Cluster) (a : Except Error r.Reply) (c' : Cluster) (h : flaky r c a c') :
    amid others r c a c' :=
  ⟨c, hothers c, h⟩

theorem amid_of_reliable {others : Cluster → Cluster → Prop} (hothers : ∀ c, others c c)
    (r : Request) (c : Cluster) (a : Except Error r.Reply) (c' : Cluster) (h : reliable r c a c') :
    amid others r c a c' :=
  amid_of_flaky hothers r c a c' (flaky_of_reliable r c a c' h)

/-- What others leave true, and the request after them, is true after a call: behind an error the
request may have had its effect or not. -/
theorem preserved_of_amid {others : Cluster → Cluster → Prop} {P : Cluster → Prop} {r : Request}
    {a : Except Error r.Reply} (h : amid others r c a c') (hothers : ∀ c₁, others c c₁ → P c₁)
    (hanswer : ∀ c₁, others c c₁ → P c₁ → P (c₁.answer r).2) : P c' := by
  obtain ⟨c₁, hbetween, hflaky⟩ := h
  have hbefore := hothers c₁ hbetween
  rcases flaky_cases hflaky with rfl | rfl
  · exact hbefore
  · exact hanswer c₁ hbetween hbefore

/-- What others leave true, and every request after them, steps leave true. -/
theorem preserved_of_steps {α : Type} {others : Cluster → Cluster → Prop} {P : Cluster → Prop}
    {x x' : Interaction α} {t : Trace} (h : Steps (amid others) x c t x' c')
    (hothers : ∀ c₁ c₂, others c₁ c₂ → P c₁ → P c₂)
    (hanswer : ∀ t₁ r next c₁ c₂, t₁ <+: t → Steps (amid others) x c t₁ (.call r next) c₁ →
      others c₁ c₂ → P c₂ → P (c₂.answer r).2) (hc : P c) : P c' := by
  induction h with
  | refl => exact hc
  | @step _ _ _ _ t e hsteps hlast ih =>
    have hthere := ih fun t₁ r next c₁ c₂ hearlier =>
      hanswer t₁ r next c₁ c₂ (hearlier.trans (List.prefix_append t [e]))
    cases hlast with
    | emit | secret => exact hthere
    | call hcall =>
      exact preserved_of_amid hcall (fun c₁ hbetween => hothers _ c₁ hbetween hthere)
        fun c₁ hbetween => hanswer t _ _ _ c₁ (List.prefix_append t _) hsteps hbetween

/-- When nobody else writes, what every request leaves true stays true. -/
theorem preserved_of_flaky {P : Cluster → Prop} {x x' : Interaction α} {t : Trace}
    (h : Steps flaky x c t x' c')
    (hanswer : ∀ t₁ r a t₂ next c₁, t = t₁ ++ .call r a :: t₂ →
      Steps flaky x c t₁ (.call r next) c₁ → P c₁ → P (c₁.answer r).2) (hc : P c) : P c' := by
  induction h with
  | refl => exact hc
  | @step _ _ _ _ t e hsteps hlast ih =>
    have hthere := ih fun t₁ r a t₂ next c₁ heq =>
      hanswer t₁ r a (t₂ ++ [e]) next c₁ (by simp [heq])
    cases hlast with
    | emit | secret => exact hthere
    | call hcall =>
      rcases flaky_cases hcall with rfl | rfl
      · exact hthere
      · exact hanswer t _ _ [] _ _ rfl hsteps hthere

/-- What an answer shows is stored. -/
theorem stored_of_shows {r : Request} {a : Except Error r.Reply} (hc : c.Keyed)
    (h : flaky r c a c') {p : AnyObject} (hp : p ∈ (Entry.call r a).shows) :
    c'.get? p.1 (nsOf p.2) (nameOf p.2) = some p.2 := by
  cases a with
  | error error => cases r <;> cases hp
  | ok reply =>
    have hanswer := flaky_ok_iff.1 h
    cases r with
    | get k ns name =>
      obtain ⟨rfl, rfl⟩ := answer_get.1 hanswer
      cases hget : c'.get? k ns name with
      | none =>
        rw [hget] at hp
        cases hp
      | some o =>
        rw [hget] at hp
        obtain rfl := List.mem_singleton.1 hp
        obtain ⟨rfl, rfl⟩ := hc k ns name o hget
        exact hget
    | list k ns selector =>
      obtain ⟨rfl, rfl⟩ := answer_list.1 hanswer
      obtain ⟨o, hmem, rfl⟩ := List.mem_map.1 hp
      obtain ⟨name, hget⟩ := mem_values_objects.1 (List.mem_filter.1 hmem).1
      obtain ⟨rfl, rfl⟩ := hc k ns name o hget
      exact hget
    | create k o =>
      obtain ⟨-, rfl, rfl⟩ := answer_create.1 hanswer
      obtain rfl := List.mem_singleton.1 hp
      exact get?_store_self c (nsOf o) (nameOf o) o
    | update k o =>
      obtain ⟨stored, -, -, rfl, rfl⟩ := replace_ok.1 hanswer
      obtain rfl := List.mem_singleton.1 hp
      exact get?_store_self c (nsOf o) (nameOf o) _
    | updateStatus k o =>
      obtain ⟨stored, hstored, -, rfl, rfl⟩ := replace_ok.1 hanswer
      obtain rfl := List.mem_singleton.1 hp
      obtain ⟨hns, hname⟩ := hc k _ _ stored hstored
      rw [← hns, ← hname]
      exact get?_store_self c (nsOf stored) (nameOf stored) _
    | delete | probe => cases hp

theorem inPlace_of_flaky {r : Request} {a : Except Error r.Reply} (hc : c.Keyed)
    (h : flaky r c a c') : (Entry.call r a).InPlace := by
  cases a with
  | error error => cases r <;> trivial
  | ok reply =>
    have hanswer := flaky_ok_iff.1 h
    cases r with
    | get k ns name =>
      obtain ⟨hget, -⟩ := answer_get.1 hanswer
      cases reply with
      | none => trivial
      | some o => exact hc k ns name o hget.symm
    | updateStatus k o =>
      obtain ⟨stored, hstored, -, rfl, -⟩ := replace_ok.1 hanswer
      exact hc k _ _ stored hstored
    | list | create | update | delete | probe => trivial

/-! ## What was read, and what is stored -/

/-- Everything that a trace shows has a version that was given before, and what still has that
version is what was seen, and was seen last of its place. -/
structure Recent (t : Trace) (c : Cluster) : Prop where
  version : ∀ p ∈ shown t, ∃ n ≤ c.revision, p.2.metadata.resourceVersion = some (toString n)
  current : ∀ p ∈ shown t, ∀ ns name stored, c.get? p.1 ns name = some stored →
    stored.metadata.resourceVersion = p.2.metadata.resourceVersion →
      stored = p.2 ∧ lastShown t p.1 ns name = some p

variable {t : Trace}

theorem recent_nil (c : Cluster) : Recent [] c := ⟨by simp [shown], by simp [shown]⟩

/-- Whatever anybody writes gets a new version. -/
theorem Recent.becomes (h : Recent t c) (hbecomes : Becomes c c') : Recent t c' := by
  induction hbecomes with
  | refl => exact h
  | @store c₁ k o _ ih =>
    refine ⟨fun p hp => ?_, fun p hp ns name stored hstored hsame => ?_⟩
    · obtain ⟨n, hle, hversion⟩ := ih.version p hp
      exact ⟨n, Nat.le_succ_of_le hle, hversion⟩
    · rcases get?_store_cases hstored with ⟨rfl, rfl, -, -⟩ | hbefore
      · obtain ⟨n, hle, hversion⟩ := ih.version p hp
        exact absurd hsame.symm (ne_version_succ hle hversion)
      · exact ih.current p hp ns name stored hbefore hsame
  | remove k ns name _ ih =>
    exact ⟨ih.version, fun p hp ns' name' stored hstored =>
      ih.current p hp ns' name' stored (get?_of_remove hstored)⟩

/-- What is seen of a place at a moment is what is stored there then. -/
theorem Recent.concat (h : Recent t c) (hc : c.Stamped) {e : Entry}
    (hshows : ∀ p ∈ e.shows, c.get? p.1 (nsOf p.2) (nameOf p.2) = some p.2) :
    Recent (t ++ [e]) c := by
  have hfind {k : Kind} {ns name : String} {stored : Object k} {q : AnyObject}
      (hstored : c.get? k ns name = some stored)
      (hq : e.shows.reverse.find? (AnyObject.isAt k ns name) = some q) : q = ⟨k, stored⟩ := by
    have hmem := hshows q (List.mem_reverse.1 (List.mem_of_find?_eq_some hq))
    obtain ⟨k', o⟩ := q
    obtain ⟨rfl, rfl, rfl⟩ : k' = k ∧ nsOf o = ns ∧ nameOf o = name := by
      simpa [AnyObject.isAt] using List.find?_some hq
    obtain rfl := Option.some.inj (hmem.symm.trans hstored)
    rfl
  refine ⟨fun p hp => ?_, fun p hp ns name stored hstored hsame => ?_⟩
  · rw [shown_concat, List.mem_append] at hp
    rcases hp with hp | hp
    · exact h.version p hp
    · exact hc.version p.1 _ _ p.2 (hshows p hp)
  rw [lastShown_concat]
  rw [shown_concat, List.mem_append] at hp
  rcases hp with hp | hp
  · obtain ⟨rfl, hlast⟩ := h.current p hp ns name stored hstored hsame
    refine ⟨rfl, ?_⟩
    cases hq : e.shows.reverse.find? (AnyObject.isAt p.1 ns name) with
    | none => exact hlast
    | some q => exact congrArg some (hfind hstored hq)
  · have hget := hshows p hp
    obtain ⟨rfl, rfl⟩ := hc.apart p.1 _ _ _ _ _ _ hstored hget hsame
    obtain rfl := Option.some.inj (hstored.symm.trans hget)
    refine ⟨rfl, ?_⟩
    cases hq : e.shows.reverse.find? (AnyObject.isAt p.1 (nsOf p.2) (nameOf p.2)) with
    | none =>
      refine absurd (List.find?_eq_none.1 hq p (List.mem_reverse.2 hp)) ?_
      simp [AnyObject.isAt]
    | some q => exact congrArg some (hfind hget hq)

/-! ## Along steps -/

section

variable {others : Cluster → Cluster → Prop} (hothers : ∀ c c', others c c' → Becomes c c')
  {x x' : Interaction α}
include hothers

/-- What the steps of any interaction see is in its place. -/
theorem inPlace_of_steps (hc : c.Keyed) (h : Steps (amid others) x c t x' c') :
    c'.Keyed ∧ ∀ e ∈ t, e.InPlace := by
  induction h with
  | refl => exact ⟨hc, by simp⟩
  | step _ hlast ih =>
    obtain ⟨hkeyed, ht⟩ := ih
    have hsnoc {e : Entry} (he : e.InPlace) : ∀ e' ∈ _ ++ [e], e'.InPlace :=
      List.forall_mem_append.2 ⟨ht, List.forall_mem_singleton.2 he⟩
    cases hlast with
    | call hcall =>
      obtain ⟨c₁, hbetween, hanswer⟩ := hcall
      have hkeyed₁ := (hothers _ _ hbetween).keyed hkeyed
      exact ⟨(becomes_of_flaky hkeyed₁ hanswer).keyed hkeyed₁,
        hsnoc (inPlace_of_flaky hkeyed₁ hanswer)⟩
    | emit | secret => exact ⟨hkeyed, hsnoc trivial⟩

/-- What the steps of any interaction see was stored then, and no version is given twice. -/
theorem recent_of_steps (hc : c.Stamped) (h : Steps (amid others) x c t x' c') :
    c'.Stamped ∧ Recent t c' := by
  induction h with
  | refl => exact ⟨hc, recent_nil c⟩
  | step _ hlast ih =>
    obtain ⟨hstamped, hrecent⟩ := ih
    cases hlast with
    | call hcall =>
      obtain ⟨c₁, hbetween, hanswer⟩ := hcall
      have hstamped₁ := (hothers _ _ hbetween).stamped hstamped
      have hbecomes := becomes_of_flaky hstamped₁.keyed hanswer
      have hstamped₂ := hbecomes.stamped hstamped₁
      refine ⟨hstamped₂, ?_⟩
      refine ((hrecent.becomes (hothers _ _ hbetween)).becomes hbecomes).concat hstamped₂ ?_
      exact fun p => stored_of_shows hstamped₁.keyed hanswer
    | emit | secret => exact ⟨hstamped, hrecent.concat hstamped (by simp [Entry.shows])⟩

end

/-- A write is only accepted as long as the version that it carries is the stored one, and so only
over an object that has not changed since it was read. -/
theorem Recent.of_replace_ok {o read o' : Object k} {merged : Object k → Object k}
    (h : Recent t c) (hread : ⟨k, read⟩ ∈ shown t)
    (hversion : o.metadata.resourceVersion = read.metadata.resourceVersion)
    (hanswer : c.replace o merged = (.ok o', c')) :
    c.get? k (nsOf o) (nameOf o) = some read ∧
      lastShown t k (nsOf o) (nameOf o) = some ⟨k, read⟩ ∧
      o' = stamped (c.revision + 1) (merged read) ∧
      c' = (c.store (nsOf o) (nameOf o) (merged read)).2 := by
  obtain ⟨stored, hstored, hfresh, rfl, rfl⟩ := replace_ok.1 hanswer
  obtain ⟨n, -, hgiven⟩ := h.version _ hread
  have hsame := version_of_fresh hfresh (hversion.trans hgiven)
  obtain ⟨rfl, hlast⟩ := h.current _ hread _ _ stored hstored (hsame.trans hversion)
  exact ⟨hstored, hlast, rfl, rfl⟩

end Cluster

end PushOperator
