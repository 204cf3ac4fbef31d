import Mathlib.Tactic
import Mathlib.Data.List.Sort

/-!
# Ordered maps

A `std::map` as the list of its entries in increasing order of keys.  The order is a field, so a
map that is out of order, or has a key twice, cannot be built.

An iterator is the entry it points to, and `none` is `end()`.

* `find?`, `insert` and `erase` are `find`, assignment through `operator[]` and `erase`.
* `upperBound` and `prev` move iterators: the first entry with a greater key, and the entry before
  an iterator, which does not exist at `begin()` and only there.
* `exists_prev_upperBound`: what a binary search for a key finds.
* **`entries_insert_perm`** and **`entries_perm_erase`**: up to order, an assignment replaces the
  entry of its key and an erase removes it.  Facts about all entries together follow from these
  two.
* `find?_insert` and `find?_erase`: the map as a function of the key.
-/

namespace Libport

/-- A map with keys in a linear order. -/
structure OrderedMap (κ ν : Type) [LinearOrder κ] where
  entries : List (κ × ν)
  /-- the keys increase strictly -/
  sorted : entries.Pairwise fun a b => a.1 < b.1

namespace OrderedMap

variable {κ ν : Type} [LinearOrder κ]

/-- The map without entries. -/
def empty : OrderedMap κ ν := ⟨[], List.Pairwise.nil⟩

/-- The value of a key. -/
def find? (m : OrderedMap κ ν) (k : κ) : Option ν :=
  (m.entries.find? fun e => e.1 = k).map Prod.snd

/-- Remove the entry of a key, if there is one. -/
def erase (m : OrderedMap κ ν) (k : κ) : OrderedMap κ ν where
  entries := m.entries.filter fun e => e.1 ≠ k
  sorted := m.sorted.filter _

/-- Assign a value to a key, whether or not the key is there already. -/
def insert (m : OrderedMap κ ν) (k : κ) (v : ν) : OrderedMap κ ν where
  entries := (m.entries.filter fun e => e.1 < k) ++ (k, v) :: m.entries.filter fun e => k < e.1
  sorted := by
    rw [List.pairwise_append, List.pairwise_cons]
    refine ⟨m.sorted.filter _, ⟨?_, m.sorted.filter _⟩, ?_⟩
    · intro e he
      simpa using List.of_mem_filter he
    · intro e he e' he'
      have hlt : e.1 < k := by simpa using List.of_mem_filter he
      rcases List.mem_cons.mp he' with rfl | hgt
      · exact hlt
      · exact hlt.trans (by simpa using List.of_mem_filter hgt)

/-- The first entry whose key is greater than `k`. -/
def upperBound (m : OrderedMap κ ν) (k : κ) : Option (κ × ν) :=
  m.entries.find? fun e => k < e.1

/-- The entry before an iterator. -/
def prev (m : OrderedMap κ ν) : Option (κ × ν) → Option (κ × ν)
  | some it => (m.entries.filter fun e => e.1 < it.1).getLast?
  | none => m.entries.getLast?

/-- `begin()`: the iterator of the first entry, and `end()` where there is none. -/
def begin (m : OrderedMap κ ν) : Option (κ × ν) := m.entries.head?

/-! ## Entries and lookups -/

lemma nodup_keys (m : OrderedMap κ ν) : (m.entries.map Prod.fst).Nodup :=
  List.pairwise_map.mpr (m.sorted.imp ne_of_lt)

/-- A key has at most one entry. -/
lemma eq_of_mem {m : OrderedMap κ ν} {e e' : κ × ν} (he : e ∈ m.entries) (he' : e' ∈ m.entries)
    (h : e.1 = e'.1) : e = e' :=
  List.inj_on_of_nodup_map m.nodup_keys he he' h

/-- A map is determined by its entries, whatever their order. -/
lemma ext_mem {m m' : OrderedMap κ ν} (h : ∀ e, e ∈ m.entries ↔ e ∈ m'.entries) : m = m' := by
  have hperm : m.entries.Perm m'.entries :=
    (List.perm_ext_iff_of_nodup m.nodup_keys.of_map m'.nodup_keys.of_map).mpr h
  have heq : m.entries = m'.entries :=
    hperm.eq_of_pairwise (fun _ _ _ _ hab hba => absurd hba hab.asymm) m.sorted m'.sorted
  cases m
  cases m'
  cases heq
  rfl

lemma find?_eq_some {m : OrderedMap κ ν} {k : κ} {v : ν} :
    m.find? k = some v ↔ (k, v) ∈ m.entries := by
  rw [find?, Option.map_eq_some_iff]
  constructor
  · rintro ⟨e, he, rfl⟩
    have hk : e.1 = k := by simpa using List.find?_some he
    rw [← hk]
    exact List.mem_of_find?_eq_some he
  · intro hmem
    have hsome : (m.entries.find? fun e => e.1 = k).isSome := by
      rw [List.find?_isSome]
      exact ⟨(k, v), hmem, by simp⟩
    obtain ⟨e, he⟩ := Option.isSome_iff_exists.mp hsome
    have hk : e.1 = k := by simpa using List.find?_some he
    have heq : e = (k, v) := eq_of_mem (List.mem_of_find?_eq_some he) hmem hk
    exact ⟨e, he, by rw [heq]⟩

lemma mem_of_upperBound {m : OrderedMap κ ν} {k : κ} {e : κ × ν} (h : m.upperBound k = some e) :
    e ∈ m.entries ∧ k < e.1 := by
  refine ⟨List.mem_of_find?_eq_some h, ?_⟩
  simpa using List.find?_some h

lemma mem_of_prev {m : OrderedMap κ ν} {it : Option (κ × ν)} {e : κ × ν}
    (h : m.prev it = some e) : e ∈ m.entries := by
  cases it with
  | none => exact List.mem_of_getLast? h
  | some it => exact List.mem_of_mem_filter (List.mem_of_getLast? h)

lemma upperBound_le {m : OrderedMap κ ν} {k : κ} {it e : κ × ν} (h : m.upperBound k = some it)
    (he : e ∈ m.entries) (hk : k < e.1) : it.1 ≤ e.1 := by
  obtain ⟨-, before, after, hsplit, hbefore⟩ := List.find?_eq_some_iff_append.mp h
  have hsorted := m.sorted
  rw [hsplit, List.pairwise_append, List.pairwise_cons] at hsorted
  rw [hsplit, List.mem_append, List.mem_cons] at he
  rcases he with hmem | rfl | hmem
  · have hnot := hbefore e hmem
    simp only [Bool.not_eq_true', decide_eq_false_iff_not] at hnot
    exact absurd hk hnot
  · exact le_rfl
  · exact (hsorted.2.1.1 e hmem).le

lemma prev_upperBound_le {m : OrderedMap κ ν} {k : κ} {e : κ × ν}
    (h : m.prev (m.upperBound k) = some e) : e.1 ≤ k := by
  by_contra hlt
  have hk : k < e.1 := not_le.mp hlt
  have hmem : e ∈ m.entries := mem_of_prev h
  cases hub : m.upperBound k with
  | none =>
      have hnone := List.find?_eq_none.mp hub e hmem
      simp only [decide_eq_true_eq] at hnone
      exact hnone hk
  | some it =>
      rw [hub, prev] at h
      have hbefore : e.1 < it.1 := by simpa using List.of_mem_filter (List.mem_of_getLast? h)
      exact absurd (upperBound_le hub hmem hk) (not_le.mpr hbefore)

/-- The entry before an iterator is the greatest one that precedes it. -/
lemma le_prev {m : OrderedMap κ ν} {it : Option (κ × ν)} {e e' : κ × ν} (h : m.prev it = some e)
    (he' : e' ∈ m.entries) (hbefore : ∀ x ∈ it, e'.1 < x.1) : e'.1 ≤ e.1 := by
  have hlast : ∀ l : List (κ × ν), l.Pairwise (fun a b => a.1 < b.1) → l.getLast? = some e →
      e' ∈ l → e'.1 ≤ e.1 := by
    intro l hl hlast hmem
    obtain ⟨front, rfl⟩ := List.getLast?_eq_some_iff.mp hlast
    rcases List.mem_append.mp hmem with hfront | hsingle
    · exact ((List.pairwise_append.mp hl).2.2 e' hfront e List.mem_cons_self).le
    · rw [List.mem_singleton.mp hsingle]
  cases it with
  | none => exact hlast _ m.sorted h he'
  | some x =>
      refine hlast _ (m.sorted.filter _) h (List.mem_filter.mpr ⟨he', ?_⟩)
      simpa using hbefore x rfl

lemma prev_isSome {m : OrderedMap κ ν} {it : Option (κ × ν)} {e : κ × ν} (he : e ∈ m.entries)
    (hbefore : ∀ x ∈ it, e.1 < x.1) : ∃ e', m.prev it = some e' := by
  rw [← Option.isSome_iff_exists]
  cases it with
  | none =>
      rw [prev, List.getLast?_isSome]
      exact List.ne_nil_of_mem he
  | some x =>
      rw [prev, List.getLast?_isSome]
      exact List.ne_nil_of_mem (List.mem_filter.mpr ⟨he, by simpa using hbefore x rfl⟩)

/-- Nothing comes before `begin()`. -/
lemma prev_begin (m : OrderedMap κ ν) : m.prev m.begin = none := by
  unfold prev begin
  cases hentries : m.entries with
  | nil => rfl
  | cons first rest =>
      have hsorted := m.sorted
      rw [hentries, List.pairwise_cons] at hsorted
      simp only [List.head?_cons, List.getLast?_eq_none_iff, List.filter_eq_nil_iff,
        decide_eq_true_eq, not_lt]
      intro e he
      rcases List.mem_cons.mp he with rfl | hmem
      · exact le_rfl
      · exact (hsorted.1 e hmem).le

/-- Every other iterator has an entry before it. -/
lemma exists_prev_of_ne_begin {m : OrderedMap κ ν} {it : Option (κ × ν)}
    (hit : ∀ e ∈ it, e ∈ m.entries) (h : it ≠ m.begin) : ∃ e, m.prev it = some e := by
  unfold begin at h
  cases hentries : m.entries with
  | nil =>
      rw [hentries] at h hit
      cases it with
      | none => exact absurd rfl h
      | some e => exact absurd (hit e rfl) List.not_mem_nil
  | cons first rest =>
      have hfirst : first ∈ m.entries := hentries ▸ List.mem_cons_self
      refine prev_isSome hfirst fun e he => ?_
      have hmem := hit e he
      have hne : e ≠ first := by
        rintro rfl
        rw [hentries] at h
        exact h he
      have hsorted := m.sorted
      rw [hentries] at hsorted hmem
      exact (List.pairwise_cons.mp hsorted).1 e (List.mem_of_ne_of_mem hne hmem)

lemma upperBound_eq_none {m : OrderedMap κ ν} {k : κ} :
    m.upperBound k = none ↔ ∀ e ∈ m.entries, e.1 ≤ k := by
  simp [upperBound]

lemma lt_of_mem_upperBound {m : OrderedMap κ ν} {k : κ} {e x : κ × ν} (hk : e.1 ≤ k)
    (hx : x ∈ m.upperBound k) : e.1 < x.1 :=
  hk.trans_lt (mem_of_upperBound hx).2

/-- **What a search for a key finds**: among the entries up to the key, the last one. -/
lemma exists_prev_upperBound {m : OrderedMap κ ν} {k : κ} {e : κ × ν} (he : e ∈ m.entries)
    (hk : e.1 ≤ k) : ∃ e', m.prev (m.upperBound k) = some e' ∧ e.1 ≤ e'.1 := by
  have hbefore : ∀ x ∈ m.upperBound k, e.1 < x.1 := fun x hx => lt_of_mem_upperBound hk hx
  obtain ⟨e', he'⟩ := prev_isSome he hbefore
  exact ⟨e', he', le_prev he' he hbefore⟩

lemma exists_upperBound {m : OrderedMap κ ν} {k : κ} {e : κ × ν} (he : e ∈ m.entries)
    (hk : k < e.1) : ∃ it, m.upperBound k = some it ∧ it.1 ≤ e.1 := by
  cases hub : m.upperBound k with
  | none =>
      have hnone := List.find?_eq_none.mp hub e he
      exact absurd hk (by simpa using hnone)
  | some it => exact ⟨it, rfl, upperBound_le hub he hk⟩

/-! ## Updates, up to order -/

lemma mem_erase {m : OrderedMap κ ν} {k : κ} {e : κ × ν} :
    e ∈ (m.erase k).entries ↔ e ∈ m.entries ∧ e.1 ≠ k := by
  simp [erase]

/-- **An assignment replaces the entry of its key.** -/
lemma entries_insert_perm (m : OrderedMap κ ν) (k : κ) (v : ν) :
    (m.insert k v).entries.Perm ((k, v) :: (m.erase k).entries) := by
  have hlt : (m.erase k).entries.filter (fun e => e.1 < k)
      = m.entries.filter fun e => e.1 < k := by
    rw [erase, List.filter_filter]
    refine List.filter_congr fun e _ => ?_
    by_cases h : e.1 < k
    · simp [h, h.ne]
    · simp [h]
  have hgt : (m.erase k).entries.filter (fun e => !decide (e.1 < k))
      = m.entries.filter fun e => k < e.1 := by
    rw [erase, List.filter_filter]
    refine List.filter_congr fun e _ => ?_
    rcases lt_trichotomy e.1 k with h | h | h
    · simp [h, h.le]
    · simp [h]
    · simp [h.ne', h, h.le]
  refine List.perm_middle.trans (List.Perm.cons _ ?_)
  rw [← hlt, ← hgt]
  exact List.filter_append_perm _ _

lemma mem_insert {m : OrderedMap κ ν} {k : κ} {v : ν} {e : κ × ν} :
    e ∈ (m.insert k v).entries ↔ e = (k, v) ∨ e ∈ m.entries ∧ e.1 ≠ k := by
  rw [(m.entries_insert_perm k v).mem_iff, List.mem_cons, mem_erase]

lemma find?_insert_self (m : OrderedMap κ ν) (k : κ) (v : ν) : (m.insert k v).find? k = some v :=
  find?_eq_some.mpr (mem_insert.mpr (Or.inl rfl))

lemma find?_insert_of_ne (m : OrderedMap κ ν) {k k' : κ} (v : ν) (h : k' ≠ k) :
    (m.insert k v).find? k' = m.find? k' := by
  refine Option.ext fun v' => ?_
  rw [find?_eq_some, find?_eq_some, mem_insert]
  constructor
  · rintro (heq | ⟨hmem, -⟩)
    · exact absurd (congrArg Prod.fst heq) h
    · exact hmem
  · exact fun hmem => Or.inr ⟨hmem, h⟩

/-- As a function of the key, an assignment is an update. -/
lemma find?_insert (m : OrderedMap κ ν) (k : κ) (v : ν) :
    (m.insert k v).find? = Function.update m.find? k (some v) := by
  funext k'
  by_cases h : k' = k
  · rw [h, find?_insert_self, Function.update_self]
  · rw [find?_insert_of_ne m v h, Function.update_of_ne h]

lemma find?_erase (m : OrderedMap κ ν) (k : κ) :
    (m.erase k).find? = Function.update m.find? k none := by
  funext k'
  refine Option.ext fun v => ?_
  rw [find?_eq_some, mem_erase]
  by_cases h : k' = k
  · simp [h]
  · rw [Function.update_of_ne h, find?_eq_some]
    simp [h]

/-- **An erase removes the entry of its key.** -/
lemma entries_perm_erase {m : OrderedMap κ ν} {e : κ × ν} (h : e ∈ m.entries) :
    m.entries.Perm (e :: (m.erase e.1).entries) := by
  have hnodup : m.entries.Nodup := m.nodup_keys.of_map
  have hnotmem : e ∉ (m.erase e.1).entries := fun hmem => (mem_erase.mp hmem).2 rfl
  have hcons : (e :: (m.erase e.1).entries).Nodup :=
    List.nodup_cons.mpr ⟨hnotmem, (m.erase e.1).nodup_keys.of_map⟩
  refine (List.perm_ext_iff_of_nodup hnodup hcons).mpr fun e' => ?_
  rw [List.mem_cons, mem_erase]
  constructor
  · intro hmem
    by_cases hk : e'.1 = e.1
    · exact Or.inl (eq_of_mem hmem h hk)
    · exact Or.inr ⟨hmem, hk⟩
  · rintro (rfl | ⟨hmem, -⟩)
    · exact h
    · exact hmem

/-- Assigning to a key without an entry adds one. -/
lemma entries_insert_fresh {m : OrderedMap κ ν} {k : κ} (h : ∀ e ∈ m.entries, e.1 ≠ k) (v : ν) :
    (m.insert k v).entries.Perm ((k, v) :: m.entries) := by
  have herase : (m.erase k).entries = m.entries :=
    List.filter_eq_self.mpr fun e he => by simpa using h e he
  rw [← herase]
  exact m.entries_insert_perm k v

end OrderedMap

end Libport
