import Libport.Tools.MetadataStub
import Mathlib.Order.Interval.Set.Basic
import Mathlib.Order.CompletePartialOrder

/-!
# Address resolution in the stub (`GetPrincipal` in `tools/metadata_stub.go`)

Principals nest: one on an ip may hold a range of ports inside the range of another.  An address
is to be resolved to the innermost principal that holds its port, in whatever order the map is
iterated over.

The pass over the principals replaces its candidate by one whose `PortMin` lies in the range of
the candidate, and does not look at the port again.

* `Innermost`: what the answer should be.
* `Safe`: no principal that does not hold the port can get in the way, and there is no choice
  between two that start at the same port.
* `innermost_of_safe`: then every order gives the innermost principal.
* `stray_order` and `tied_order`: otherwise there is an order that does not.
* **`getPrincipal_innermost_iff`**: the two together.
-/

namespace Libport

namespace MetadataStub

/-- The range of ports of a principal. -/
def Principal.range (p : Principal) : Set ℤ := Set.Icc p.portMin p.portMax

/-- The principal holds a port on an ip. -/
def Principal.Holds (p : Principal) (ip : String) (port : ℤ) : Prop :=
  p.ip = ip ∧ port ∈ p.range

/-- The values of the map of principals. -/
def TestStore.stored (store : TestStore) : List Principal := store.principals.entries.map Prod.snd

/-- Two ranges on one ip are nested or disjoint. -/
def NestedOrDisjoint (stored : List Principal) : Prop :=
  ∀ p ∈ stored, ∀ q ∈ stored, p.ip = q.ip →
    p.range ⊆ q.range ∨ q.range ⊆ p.range ∨ Disjoint p.range q.range

/-- The answer is an innermost principal that holds the port, or that there is none. -/
def Innermost (stored : List Principal) (ip : String) (port : ℤ)
    (result : Option Principal × ℕ) : Prop :=
  (result = (none, statusNotFound) ↔ ∀ p ∈ stored, ¬ p.Holds ip port) ∧
    (result ≠ (none, statusNotFound) → ∃ p ∈ stored, result = (some p, statusOk) ∧
      p.Holds ip port ∧ ∀ q ∈ stored, q.Holds ip port → ¬ q.range ⊂ p.range)

/-- When no order can go wrong. -/
structure Safe (stored : List Principal) (ip : String) (port : ℤ) : Prop where
  /-- what starts inside a range that holds the port holds it too -/
  no_stray : ∀ p ∈ stored, p.Holds ip port → ∀ q ∈ stored, q.ip = ip → q.portMin ∈ p.range →
    q.Holds ip port
  /-- those that hold the port and start last end at the same port -/
  no_tie : ∀ p ∈ stored, p.Holds ip port →
    (∀ q ∈ stored, q.Holds ip port → q.portMin ≤ p.portMin) →
    ∀ q ∈ stored, q.Holds ip port → q.portMin = p.portMin → q.portMax = p.portMax

section
variable {stored order : List Principal} {ip : String} {port : ℤ} {p q : Principal}

lemma isFirst_iff : isFirst ip port p = true ↔ p.Holds ip port := by
  rw [isFirst, decide_eq_true_iff, Principal.Holds, Principal.range, Set.mem_Icc, eq_comm]

lemma isFirst_eq_false : isFirst ip port p = false ↔ ¬ p.Holds ip port := by
  rw [← isFirst_iff, Bool.not_eq_true]

lemma isDeeper_iff : isDeeper ip p q = true ↔ q.ip = ip ∧ q.portMin ∈ p.range := by
  rw [isDeeper, decide_eq_true_iff, Principal.range, Set.mem_Icc, eq_comm]

lemma isDeeper_eq_false : isDeeper ip p q = false ↔ ¬ (q.ip = ip ∧ q.portMin ∈ p.range) := by
  rw [← isDeeper_iff, Bool.not_eq_true]

lemma Principal.Holds.min_le (h : p.Holds ip port) : p.portMin ≤ port := h.2.1

lemma Principal.Holds.le_max (h : p.Holds ip port) : port ≤ p.portMax := h.2.2

/-- Of two that hold the port, one strictly inside the other starts later or ends earlier. -/
lemma ssubset_iff (hp : p.Holds ip port) (hq : q.Holds ip port) :
    q.range ⊂ p.range ↔ p.portMin ≤ q.portMin ∧ q.portMax ≤ p.portMax ∧
      (p.portMin < q.portMin ∨ q.portMax < p.portMax) := by
  have hp' : p.portMin ≤ p.portMax := hp.min_le.trans hp.le_max
  have hq' : q.portMin ≤ q.portMax := hq.min_le.trans hq.le_max
  rw [Principal.range, Principal.range, ssubset_iff_subset_not_subset, Set.Icc_subset_Icc_iff hq',
    Set.Icc_subset_Icc_iff hp']
  omega

/-! ## When every order is right -/

/-- What the pass has found: a principal that holds the port, and none that does starts later. -/
def Deepest (ip : String) (port : ℤ) (stored seen : List Principal) (p : Principal) : Prop :=
  p ∈ stored ∧ p.Holds ip port ∧ ∀ q ∈ seen, q.Holds ip port → q.portMin ≤ p.portMin

lemma Deepest.concat {seen : List Principal} (h : Deepest ip port stored seen p)
    (hq : q.Holds ip port → q.portMin ≤ p.portMin) : Deepest ip port stored (seen ++ [q]) p := by
  refine ⟨h.1, h.2.1, List.forall_mem_append.mpr ⟨h.2.2, ?_⟩⟩
  simpa using hq

/-- **A safe pass** finds nothing, or one that holds the port and starts last. -/
lemma scan_of_safe (hsafe : Safe stored ip port) (horder : ∀ p ∈ order, p ∈ stored) :
    (Scan.scan (isFirst ip port) (isDeeper ip) none order = none ∧
        ∀ p ∈ order, ¬ p.Holds ip port) ∨
      ∃ p, Scan.scan (isFirst ip port) (isDeeper ip) none order = some p ∧
        Deepest ip port stored order p := by
  have hscan := @Scan.scan_induction Principal (isFirst ip port) (isDeeper ip) order
    (Deepest ip port stored) ?_ ?_ ?_
  · simpa only [isFirst_eq_false] using hscan
  · intro seen p hp hseen hfirst
    refine ⟨horder p hp, isFirst_iff.mp hfirst, List.forall_mem_append.mpr ⟨?_, by simp⟩⟩
    intro q hq hholds
    exact absurd hholds (isFirst_eq_false.mp (hseen q hq))
  · intro seen p q hq hdeepest hdeeper
    obtain ⟨hip, hmin⟩ := isDeeper_iff.mp hdeeper
    have hholds := hsafe.no_stray p hdeepest.1 hdeepest.2.1 q (horder q hq) hip hmin
    refine ⟨horder q hq, hholds, List.forall_mem_append.mpr ⟨?_, by simp⟩⟩
    intro r hr hr'
    exact (hdeepest.2.2 r hr hr').trans hmin.1
  · intro seen p q hq hdeepest hdeeper
    refine hdeepest.concat fun hholds => ?_
    have hout := isDeeper_eq_false.mp hdeeper
    by_contra hlate
    exact hout ⟨hholds.1, (not_le.mp hlate).le, hholds.min_le.trans hdeepest.2.1.le_max⟩

lemma getPrincipal_found {address : String} (hparse : parseAddress address = some (ip, port))
    (hscan : Scan.scan (isFirst ip port) (isDeeper ip) none order = some p) :
    getPrincipal order address = (some p, statusOk) := by
  simp only [getPrincipal, hparse, hscan]

lemma getPrincipal_not_found {address : String}
    (hparse : parseAddress address = some (ip, port))
    (hscan : Scan.scan (isFirst ip port) (isDeeper ip) none order = none) :
    getPrincipal order address = (none, statusNotFound) := by
  simp only [getPrincipal, hparse, hscan]

lemma innermost_of_safe (hsafe : Safe stored ip port) (horder : order.Perm stored)
    {address : String} (hparse : parseAddress address = some (ip, port)) :
    Innermost stored ip port (getPrincipal order address) := by
  rcases scan_of_safe hsafe fun p hp => horder.mem_iff.mp hp with ⟨hscan, hnone⟩ | ⟨p, hscan, hp⟩
  · rw [getPrincipal_not_found hparse hscan]
    refine ⟨⟨fun _ q hq => hnone q (horder.mem_iff.mpr hq), fun _ => rfl⟩, fun h => absurd rfl h⟩
  · rw [getPrincipal_found hparse hscan]
    obtain ⟨hmem, hholds, hlast⟩ := hp
    have hlast' : ∀ q ∈ stored, q.Holds ip port → q.portMin ≤ p.portMin :=
      fun q hq => hlast q (horder.mem_iff.mpr hq)
    refine ⟨⟨by simp, fun hnone => absurd hholds (hnone p hmem)⟩,
      fun _ => ⟨p, hmem, rfl, hholds, ?_⟩⟩
    intro q hq hq' hinside
    obtain ⟨hmin, -, hstrict⟩ := (ssubset_iff hholds hq').mp hinside
    have hmin' : q.portMin = p.portMin := le_antisymm (hlast' q hq hq') hmin
    have hmax := hsafe.no_tie p hmem hholds hlast' q hq hq' hmin'
    omega

/-! ## Orders that go wrong -/

/-- The order that puts one principal between two parts of those that hold the port, behind all
that do not. -/
lemma perm_around {front back : List Principal} {f g : Principal → Bool} :
    let rest := front ++ back
    let holding := rest.filter f
    (rest.filter (fun p => !f p) ++
        (holding.filter g ++ q :: holding.filter fun p => !g p)).Perm (front ++ q :: back) := by
  intro rest holding
  have hparts : (holding.filter g ++ holding.filter fun p => !g p).Perm holding :=
    List.filter_append_perm g holding
  have hall : (rest.filter (fun p => !f p) ++ holding).Perm rest :=
    List.perm_append_comm.trans (List.filter_append_perm f rest)
  calc
    List.Perm
      (rest.filter (fun p => !f p) ++ (holding.filter g ++ q :: holding.filter fun p => !g p))
      (rest.filter (fun p => !f p) ++ q :: (holding.filter g ++ holding.filter fun p => !g p)) :=
        List.perm_middle.append_left _
    List.Perm _ (rest.filter (fun p => !f p) ++ q :: holding) := (hparts.cons q).append_left _
    List.Perm _ (q :: (rest.filter (fun p => !f p) ++ holding)) := List.perm_middle
    List.Perm _ (q :: (front ++ back)) := hall.cons q
    List.Perm _ (front ++ q :: back) := List.perm_middle.symm

/-- **The pass over such an order** finds that principal, when it replaces every candidate in
front of it and nothing behind it is deeper. -/
lemma scan_around {before between after : List Principal}
    (hbefore : ∀ p ∈ before, ¬ p.Holds ip port) (hne : between ≠ [])
    (hfirst : ∀ p ∈ between, p.Holds ip port) (hdeeper : ∀ p ∈ between, isDeeper ip p q = true)
    (hafter : ∀ p ∈ after, isDeeper ip q p = false) :
    Scan.scan (isFirst ip port) (isDeeper ip) none (before ++ (between ++ q :: after))
      = some q := by
  obtain ⟨found, hscan, hfound⟩ := @Scan.scan_start _ (isFirst ip port) (isDeeper ip) between
    (fun p => isDeeper ip p q = true) hne (fun p hp => isFirst_iff.mpr (hfirst p hp)) hdeeper
  rw [Scan.scan_append, Scan.scan_none fun p hp => isFirst_eq_false.mpr (hbefore p hp),
    Scan.scan_append, hscan, Scan.scan, List.foldl_cons, Scan.step, hfound]
  exact Scan.scan_stay hafter

/-- **A principal that replaces some candidate can be found**, when those it does not replace are
not deeper than it. -/
lemma exists_order (hp : p ∈ stored) (hholds : p.Holds ip port) (hq : q ∈ stored) (hne : p ≠ q)
    (hdeeper : isDeeper ip p q = true)
    (hafter : ∀ r ∈ stored, r.Holds ip port → isDeeper ip r q = false →
      isDeeper ip q r = false) :
    ∃ order : List Principal, order.Perm stored ∧
      Scan.scan (isFirst ip port) (isDeeper ip) none order = some q := by
  obtain ⟨front, back, rfl⟩ := List.append_of_mem hq
  have hmem : ∀ r ∈ front ++ back, r ∈ front ++ q :: back :=
    fun r hr => List.perm_middle.symm.subset (List.mem_cons_of_mem q hr)
  refine ⟨_, @perm_around q front back (isFirst ip port) (isDeeper ip · q),
    scan_around ?_ ?_ ?_ ?_ ?_⟩
  · intro r hr
    simpa [isFirst_eq_false] using (List.mem_filter.mp hr).2
  · have hrest : p ∈ front ++ back := by simpa [hne] using hp
    exact List.ne_nil_of_mem (List.mem_filter.mpr
      ⟨List.mem_filter.mpr ⟨hrest, isFirst_iff.mpr hholds⟩, hdeeper⟩)
  · intro r hr
    exact isFirst_iff.mp (List.mem_filter.mp (List.mem_filter.mp hr).1).2
  · intro r hr
    exact (List.mem_filter.mp hr).2
  · intro r hr
    obtain ⟨hr, hnot⟩ := List.mem_filter.mp hr
    obtain ⟨hrest, hfirst⟩ := List.mem_filter.mp hr
    exact hafter r (hmem r hrest) (isFirst_iff.mp hfirst) (by simpa using hnot)

/-- A principal that does not hold the port but starts in a range that does. -/
lemma stray_order (hnested : NestedOrDisjoint stored) (hp : p ∈ stored) (hholds : p.Holds ip port)
    (hq : q ∈ stored) (hip : q.ip = ip) (hmin : q.portMin ∈ p.range)
    (hstray : ¬ q.Holds ip port) :
    ∃ order : List Principal, order.Perm stored ∧
      Scan.scan (isFirst ip port) (isDeeper ip) none order = some q := by
  refine exists_order hp hholds hq (fun h => hstray (h ▸ hholds)) (isDeeper_iff.mpr ⟨hip, hmin⟩) ?_
  intro r hr hr' hnot
  -- a range that holds the port, but not where `q` starts, does not start in `q`
  have hout : q.portMin ∉ r.range := fun hin => isDeeper_eq_false.mp hnot ⟨hip, hin⟩
  rw [isDeeper_eq_false]
  rintro ⟨-, hin⟩
  rcases hnested r hr q hq (hr'.1.trans hip.symm) with hsub | hsub | hdisjoint
  · exact hstray ⟨hip, hsub hr'.2⟩
  · exact hout (hsub ⟨le_rfl, hin.1.trans hin.2⟩)
  · exact Set.disjoint_left.mp hdisjoint ⟨le_rfl, hr'.min_le.trans hr'.le_max⟩ hin

/-- A principal that holds the port and starts last, where it is not the only one that does. -/
lemma tied_order (hp : p ∈ stored) (hholds : p.Holds ip port) (hq : q ∈ stored)
    (hq' : q.Holds ip port) (hlast : ∀ r ∈ stored, r.Holds ip port → r.portMin ≤ q.portMin)
    (hne : p ≠ q) :
    ∃ order : List Principal, order.Perm stored ∧
      Scan.scan (isFirst ip port) (isDeeper ip) none order = some q := by
  have hdeeper : ∀ r ∈ stored, r.Holds ip port → isDeeper ip r q = true := fun r hr hr' =>
    isDeeper_iff.mpr ⟨hq'.1, hlast r hr hr', hq'.min_le.trans hr'.le_max⟩
  refine exists_order hp hholds hq hne (hdeeper p hp hholds) ?_
  intro r hr hr' hnot
  rw [hdeeper r hr hr'] at hnot
  cases hnot

/-- **Resolution finds the innermost principal in every order exactly when the store is safe.** -/
theorem getPrincipal_innermost_iff (store : TestStore) (address ip : String) (port : ℤ)
    (hparse : parseAddress address = some (ip, port)) (hnested : NestedOrDisjoint store.stored) :
    (∀ order : List Principal, order.Perm store.stored →
        Innermost store.stored ip port (getPrincipal order address)) ↔
      Safe store.stored ip port := by
  constructor
  · intro hall
    -- what some order finds is innermost
    have hfound : ∀ p, (∃ order : List Principal, order.Perm store.stored ∧
        Scan.scan (isFirst ip port) (isDeeper ip) none order = some p) →
        p.Holds ip port ∧ ∀ q ∈ store.stored, q.Holds ip port → ¬ q.range ⊂ p.range := by
      rintro p ⟨order, horder, hscan⟩
      have hinner := hall order horder
      rw [getPrincipal_found hparse hscan] at hinner
      obtain ⟨p', -, hsome, hholds, hdeepest⟩ := hinner.2 (by simp)
      obtain rfl : p = p' := by simpa using hsome
      exact ⟨hholds, hdeepest⟩
    refine ⟨?_, ?_⟩
    · intro p hp hholds q hq hip hmin
      by_contra hstray
      exact hstray (hfound q (stray_order hnested hp hholds hq hip hmin hstray)).1
    · intro p hp hholds hlast q hq hq' hmin
      by_contra hmax
      have hne : q ≠ p := fun h => hmax (by rw [h])
      rcases lt_or_gt_of_ne hmax with hless | hless
      · have hinner := (hfound p (tied_order hq hq' hp hholds hlast hne)).2 q hq hq'
        exact hinner ((ssubset_iff hholds hq').mpr ⟨hmin.ge, hless.le, Or.inr hless⟩)
      · have hlast' : ∀ r ∈ store.stored, r.Holds ip port → r.portMin ≤ q.portMin :=
          fun r hr hr' => hmin ▸ hlast r hr hr'
        have hinner := (hfound q (tied_order hp hholds hq hq' hlast' hne.symm)).2 p hp hholds
        exact hinner ((ssubset_iff hq' hholds).mpr ⟨hmin.le, hless.le, Or.inr hless⟩)
  · intro hsafe order horder
    exact innermost_of_safe hsafe horder hparse

end

/-- A principal with ports 1 to 10, and one inside it with ports 2 to 5. -/
def nestedStore : TestStore :=
  { TestStore.initial with
    principals := (OrderedMap.empty.insert "outer" ⟨"", .empty, "10.0.0.1", 1, 10⟩).insert "inner"
      ⟨"", .empty, "10.0.0.1", 2, 5⟩ }

lemma stored_nestedStore : nestedStore.stored =
    [⟨"", .empty, "10.0.0.1", 2, 5⟩, ⟨"", .empty, "10.0.0.1", 1, 10⟩] := rfl

lemma nestedOrDisjoint_nestedStore : NestedOrDisjoint nestedStore.stored := by
  have hinside : Set.Icc (2 : ℤ) 5 ⊆ Set.Icc 1 10 := Set.Icc_subset_Icc (by decide) (by decide)
  rw [stored_nestedStore]
  simp [NestedOrDisjoint, Principal.range, hinside]

theorem getPrincipal_innermost_nested :
    Innermost nestedStore.stored "10.0.0.1" 3
      (getPrincipal nestedStore.stored.reverse "10.0.0.1:3") := by
  refine (getPrincipal_innermost_iff nestedStore "10.0.0.1:3" "10.0.0.1" 3 (by decide)
    nestedOrDisjoint_nestedStore).mpr ⟨?_, ?_⟩ _ (List.reverse_perm _)
  · rw [stored_nestedStore]
    simp [Principal.Holds, Principal.range]
  · rw [stored_nestedStore]
    simp [Principal.Holds, Principal.range]

theorem getPrincipal_finds_inner :
    ¬ ∀ (store : TestStore) (address ip : String) (port : ℤ) (order : List Principal),
      parseAddress address = some (ip, port) → NestedOrDisjoint store.stored →
        order.Perm store.stored →
          Innermost store.stored ip port (getPrincipal order address) := by
  intro hall
  -- port 9 is not a port of the inner principal, which starts inside the outer one
  have hinner := hall nestedStore "10.0.0.1:9" "10.0.0.1" 9 nestedStore.stored.reverse (by decide)
    nestedOrDisjoint_nestedStore (List.reverse_perm _)
  have hfound : getPrincipal nestedStore.stored.reverse "10.0.0.1:9"
      = (some ⟨"", .empty, "10.0.0.1", 2, 5⟩, statusOk) := rfl
  rw [hfound] at hinner
  obtain ⟨p, -, hsome, hholds, -⟩ := hinner.2 (by simp)
  obtain rfl : (⟨"", .empty, "10.0.0.1", 2, 5⟩ : Principal) = p := by simpa using hsome
  simp [Principal.Holds, Principal.range] at hholds

end MetadataStub

end Libport
