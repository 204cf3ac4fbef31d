import Libport.PortManager.Partition

/-!
# The manager as a ledger

`logOf` is the log of a sequence of calls: what every successful allocation returned and every
successful deallocation freed, in order.  A segment is live when the log has it and its left end
was not freed later (`Ledger.Live`).

The invariant `Accounted` says that the segments tile the managed range and that `allocated_` holds
exactly the live segments.  Both queries search one entry of `allocated_` or two, and because the
entries are disjoint these decide for all of them.

* `isAllocated_iff`, `isAllocatedRange_iff`: the two queries, as statements about ports.
* `Accounted.change`: what one call does; `Accounted.afterCalls`: every sequence of calls.
* **`ledger_exact`**: the queries, the allocations and the deallocations agree with the log.
-/

namespace Libport

namespace PortManager

open Ledger (Live)

/-- The log of a sequence of calls. -/
def logOf (m : PortManager) : List Call → List Event
  | [] => []
  | call :: rest => call.record m ++ logOf (call.perform m) rest

variable {m : PortManager} {low high : UInt32}

/-! ## The queries -/

lemma isAllocated_eq (m : PortManager) (p : UInt32) :
    m.isAllocated p = (m.allocated.prev (m.allocated.upperBound p)).any fun e => e.2 > p := by
  unfold isAllocated
  split_ifs with hempty
  · cases hprev : m.allocated.prev (m.allocated.upperBound p) with
    | none => rfl
    | some e =>
        have hmem := OrderedMap.mem_of_prev hprev
        rw [List.length_eq_zero_iff.mp hempty] at hmem
        exact absurd hmem List.not_mem_nil
  · cases m.allocated.prev (m.allocated.upperBound p) with
    | none => rfl
    | some e => rfl

/-- The allocated segments are ordered as their left ends are. -/
def Ordered (m : PortManager) : Prop :=
  ∀ e ∈ m.allocated.entries, ∀ e' ∈ m.allocated.entries, e.1 < e'.1 → e.2 ≤ e'.1

lemma ordered_of_tiles (hm : Tiles m.segments low high) : m.Ordered := fun _ he _ he' =>
  hm.snd_le_fst (List.mem_append_right _ he) (List.mem_append_right _ he')

/-- Among the entries that start up to `p`, only the last one can go beyond it. -/
lemma last_beyond (hm : m.Ordered) {e : PortPair} {p : UInt32}
    (he : e ∈ m.allocated.entries) (hle : e.1 ≤ p) (hgt : p < e.2) :
    m.allocated.prev (m.allocated.upperBound p) = some e := by
  obtain ⟨last, hlast, hfst⟩ := OrderedMap.exists_prev_upperBound he hle
  have hmem := OrderedMap.mem_of_prev hlast
  rcases hfst.lt_or_eq with hlt | heq
  · have hsnd : e.2 ≤ last.1 := hm e he last hmem hlt
    exact absurd (hsnd.trans (OrderedMap.prev_upperBound_le hlast)) (not_le.mpr hgt)
  · rw [hlast, OrderedMap.eq_of_mem he hmem heq]

lemma Ordered.isAllocated_iff (hm : m.Ordered) {p : UInt32} :
    m.isAllocated p = true ↔ ∃ e ∈ m.allocated.entries, e.1 ≤ p ∧ p < e.2 := by
  rw [isAllocated_eq, Option.any_eq_true]
  constructor
  · rintro ⟨e, hprev, hgt⟩
    exact ⟨e, OrderedMap.mem_of_prev hprev, OrderedMap.prev_upperBound_le hprev, by simpa using hgt⟩
  · rintro ⟨e, he, hle, hgt⟩
    exact ⟨e, last_beyond hm he hle hgt, by simpa using hgt⟩

/-- **`is_allocated(p)`** tells whether an allocated segment contains the port. -/
lemma isAllocated_iff (hm : Tiles m.segments low high) {p : UInt32} :
    m.isAllocated p = true ↔ ∃ e ∈ m.allocated.entries, e.1 ≤ p ∧ p < e.2 :=
  (ordered_of_tiles hm).isAllocated_iff

lemma isAllocatedRange_eq (m : PortManager) (l h : UInt32) :
    m.isAllocatedRange l h = (m.isAllocated l ||
      (m.allocated.upperBound l).any fun e => e.1 < h) := by
  rw [isAllocated_eq]
  unfold isAllocatedRange
  split_ifs with hempty
  · have hnil := List.length_eq_zero_iff.mp hempty
    simp [OrderedMap.upperBound, OrderedMap.prev, hnil]
  · simp only
    cases m.allocated.prev (m.allocated.upperBound l) with
    | none => simp
    | some e => simp

/-- **`is_allocated(l, h)`** tells whether some port of the range is allocated. -/
lemma isAllocatedRange_iff (hm : Tiles m.segments low high) {l h : UInt32} (hlh : l < h) :
    m.isAllocatedRange l h = true ↔ ∃ q, l ≤ q ∧ q < h ∧ m.isAllocated q = true := by
  rw [isAllocatedRange_eq, Bool.or_eq_true, Option.any_eq_true]
  constructor
  · rintro (hl | ⟨e, hub, hlt⟩)
    · exact ⟨l, le_rfl, hlh, hl⟩
    · obtain ⟨hmem, hgt⟩ := OrderedMap.mem_of_upperBound hub
      have hne : e.1 < e.2 := hm.nonempty e (List.mem_append_right _ hmem)
      refine ⟨e.1, hgt.le, by simpa using hlt, (isAllocated_iff hm).mpr ?_⟩
      exact ⟨e, hmem, le_rfl, hne⟩
  · rintro ⟨q, hlq, hqh, hq⟩
    obtain ⟨e, he, hle, hgt⟩ := (isAllocated_iff hm).mp hq
    rcases le_or_gt e.1 l with hel | hel
    · exact Or.inl ((isAllocated_iff hm).mpr ⟨e, he, hel, hlq.trans_lt hgt⟩)
    · obtain ⟨first, hub, hfst⟩ := OrderedMap.exists_upperBound he hel
      exact Or.inr ⟨first, hub, by simpa using (hfst.trans hle).trans_lt hqh⟩

/-! ## The invariant -/

/-- The segments tile the range, and `allocated_` holds the live ones. -/
structure Accounted (m : PortManager) (log : List Event) (low high : UInt32) : Prop where
  low_eq : m.low = low
  high_eq : m.high = high
  tiles : Tiles m.segments low high
  records : Ledger.Records m.allocated log

lemma Accounted.new (hrange : low < high) : Accounted (new low high) [] low high where
  low_eq := rfl
  high_eq := rfl
  tiles := Tiles.single hrange
  records := Ledger.Records.empty

/-- A cut starts where no allocated segment does. -/
lemma fresh_of_free (hm : Tiles m.segments low high) {f s lo : UInt32}
    (hmem : (f, s) ∈ m.freeMap.entries) (hlo : f ≤ lo) (hlos : lo < s) :
    ∀ e ∈ m.allocated.entries, e.1 ≠ lo := fun _ he =>
  (hm.perm (segments_perm_free hmem)).fst_ne ⟨hlo, hlos⟩ (List.mem_append_right _ he)

lemma Accounted.change {log new : List Event} {m' : PortManager}
    (hm : Accounted m log low high) (h : Change m new m') :
    Accounted m' (log ++ new) low high where
  low_eq := by cases h <;> exact hm.low_eq
  high_eq := by cases h <;> exact hm.high_eq
  tiles := h.tiles hm.tiles
  records := by
    cases h with
    | threw =>
        rw [List.append_nil]
        exact hm.records
    | taken hmem hlo hlohi hhi =>
        exact hm.records.insert (fresh_of_free hm.tiles hmem hlo (hlohi.trans_le hhi)) _
    | given junk hmem => exact hm.records.erase _

lemma Accounted.afterCalls {log : List Event} (hm : Accounted m log low high) (calls : List Call)
    (hcalls : ∀ call ∈ calls, call.WellFormed) :
    Accounted (m.afterCalls calls) (log ++ m.logOf calls) low high := by
  induction calls generalizing m log with
  | nil =>
      rw [logOf, List.append_nil]
      exact hm
  | cons call rest ih =>
      obtain ⟨hcall, hrest⟩ := List.forall_mem_cons.mp hcalls
      have hstep := hm.change (perform_change (free_nonempty hm.tiles) hcall)
      rw [logOf, ← List.append_assoc]
      exact ih hstep hrest

/-! ## The operations against the log -/

variable {log : List Event}

lemma Accounted.isAllocated_iff (hm : Accounted m log low high) (p : UInt32) :
    m.isAllocated p = true ↔ ∃ l r, Live log l r ∧ l ≤ p ∧ p < r := by
  rw [PortManager.isAllocated_iff hm.tiles]
  constructor
  · rintro ⟨e, he, hle, hgt⟩
    exact ⟨e.1, e.2, (hm.records e.1 e.2).mp he, hle, hgt⟩
  · rintro ⟨l, r, hlive, hle, hgt⟩
    exact ⟨(l, r), (hm.records l r).mpr hlive, hle, hgt⟩

/-- No port of a free segment is allocated. -/
lemma free_not_allocated (hm : Tiles m.segments low high) {e : PortPair}
    (he : e ∈ m.freeMap.entries) {q : UInt32} (hle : e.1 ≤ q) (hgt : q < e.2) :
    m.isAllocated q = false := by
  rw [Bool.eq_false_iff, Ne, PortManager.isAllocated_iff hm]
  rintro ⟨e', he', hle', hgt'⟩
  have hd := (List.pairwise_append.mp hm.disjoint).2.2 e he e' he'
  exact Set.disjoint_left.mp hd ⟨hle, hgt⟩ ⟨hle', hgt'⟩

lemma Accounted.allocate_ok (hm : Accounted m log low high) {cnt l r : UInt32} (hcnt : 1 ≤ cnt)
    (hok : (allocate cnt m).1 = .ok (l, r)) :
    low ≤ l ∧ r ≤ high ∧ l.toNat + cnt.toNat = r.toNat ∧
      ∀ q, l ≤ q → q < r → m.isAllocated q = false := by
  rcases allocate_run (free_nonempty hm.tiles) hcnt with ⟨-, hrun⟩ | ⟨f, s, lo, hmem, hlo, -,
    hsize, hrun⟩
  · rw [hrun] at hok
    cases hok
  · rw [hrun] at hok
    cases hok
    have hfree := List.mem_append_left m.allocated.entries hmem
    refine ⟨(hm.tiles.bounds hfree).1.trans hlo, hm.tiles.snd_le_high hfree, hsize, ?_⟩
    intro q hle hgt
    exact free_not_allocated hm.tiles hmem (hlo.trans hle) hgt

lemma Accounted.deallocate_ok_iff (hm : Accounted m log low high) (p junk : UInt32) :
    (deallocate p junk m).1 = .ok () ↔ ∃ r, Live log p r := by
  simp only [← hm.records p]
  constructor
  · intro hok
    cases hfind : m.allocated.find? p with
    | none =>
        rw [deallocate_absent hfind] at hok
        cases hok
    | some second => exact ⟨second, OrderedMap.find?_eq_some.mp hfind⟩
  · rintro ⟨r, hmem⟩
    rw [deallocate_present (OrderedMap.find?_eq_some.mpr hmem)]

/-- A deallocation frees the ports of its segment and no other. -/
lemma Accounted.deallocate_frees (hm : Accounted m log low high) {p r : UInt32} (junk : UInt32)
    (hlive : Live log p r) (q : UInt32) :
    (deallocate p junk m).2.isAllocated q = true ↔
      m.isAllocated q = true ∧ ¬ (p ≤ q ∧ q < r) := by
  have hmem : (p, r) ∈ m.allocated.entries := (hm.records p r).mpr hlive
  have hafter := hm.change (Change.given junk hmem)
  rw [deallocate_present (OrderedMap.find?_eq_some.mpr hmem),
    PortManager.isAllocated_iff hafter.tiles, PortManager.isAllocated_iff hm.tiles]
  simp only [OrderedMap.mem_erase]
  constructor
  · rintro ⟨e, ⟨he, hne⟩, hle, hgt⟩
    refine ⟨⟨e, he, hle, hgt⟩, fun hq => hne ?_⟩
    have heq : e = (p, r) := hm.tiles.eq_of_mem_points (List.mem_append_right _ he)
      (List.mem_append_right _ hmem) ⟨hle, hgt⟩ hq
    rw [heq]
  · rintro ⟨⟨e, he, hle, hgt⟩, hq⟩
    refine ⟨e, ⟨he, fun hfst => hq ?_⟩, hle, hgt⟩
    have heq : e = (p, r) := OrderedMap.eq_of_mem he hmem hfst
    rw [heq] at hle hgt
    exact ⟨hle, hgt⟩

/-- **The manager is an exact ledger.**  After every sequence of calls, throwing ones included: a
port is allocated if and only if it is in a live segment; a counted allocation returns that many
ports of the range, none of them allocated; a deallocation succeeds if and only if its port starts
a live segment, and then it frees this segment; and a range is partly allocated if and only if
some port of it is. -/
theorem ledger_exact (low high : UInt32) (hrange : low < high) (calls : List Call)
    (hcalls : ∀ call ∈ calls, call.WellFormed) :
    let m := (new low high).afterCalls calls
    let log := (new low high).logOf calls
    (∀ p, m.isAllocated p = true ↔ ∃ l r, Live log l r ∧ l ≤ p ∧ p < r) ∧
      (∀ cnt l r, 1 ≤ cnt → (allocate cnt m).1 = .ok (l, r) →
        low ≤ l ∧ r ≤ high ∧ l.toNat + cnt.toNat = r.toNat ∧
          ∀ q, l ≤ q → q < r → m.isAllocated q = false) ∧
      (∀ p junk, ((deallocate p junk m).1 = .ok () ↔ ∃ r, Live log p r) ∧
        ∀ r, Live log p r → ∀ q, (deallocate p junk m).2.isAllocated q = true ↔
          m.isAllocated q = true ∧ ¬ (p ≤ q ∧ q < r)) ∧
      ∀ l h, l < h →
        (m.isAllocatedRange l h = true ↔ ∃ q, l ≤ q ∧ q < h ∧ m.isAllocated q = true) := by
  have hm := (Accounted.new hrange).afterCalls calls hcalls
  rw [List.nil_append] at hm
  refine ⟨hm.isAllocated_iff, ?_, ?_, ?_⟩
  · intro cnt l r hcnt hok
    exact hm.allocate_ok hcnt hok
  · intro p junk
    exact ⟨hm.deallocate_ok_iff p junk, fun r hlive q => hm.deallocate_frees junk hlive q⟩
  · intro l h hlh
    exact isAllocatedRange_iff hm.tiles hlh

/-- Two allocations, a free and a call that throws: `[1, 10)` is what stays allocated. -/
theorem ledger_exact_mixed :
    let calls : List Call :=
      [.allocate 1000, .allocateExact 1 10, .deallocate 1001 0, .deallocate 5 0]
    (new 1 2001).logOf calls = [.opened 1001 2001, .opened 1 10, .closed 1001] ∧
      ∀ p, ((new 1 2001).afterCalls calls).isAllocated p = true ↔
        ∃ l r, Live ((new 1 2001).logOf calls) l r ∧ l ≤ p ∧ p < r := by
  refine ⟨rfl, (ledger_exact 1 2001 (by decide) _ fun call hcall => ?_).1⟩
  simp only [List.mem_cons, List.not_mem_nil, or_false] at hcall
  rcases hcall with rfl | rfl | rfl | rfl
  · exact (show (1 : UInt32) ≤ 1000 by decide)
  · exact (show (1 : UInt32) < 10 by decide)
  · trivial
  · trivial

end PortManager

end Libport
