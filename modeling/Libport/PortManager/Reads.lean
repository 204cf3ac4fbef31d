import Libport.PortManager.Complete

/-!
# Reads through iterators

The operations once more, with every read through an iterator checked: reading at `end()` and
moving back from `begin()` give `none`, and then the operation has no result.

* `isAllocatedChecked_eq`, `isAllocatedRangeChecked_eq`, `allocateChecked_eq`,
  `allocateExactChecked_eq`: the tests for `begin()` and `end()` protect every read of these.
* `deallocateChecked_eq`: `deallocate` reads `free_index->first` before it tests the iterator, so
  that it needs a free segment beyond the one given back.
* **`reads_existing_iff`**: the states of a run in which no operation can read through `end()`.
-/

namespace Libport

namespace PortManager

variable {m : PortManager} {low high : UInt32}

/-! ## The operations with checked reads -/

/-- `is_allocated(p)`. -/
def isAllocatedChecked (m : PortManager) (p : UInt32) : Option Bool :=
  if m.allocated.entries.length = 0 then some false
  else
    let index := m.allocated.upperBound p
    if index = m.allocated.begin then some false
    else do
      let index ← m.allocated.prev index
      some (index.2 > p)

/-- `is_allocated(l, h)`. -/
def isAllocatedRangeChecked (m : PortManager) (l h : UInt32) : Option Bool :=
  if m.allocated.entries.length = 0 then some false
  else
    let index := m.allocated.upperBound l
    if index = m.allocated.begin then do
      let index ← index
      some (index.1 < h)
    else do
      let index2 ← m.allocated.prev index
      if index2.2 > l then some true
      else if index ≠ none then do
        let index ← index
        some (index.1 < h)
      else some false

/-- The loop of `find_fit(cnt)`; an iterator is the list of entries from it on, so that `end()` is
the empty list. -/
def findFitLoop (cnt : UInt32) : List PortPair → PortPair
  | [] => bad
  | i :: rest => if cnt ≤ i.2 - i.1 then i else findFitLoop cnt rest

/-- `find_fit(lo, hi)`. -/
def findFitExactChecked (m : PortManager) (lo hi : UInt32) : Option (Except PortError PortPair) :=
  let p := m.freeMap.upperBound lo
  if p = m.freeMap.begin then
    some (.error (.bug "consistency broken: must be a segment smaller than lower bound"))
  else do
    let p ← m.freeMap.prev p
    if p.2 < hi then
      some (.error (.bug "consistency broken: target segment must include given range"))
    else some (.ok p)

/-- `allocate(cnt)`: what it reads of the maps it reads in `find_fit`. -/
def allocateChecked (cnt : UInt32) (m : PortManager) :
    Option (Except PortError PortPair × PortManager) :=
  let index := findFitLoop cnt m.freeMap.entries
  if index = bad then some (.error .full, m)
  else
    let available := index.2 - index.1
    let remain := available - cnt
    let freeMap :=
      if remain ≥ 1 then m.freeMap.insert index.1 (index.1 + remain)
      else m.freeMap.erase index.1
    some (.ok (index.1 + remain, index.2), { m with
      freeMap := freeMap
      allocated := m.allocated.insert (index.1 + remain) index.2 })

/-- `allocate(lo, hi)`. -/
def allocateExactChecked (lo hi : UInt32) (m : PortManager) :
    Option (Except PortError PortPair × PortManager) :=
  if lo < m.low ∨ hi > m.high then some (.error (.badRange lo hi), m)
  else do
    let used ← m.isAllocatedRangeChecked lo hi
    if used then some (.error (.badRange lo hi), m)
    else do
      let found ← m.findFitExactChecked lo hi
      match found with
      | .error e => some (.error e, m)
      | .ok p =>
          let freeMap := if p.1 < lo then m.freeMap.insert p.1 lo else m.freeMap.erase p.1
          let freeMap := if p.2 > hi then freeMap.insert hi p.2 else freeMap
          some (.ok (lo, hi), { m with
            freeMap := freeMap
            allocated := m.allocated.insert lo hi })

/-- The merge of `deallocate` with the segment on the left. -/
def mergeLeftChecked (freeMap : OrderedMap UInt32 UInt32) (freeIndex : Option PortPair)
    (first second : UInt32) : Option (OrderedMap UInt32 UInt32) :=
  if freeIndex = freeMap.begin then some (freeMap.insert first second)
  else do
    let left ← freeMap.prev freeIndex
    some (if left.2 = first then freeMap.insert left.1 second else freeMap.insert first second)

/-- `deallocate(p)`.  The merge on the right reads its iterator only where it has an entry. -/
def deallocateChecked (p : UInt32) (m : PortManager) :
    Option (Except PortError Unit × PortManager) :=
  match m.allocated.find? p with
  | none => some (.error (.badPort p), m)
  | some second => do
      let freeIndex := m.freeMap.upperBound p
      let value ← freeIndex.map Prod.fst
      let (freeMap, freeIndex, second) := mergeRight m.freeMap freeIndex value second
      let freeMap ← mergeLeftChecked freeMap freeIndex p second
      some (.ok (), { m with
        freeMap := freeMap
        allocated := m.allocated.erase p })

/-- Every operation, on every argument, reads existing entries only. -/
structure ReadsExisting (m : PortManager) : Prop where
  isAllocated : ∀ p, (m.isAllocatedChecked p).isSome
  isAllocatedRange : ∀ l h, (m.isAllocatedRangeChecked l h).isSome
  findFitExact : ∀ lo hi, (m.findFitExactChecked lo hi).isSome
  allocate : ∀ cnt, (m.allocateChecked cnt).isSome
  allocateExact : ∀ lo hi, (m.allocateExactChecked lo hi).isSome
  deallocate : ∀ p, (m.deallocateChecked p).isSome

/-! ## The reads that are protected -/

lemma mem_upperBound {map : OrderedMap UInt32 UInt32} {k : UInt32} :
    ∀ e ∈ map.upperBound k, e ∈ map.entries := fun _ h => (OrderedMap.mem_of_upperBound h).1

/-- `is_allocated(p)` reads existing entries. -/
lemma isAllocatedChecked_eq (m : PortManager) (p : UInt32) :
    m.isAllocatedChecked p = some (m.isAllocated p) := by
  unfold isAllocatedChecked isAllocated
  split_ifs with hempty
  · rfl
  · by_cases hbegin : m.allocated.upperBound p = m.allocated.begin
    · simp [hbegin, OrderedMap.prev_begin]
    · obtain ⟨index, hprev⟩ := OrderedMap.exists_prev_of_ne_begin mem_upperBound hbegin
      simp [hbegin, hprev]

/-- `is_allocated(l, h)` reads existing entries: at `begin()` the map is not empty, and the second
read is behind a test for `end()`. -/
lemma isAllocatedRangeChecked_eq (m : PortManager) (l h : UInt32) :
    m.isAllocatedRangeChecked l h = some (m.isAllocatedRange l h) := by
  unfold isAllocatedRangeChecked isAllocatedRange
  split_ifs with hempty
  · rfl
  · by_cases hbegin : m.allocated.upperBound l = m.allocated.begin
    · obtain ⟨first, rest, hentries⟩ := List.exists_cons_of_length_pos (Nat.pos_of_ne_zero hempty)
      have hfirst : m.allocated.begin = some first := by
        rw [OrderedMap.begin, hentries, List.head?_cons]
      have hprev := m.allocated.prev_begin
      rw [hfirst] at hbegin hprev
      simp [hfirst, hbegin, hprev]
    · obtain ⟨index2, hprev⟩ := OrderedMap.exists_prev_of_ne_begin mem_upperBound hbegin
      simp only [hbegin, if_false, hprev, Option.bind_eq_bind, Option.bind_some]
      by_cases hgt : index2.2 > l
      · simp [hgt]
      · cases m.allocated.upperBound l with
        | none => simp [hgt]
        | some index => simp [hgt]

lemma findFitLoop_eq (m : PortManager) (cnt : UInt32) :
    findFitLoop cnt m.freeMap.entries = m.findFit cnt := by
  unfold findFit
  induction m.freeMap.entries with
  | nil => rfl
  | cons i rest ih =>
      by_cases hfit : cnt ≤ i.2 - i.1
      · simp [findFitLoop, hfit]
      · simp [findFitLoop, hfit, ih]

/-- `find_fit(lo, hi)` reads existing entries. -/
lemma findFitExactChecked_eq (m : PortManager) (lo hi : UInt32) :
    m.findFitExactChecked lo hi = some (m.findFitExact lo hi) := by
  unfold findFitExactChecked findFitExact
  by_cases hbegin : m.freeMap.upperBound lo = m.freeMap.begin
  · simp [hbegin, OrderedMap.prev_begin]
  · obtain ⟨p, hprev⟩ := OrderedMap.exists_prev_of_ne_begin mem_upperBound hbegin
    simp only [hbegin, if_false, hprev, Option.bind_eq_bind, Option.bind_some]
    split_ifs <;> rfl

lemma allocateChecked_eq (m : PortManager) (cnt : UInt32) :
    allocateChecked cnt m = some (allocate cnt m) := by
  simp only [allocateChecked, findFitLoop_eq, allocate, Action.bind_run, Action.get_run]
  split_ifs <;> rfl

lemma allocateExactChecked_eq (m : PortManager) (lo hi : UInt32) :
    allocateExactChecked lo hi m = some (allocateExact lo hi m) := by
  simp only [allocateExactChecked, isAllocatedRangeChecked_eq, findFitExactChecked_eq,
    Option.bind_eq_bind, Option.bind_some, allocateExact, Action.bind_run, Action.get_run]
  by_cases hrange : lo < m.low ∨ hi > m.high
  · simp [hrange]
  by_cases hused : m.isAllocatedRange lo hi = true
  · simp [hrange, hused]
  cases hfit : m.findFitExact lo hi with
  | error e => simp [hrange, hused]
  | ok p => simp [hrange, hused]

/-! ## The read that is not -/

/-- The iterator that the merge on the right leaves is one of the map it leaves. -/
lemma mem_mergeRight {free : OrderedMap UInt32 UInt32} {freeIndex : Option PortPair}
    (hidx : ∀ e ∈ freeIndex, e ∈ free.entries) (value second : UInt32) :
    ∀ e ∈ (mergeRight free freeIndex value second).2.1,
      e ∈ (mergeRight free freeIndex value second).1.entries := by
  unfold mergeRight
  cases freeIndex with
  | none => simp
  | some right =>
      simp only
      split_ifs with htouch
      · intro e he
        obtain ⟨last, hfind, rfl⟩ := Option.map_eq_some_iff.mp he
        exact OrderedMap.find?_eq_some.mp hfind
      · exact hidx

lemma mergeLeftChecked_eq {free : OrderedMap UInt32 UInt32} {freeIndex : Option PortPair}
    (hidx : ∀ e ∈ freeIndex, e ∈ free.entries) (first second : UInt32) :
    mergeLeftChecked free freeIndex first second
      = some (mergeLeft free freeIndex first second) := by
  unfold mergeLeftChecked mergeLeft
  by_cases hbegin : freeIndex = free.begin
  · simp [hbegin, OrderedMap.prev_begin]
  · obtain ⟨left, hprev⟩ := OrderedMap.exists_prev_of_ne_begin hidx hbegin
    simp [hbegin, hprev]

/-- **What `deallocate` reads.**  It fails to find an entry exactly when the segment is live and no
free segment lies beyond it; otherwise nothing depends on what `end()` would yield. -/
lemma deallocateChecked_eq (m : PortManager) (p junk : UInt32) :
    deallocateChecked p m =
      if (m.allocated.find? p).isSome ∧ m.freeMap.upperBound p = none then none
      else some (deallocate p junk m) := by
  unfold deallocateChecked
  cases hfind : m.allocated.find? p with
  | none => simp [deallocate_absent hfind]
  | some second =>
      rw [deallocate_present hfind]
      cases hub : m.freeMap.upperBound p with
      | none => simp
      | some right =>
          have hmem := mem_mergeRight (hub ▸ mem_upperBound) right.1 second
          simp [mergeLeftChecked_eq hmem, giveBack, hub]

/-- The segment is live and no free one starts beyond its left end. -/
def ReadsEnd (m : PortManager) (p : UInt32) : Prop :=
  ∃ second, (p, second) ∈ m.allocated.entries ∧ ∀ f ∈ m.freeMap.entries, f.1 ≤ p

lemma deallocateChecked_none_iff (m : PortManager) (p : UInt32) :
    deallocateChecked p m = none ↔ m.ReadsEnd p := by
  rw [deallocateChecked_eq m p 0, ReadsEnd, ← OrderedMap.upperBound_eq_none]
  simp only [← OrderedMap.find?_eq_some, Option.isSome_iff_exists, ite_eq_left_iff,
    reduceCtorEq, imp_false, not_not, exists_and_right]

/-- Everything depends on `deallocate`. -/
lemma readsExisting_iff (m : PortManager) : ReadsExisting m ↔ ∀ p, ¬ m.ReadsEnd p := by
  constructor
  · intro h p hend
    have hsome := h.deallocate p
    rw [(deallocateChecked_none_iff m p).mpr hend] at hsome
    cases hsome
  · intro h
    refine ⟨?_, ?_, ?_, ?_, ?_, ?_⟩
    · simp [isAllocatedChecked_eq]
    · simp [isAllocatedRangeChecked_eq]
    · simp [findFitExactChecked_eq]
    · simp [allocateChecked_eq]
    · simp [allocateExactChecked_eq]
    · intro p
      rw [Option.isSome_iff_ne_none, Ne, deallocateChecked_none_iff]
      exact h p

/-! ## Runs -/

lemma last_port {low high : UInt32} (hrange : low < high) :
    low ≤ high - 1 ∧ high - 1 < high ∧ ∀ q, high - 1 < q → high ≤ q := by
  have hone : (1 : UInt32).toNat = 1 := rfl
  rw [UInt32.lt_iff_toNat_lt] at hrange
  have hle : (1 : UInt32) ≤ high := by
    rw [UInt32.le_iff_toNat_le, hone]
    omega
  have hsub : (high - 1).toNat = high.toNat - 1 := UInt32.toNat_sub_of_le high 1 hle
  simp only [UInt32.le_iff_toNat_le, UInt32.lt_iff_toNat_lt, hsub]
  refine ⟨by omega, by omega, fun q hq => by omega⟩

/-- A free segment lies beyond every allocated one exactly when the last port is free. -/
lemma exists_readsEnd_iff (hrange : low < high) (hm : Tiles m.segments low high) :
    (∀ p, ¬ m.ReadsEnd p) ↔ m.isAllocated (high - 1) = false := by
  obtain ⟨hlow, hlast, hnext⟩ := last_port hrange
  rw [Bool.eq_false_iff, Ne, isAllocated_iff hm]
  constructor
  · rintro hread ⟨e, he, hle, hlt⟩
    refine hread e.1 ⟨e.2, he, fun f hf => ?_⟩
    by_contra hgt
    have hmem := List.mem_append_left m.allocated.entries hf
    have hsnd : e.2 ≤ f.1 := hm.snd_le_fst (List.mem_append_right _ he) hmem (not_le.mp hgt)
    exact absurd ((hnext e.2 hlt).trans hsnd) (not_le.mpr (hm.bounds hmem).2)
  · rintro hnot p ⟨second, hp, hbeyond⟩
    obtain ⟨u, hu, hle, hlt⟩ := (hm.cover (high - 1)).mpr ⟨hlow, hlast⟩
    rcases List.mem_append.mp hu with hfree | halloc
    · -- the free segment with the last port would start beyond `p`
      have hin := List.mem_append_right m.freeMap.entries hp
      have hne := hm.fst_ne_fst hfree hp
      have hbefore : u.2 ≤ p := hm.snd_le_fst hu hin ((hbeyond u hfree).lt_of_ne hne)
      have hphigh : p < high := (hm.bounds hin).2
      exact absurd ((hnext u.2 hlt).trans hbefore) (not_le.mpr hphigh)
    · exact hnot ⟨u, halloc, hle, hlt⟩

/-- **When no operation can read through `end()`.**  In every state of a run, all operations read
existing entries on all arguments if and only if the last port of the range is not allocated; and
the only read that fails is that of `deallocate` for a live segment without a free one beyond. -/
theorem reads_existing_iff (low high : UInt32) (hrange : low < high) (calls : List Call)
    (hcalls : ∀ call ∈ calls, call.WellFormed) :
    let m := (new low high).afterCalls calls
    (ReadsExisting m ↔ m.isAllocated (high - 1) = false) ∧
      (∀ p, m.deallocateChecked p = none ↔ m.ReadsEnd p) ∧
      (∀ p, m.isAllocatedChecked p = some (m.isAllocated p)) ∧
      (∀ l h, m.isAllocatedRangeChecked l h = some (m.isAllocatedRange l h)) ∧
      (∀ cnt, m.allocateChecked cnt = some (allocate cnt m)) ∧
      ∀ lo hi, m.allocateExactChecked lo hi = some (allocateExact lo hi m) := by
  intro m
  have hm := ((Accounted.new hrange).afterCalls calls hcalls).tiles
  refine ⟨?_, deallocateChecked_none_iff m, isAllocatedChecked_eq m,
    isAllocatedRangeChecked_eq m, allocateChecked_eq m, allocateExactChecked_eq m⟩
  rw [readsExisting_iff]
  exact exists_readsEnd_iff hrange hm

/-- Ports 3 and 4 are taken, and the segment beyond them stays free. -/
theorem reads_existing_inside :
    ReadsExisting ((new 1 10).afterCalls [.allocateExact 3 5]) := by
  refine (reads_existing_iff 1 10 (by decide) _ fun call hcall => ?_).1.mpr rfl
  rcases List.mem_singleton.mp hcall with rfl
  exact (show (3 : UInt32) < 5 by decide)

/-- After `allocate(3)` the segment at 7 is the last one, and giving it back reads through
`end()`. -/
theorem deallocate_reads_end :
    let m := (new 1 10).afterCalls [.allocate 3]
    (allocate 3 (new 1 10)).1 = .ok (7, 10) ∧ m.deallocateChecked 7 = none ∧
      ¬ ReadsExisting m := by
  refine ⟨rfl, rfl, fun h => ?_⟩
  have hsome := h.deallocate 7
  cases hsome

end PortManager

end Libport
