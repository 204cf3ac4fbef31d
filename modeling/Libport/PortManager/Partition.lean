import Libport.Lib.Padding
import Libport.PortManager.Change

/-!
# The free and the allocated segments partition the range

Whatever sequence of calls is made, every port of `[low, high)` is in exactly one segment, free
or allocated.  Up to order, each operation cuts a segment of the combined list or joins two that
touch, so the invariant is `Tiles` of that list and each step is `Tiles.split` or `Tiles.join`.

* `cutOut_tiles`, `giveBack_tiles`: what a call can do to the maps.
* `Change.tiles`: one call.
* **`afterCalls_tiles`**: every finite sequence of calls.
-/

namespace Libport

namespace PortManager

/-- All segments, free and allocated. -/
def segments (m : PortManager) : List PortPair := m.freeMap.entries ++ m.allocated.entries

variable {m : PortManager} {low high : UInt32}

lemma segments_perm_free {e : PortPair} (h : e ∈ m.freeMap.entries) :
    m.segments.Perm (e :: ((m.freeMap.erase e.1).entries ++ m.allocated.entries)) :=
  (OrderedMap.entries_perm_erase h).append_right _

/-! ## Cutting a range out -/

/-- What is left of a free segment on the left of `lo`. -/
def leftOf (f lo : UInt32) : List PortPair := if f < lo then [(f, lo)] else []

/-- What is left of a free segment on the right of `hi`. -/
def rightOf (hi s : UInt32) : List PortPair := if s > hi then [(hi, s)] else []

lemma fst_of_mem_leftOf {f lo : UInt32} {e : PortPair} (h : e ∈ leftOf f lo) : e.1 = f := by
  unfold leftOf at h
  split_ifs at h
  · rw [List.mem_singleton.mp h]
  · exact absurd h List.not_mem_nil

/-- The free map after the left boundary of the segment is adjusted. -/
lemma entries_leftOf (free : OrderedMap UInt32 UInt32) (f lo : UInt32) :
    (if f < lo then free.insert f lo else free.erase f).entries.Perm
      (leftOf f lo ++ (free.erase f).entries) := by
  unfold leftOf
  split_ifs
  · exact free.entries_insert_perm f lo
  · exact List.Perm.refl _

/-- And after the right one. -/
lemma entries_rightOf {free : OrderedMap UInt32 UInt32} {hi s : UInt32}
    (h : s > hi → ∀ e ∈ free.entries, e.1 ≠ hi) :
    (if s > hi then free.insert hi s else free).entries.Perm (rightOf hi s ++ free.entries) := by
  unfold rightOf
  split_ifs with hgt
  · exact OrderedMap.entries_insert_fresh (h hgt) s
  · exact List.Perm.refl _

/-- Cutting `[lo, hi)` out of a segment. -/
lemma keeps_cut {T : List PortPair → Prop} (hT : CutRules T) {f s lo hi : UInt32}
    {rest : List PortPair} (h : T ((f, s) :: rest)) (hlo : f ≤ lo) (hlohi : lo < hi)
    (hhi : hi ≤ s) : T ((lo, hi) :: (rightOf hi s ++ (leftOf f lo ++ rest))) := by
  have hleft : T ((lo, s) :: (leftOf f lo ++ rest)) := by
    unfold leftOf
    rcases hlo.lt_or_eq with hlt | rfl
    · rw [if_pos hlt]
      exact hT.perm (hT.split h hlt (hlohi.trans_le hhi)) (List.Perm.swap _ _ _)
    · rw [if_neg (lt_irrefl f)]
      exact h
  unfold rightOf
  rcases hhi.lt_or_eq with hlt | rfl
  · rw [if_pos hlt]
    exact hT.split hleft hlohi hlt
  · rw [if_neg (lt_irrefl hi)]
    exact hleft

lemma cutOut_keeps {T : List PortPair → Prop} (hT : CutRules T) {f s lo hi : UInt32}
    (hmem : (f, s) ∈ m.freeMap.entries) (hlo : f ≤ lo) (hlohi : lo < hi) (hhi : hi ≤ s)
    (hm : T m.segments) :
    T ((cutOut m.freeMap f s lo hi).entries ++ (m.allocated.insert lo hi).entries) := by
  have hfront := hT.perm hm (segments_perm_free hmem)
  have hfresh : ∀ e ∈ m.allocated.entries, e.1 ≠ lo := fun e he =>
    hT.fst_ne hfront ⟨hlo, hlohi.trans_le hhi⟩ (List.mem_append_right _ he)
  have halloc := OrderedMap.entries_insert_fresh hfresh hi
  generalize hfree : (if f < lo then m.freeMap.insert f lo else m.freeMap.erase f) = free
  have hleft := entries_leftOf m.freeMap f lo
  rw [hfree] at hleft
  have hnew : s > hi → ∀ e ∈ free.entries, e.1 ≠ hi := by
    intro hgt e he
    rcases List.mem_append.mp (hleft.mem_iff.mp he) with hcut | hrest
    · rw [fst_of_mem_leftOf hcut]
      exact (hlo.trans_lt hlohi).ne
    · exact hT.fst_ne hfront ⟨hlo.trans hlohi.le, hgt⟩ (List.mem_append_left _ hrest)
  have hfreeAll := (entries_rightOf hnew).trans (hleft.append_left _)
  simp only [cutOut, hfree]
  refine hT.perm (keeps_cut hT hfront hlo hlohi hhi) ?_
  refine List.Perm.trans ?_ (hfreeAll.append halloc).symm
  refine List.Perm.trans (List.Perm.cons _ ?_) List.perm_middle.symm
  simp [List.append_assoc]

lemma cutOut_tiles {f s lo hi : UInt32} (hmem : (f, s) ∈ m.freeMap.entries) (hlo : f ≤ lo)
    (hlohi : lo < hi) (hhi : hi ≤ s) (hm : Tiles m.segments low high) :
    Tiles ((cutOut m.freeMap f s lo hi).entries ++ (m.allocated.insert lo hi).entries)
      low high :=
  cutOut_keeps Tiles.rules hmem hlo hlohi hhi hm

/-! ## Deallocating -/

/-- Joining the segment to be freed with the free one on its right. -/
lemma mergeRight_keeps {T : List PortPair → Prop} (hT : CutRules T)
    {free : OrderedMap UInt32 UInt32} {freeIndex : Option PortPair} {rest : List PortPair}
    (hidx : ∀ right, freeIndex = some right → right ∈ free.entries) (value p second : UInt32)
    (h : T ((p, second) :: (free.entries ++ rest))) :
    T ((p, (mergeRight free freeIndex value second).2.2)
      :: ((mergeRight free freeIndex value second).1.entries ++ rest)) := by
  unfold mergeRight
  cases freeIndex with
  | none => exact h
  | some right =>
      simp only
      split_ifs with htouch
      · have hperm := (OrderedMap.entries_perm_erase (hidx right rfl)).append_right rest
        have hjoin := hT.perm h (hperm.cons _)
        rw [← htouch] at hjoin
        exact hT.join hjoin
      · exact h

/-- Joining the segment with the free one before the iterator, or adding it. -/
lemma mergeLeft_keeps {T : List PortPair → Prop} (hT : CutRules T)
    {free : OrderedMap UInt32 UInt32} (freeIndex : Option PortPair) {rest : List PortPair}
    {p second : UInt32} (hps : p < second) (h : T ((p, second) :: (free.entries ++ rest))) :
    T ((mergeLeft free freeIndex p second).entries ++ rest) := by
  have hfresh : ∀ e ∈ free.entries, e.1 ≠ p := fun e he =>
    hT.fst_ne h ⟨le_rfl, hps⟩ (List.mem_append_left _ he)
  have hnew := (OrderedMap.entries_insert_fresh hfresh second).append_right rest
  unfold mergeLeft
  cases hprev : free.prev freeIndex with
  | none => exact hT.perm h hnew.symm
  | some left =>
      simp only
      split_ifs with htouch
      · have hmem := OrderedMap.mem_of_prev hprev
        have hperm := (OrderedMap.entries_perm_erase hmem).append_right rest
        have hswap := hT.perm (hT.perm h (hperm.cons _)) (List.Perm.swap _ _ _)
        rw [← htouch] at hswap
        have hjoin := hT.join hswap
        exact hT.perm hjoin ((free.entries_insert_perm left.1 second).append_right rest).symm
      · exact hT.perm h hnew.symm

/-- The merge on the right does not move the right end to the left. -/
lemma le_mergeRight {free : OrderedMap UInt32 UInt32} {freeIndex : Option PortPair}
    (hidx : ∀ right, freeIndex = some right → right.1 ≤ right.2) (value second : UInt32) :
    second ≤ (mergeRight free freeIndex value second).2.2 := by
  unfold mergeRight
  cases freeIndex with
  | none => exact le_rfl
  | some right =>
      simp only
      split_ifs with htouch
      · exact htouch ▸ hidx right rfl
      · exact le_rfl

/-- Giving a segment back, whatever was read through `end()`. -/
lemma giveBack_keeps {T : List PortPair → Prop} (hT : CutRules T)
    (hfree : ∀ e ∈ m.freeMap.entries, e.1 ≤ e.2) {p second : UInt32} (junk : UInt32)
    (hmem : (p, second) ∈ m.allocated.entries) (hps : p < second) (hm : T m.segments) :
    T ((giveBack m.freeMap p second junk).entries ++ (m.allocated.erase p).entries) := by
  have hfront : T ((p, second) :: (m.freeMap.entries ++ (m.allocated.erase p).entries)) :=
    hT.perm hm (((OrderedMap.entries_perm_erase hmem).append_left _).trans List.perm_middle)
  have hidx : ∀ right, m.freeMap.upperBound p = some right → right ∈ m.freeMap.entries :=
    fun right h => (OrderedMap.mem_of_upperBound h).1
  have hright := mergeRight_keeps hT hidx (((m.freeMap.upperBound p).map Prod.fst).getD junk) p
    second hfront
  refine mergeLeft_keeps hT _ (hps.trans_le ?_) hright
  exact le_mergeRight (fun right h => hfree right (hidx right h)) _ _

lemma giveBack_tiles {p second : UInt32} (junk : UInt32) (hmem : (p, second) ∈ m.allocated.entries)
    (hm : Tiles m.segments low high) :
    Tiles ((giveBack m.freeMap p second junk).entries ++ (m.allocated.erase p).entries)
      low high := by
  have hfree : ∀ e ∈ m.freeMap.entries, e.1 ≤ e.2 := fun e he =>
    (hm.nonempty e (List.mem_append_left _ he)).le
  exact giveBack_keeps Tiles.rules hfree junk hmem
    (hm.nonempty (p, second) (List.mem_append_right _ hmem)) hm

/-! ## Sequences of calls -/

lemma Change.tiles {log : List Event} {m' : PortManager} (h : Change m log m')
    (hm : Tiles m.segments low high) : Tiles m'.segments low high := by
  cases h with
  | threw => exact hm
  | taken hmem hlo hlohi hhi => exact cutOut_tiles hmem hlo hlohi hhi hm
  | given junk hmem => exact giveBack_tiles junk hmem hm

lemma free_nonempty (hm : Tiles m.segments low high) : ∀ e ∈ m.freeMap.entries, e.1 < e.2 :=
  fun e he => hm.nonempty e (List.mem_append_left _ he)

/-- One call keeps the partition, also when it throws. -/
lemma perform_tiles {call : Call} (hcall : call.WellFormed) (hm : Tiles m.segments low high) :
    Tiles (call.perform m).segments low high :=
  (perform_change (free_nonempty hm) hcall).tiles hm

/-- **No port is lost and none is in two segments.**  After every sequence of calls, throwing
ones included, the free and the allocated segments tile `[low, high)`. -/
theorem afterCalls_tiles (low high : UInt32) (hrange : low < high) (calls : List Call)
    (hcalls : ∀ call ∈ calls, call.WellFormed) :
    Tiles ((new low high).afterCalls calls).segments low high := by
  have hnew : Tiles (new low high).segments low high := Tiles.single hrange
  unfold afterCalls
  generalize new low high = m at hnew
  induction calls generalizing m with
  | nil => exact hnew
  | cons call rest ih =>
      obtain ⟨hcall, hrest⟩ := List.forall_mem_cons.mp hcalls
      exact ih hrest _ (perform_tiles hcall hnew)

/-- A sequence with a counted and an exact allocation, a free and a call that throws. -/
theorem afterCalls_tiles_mixed :
    Tiles ((new 1 2001).afterCalls [.allocate 1000, .allocateExact 1 10, .deallocate 1001 0,
      .deallocate 5 0]).segments 1 2001 := by
  refine afterCalls_tiles 1 2001 (by decide) _ fun call hcall => ?_
  simp only [List.mem_cons, List.not_mem_nil, or_false] at hcall
  rcases hcall with rfl | rfl | rfl | rfl
  · exact (show (1 : UInt32) ≤ 1000 by decide)
  · exact (show (1 : UInt32) < 10 by decide)
  · trivial
  · trivial

end PortManager

end Libport
