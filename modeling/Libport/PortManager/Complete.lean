import Libport.PortManager.Coalesce

/-!
# Allocations find the room there is

Both allocations look for one free segment that is large enough.  When the free segments are
coalesced, every run of free ports is inside such a segment, so both succeed whenever they could.
When two of them touch, exact allocation fails on the range across the two.

* `exactAllocation_iff`: for one state, exact allocation is complete if and only if the free
  segments are coalesced.
* **`allocateExact_complete_iff`**: a run allocates exact ranges as it should in every state if and
  only if none of its steps splits.
* **`allocate_complete`**: counted allocation in the runs without such a step.
-/

namespace Libport

namespace PortManager

variable {m : PortManager} {low high : UInt32}

/-! ## Exact allocation -/

/-- What exact allocation should do: succeed on every range of free ports, and otherwise throw and
change nothing, without reaching the branches that report a bug. -/
def ExactAllocation (m : PortManager) (low high : UInt32) : Prop :=
  ∀ lo hi, lo < hi →
    ((allocateExact lo hi m).1 = .ok (lo, hi) ↔
      low ≤ lo ∧ hi ≤ high ∧ ∀ q, lo ≤ q → q < hi → m.isAllocated q = false) ∧
    (¬ (low ≤ lo ∧ hi ≤ high ∧ ∀ q, lo ≤ q → q < hi → m.isAllocated q = false) →
      ∃ e, allocateExact lo hi m = (.error e, m)) ∧
    ∀ msg, (allocateExact lo hi m).1 ≠ .error (.bug msg)

/-- In a coalesced free map `find_fit` finds the segment around a range of free ports. -/
lemma findFitExact_coalesced (hm : Tiles m.segments low high)
    (hfree : Coalesced m.freeMap.entries) {lo hi : UInt32} (hlohi : lo < hi) (hlo : low ≤ lo)
    (hhi : hi ≤ high) (hunused : ∀ q, lo ≤ q → q < hi → m.isAllocated q = false) :
    ∃ p, m.findFitExact lo hi = .ok p := by
  have havoid : ∀ q ∈ Set.Ico lo hi, ∀ s ∈ m.allocated.entries, q ∉ Segment.points s := by
    intro q hq s hs hqs
    have hused := (isAllocated_iff hm).mpr ⟨s, hs, hqs⟩
    rw [hunused q hq.1 hq.2] at hused
    cases hused
  obtain ⟨s, hs, hle, hge⟩ := hm.exists_covering hfree hlohi hlo hhi havoid
  obtain ⟨last, hprev, hfst⟩ := OrderedMap.exists_prev_upperBound hs hle
  have hlast := OrderedMap.mem_of_prev hprev
  have heq : s = last := by
    refine OrderedMap.eq_of_mem hs hlast (hfst.antisymm ?_)
    by_contra hlt
    have hsnd := hm.snd_le_fst (List.mem_append_left _ hs) (List.mem_append_left _ hlast)
      (not_le.mp hlt)
    exact absurd ((hlohi.trans_le hge).trans_le (hsnd.trans (OrderedMap.prev_upperBound_le hprev)))
      (lt_irrefl lo)
  refine ⟨last, ?_⟩
  rw [findFitExact, hprev]
  simp only [← heq, not_lt.mpr hge, if_false]

variable {log : List Event}

/-- The checks of `allocate(lo, hi)` let through exactly the ranges of free ports. -/
lemma not_refuses_iff (hm : Accounted m log low high) {lo hi : UInt32} (hlohi : lo < hi) :
    ¬ m.Refuses lo hi ↔
      low ≤ lo ∧ hi ≤ high ∧ ∀ q, lo ≤ q → q < hi → m.isAllocated q = false := by
  rw [Refuses, hm.low_eq, hm.high_eq, isAllocatedRange_iff hm.tiles hlohi]
  simp only [not_or, not_lt, gt_iff_lt, not_exists, not_and, Bool.not_eq_true]

/-- **One state.**  Exact allocation does what it should if and only if no two free segments
touch. -/
lemma exactAllocation_iff (hm : Accounted m log low high) :
    ExactAllocation m low high ↔ Coalesced m.freeMap.entries := by
  constructor
  · intro h e he e' he' htouch
    have hne : e.1 < e.2 := free_nonempty hm.tiles e he
    have hne' : e'.1 < e'.2 := free_nonempty hm.tiles e' he'
    have hlohi : e.1 < e'.2 := hne.trans (htouch ▸ hne')
    have hin : ∀ x ∈ m.freeMap.entries, x ∈ m.segments := fun x hx => List.mem_append_left _ hx
    have hunused : ∀ q, e.1 ≤ q → q < e'.2 → m.isAllocated q = false := by
      intro q hle hlt
      rcases lt_or_ge q e.2 with hq | hq
      · exact free_not_allocated hm.tiles he hle hq
      · exact free_not_allocated hm.tiles he' (htouch ▸ hq) hlt
    have hok := ((h e.1 e'.2 hlohi).1).mpr ⟨(hm.tiles.bounds (hin e he)).1,
      hm.tiles.snd_le_high (hin e' he'), hunused⟩
    rcases allocateExact_run m e.1 e'.2 with ⟨-, hrun⟩ | ⟨-, x, -, hrun⟩ | ⟨f, s, -, hfit, -⟩
    · rw [hrun] at hok
      cases hok
    · rw [hrun] at hok
      cases hok
    · -- the segment that was found would have to be `e`, which ends where `e'` starts
      obtain ⟨hmem, hlo, hhi⟩ := findFitExact_ok hfit
      have heq : (f, s) = e := hm.tiles.eq_of_mem_points (hin _ hmem) (hin e he)
        ⟨hlo, hlohi.trans_le hhi⟩ ⟨le_rfl, hne⟩
      have hshort : e'.2 ≤ e'.1 := by
        rw [← htouch, ← heq]
        exact hhi
      exact absurd hne' (not_lt.mpr hshort)
  · intro hfree lo hi hlohi
    rw [← not_refuses_iff hm hlohi]
    rcases allocateExact_run m lo hi with ⟨href, hrun⟩ | ⟨hpass, e, hfit, -⟩ | ⟨f, s, hpass, -,
      hrun⟩
    · rw [hrun]
      exact ⟨by simp [href], fun _ => ⟨_, rfl⟩, by simp⟩
    · obtain ⟨hlo, hhi, hunused⟩ := (not_refuses_iff hm hlohi).mp hpass
      obtain ⟨p, hp⟩ := findFitExact_coalesced hm.tiles hfree hlohi hlo hhi hunused
      rw [hp] at hfit
      cases hfit
    · rw [hrun]
      exact ⟨by simp [hpass], fun hn => absurd hpass hn, by simp⟩

/-! ## Counted allocation -/

/-- What counted allocation should do: report that nothing is left only when no run of that many
consecutive ports is free, and then change nothing. -/
def CountedAllocation (m : PortManager) (low high : UInt32) : Prop :=
  ∀ cnt, 1 ≤ cnt →
    ((allocate cnt m).1 = .error .full ↔
      ¬ ∃ start, low ≤ start ∧ start.toNat + cnt.toNat ≤ high.toNat ∧
        ∀ q : UInt32, start ≤ q → q.toNat < start.toNat + cnt.toNat → m.isAllocated q = false) ∧
    ((allocate cnt m).1 = .error .full → (allocate cnt m).2 = m)

lemma findFit_ne_bad (hm : Tiles m.segments low high) {cnt : UInt32} {e : PortPair}
    (he : e ∈ m.freeMap.entries) (hfit : cnt ≤ e.2 - e.1) : m.findFit cnt ≠ bad := by
  intro hbad
  have hsome : (m.freeMap.entries.find? fun e => cnt ≤ e.2 - e.1).isSome := by
    rw [List.find?_isSome]
    exact ⟨e, he, by simpa using hfit⟩
  obtain ⟨first, hfirst⟩ := Option.isSome_iff_exists.mp hsome
  rw [findFit, hfirst, Option.getD_some] at hbad
  have hne := free_nonempty hm first (List.mem_of_find?_eq_some hfirst)
  rw [hbad] at hne
  exact absurd hne (lt_irrefl _)

/-- A run of ports as a range of words. -/
lemma end_of_run {start cnt high : UInt32} (hcnt : 1 ≤ cnt)
    (hfits : start.toNat + cnt.toNat ≤ high.toNat) :
    (start + cnt).toNat = start.toNat + cnt.toNat ∧ start < start + cnt ∧ start + cnt ≤ high := by
  have hlt := high.toNat_lt
  have hsum : (start + cnt).toNat = start.toNat + cnt.toNat := by
    rw [UInt32.toNat_add]
    exact Nat.mod_eq_of_lt (by omega)
  have hone : (1 : UInt32).toNat = 1 := rfl
  rw [UInt32.le_iff_toNat_le, hone] at hcnt
  refine ⟨hsum, ?_, ?_⟩
  · rw [UInt32.lt_iff_toNat_lt, hsum]
    omega
  · rw [UInt32.le_iff_toNat_le, hsum]
    exact hfits

/-- In a coalesced free map a run of free ports is inside a free segment, which then has room. -/
lemma exists_room (hm : Tiles m.segments low high) (hfree : Coalesced m.freeMap.entries)
    {start cnt : UInt32} (hcnt : 1 ≤ cnt) (hlow : low ≤ start)
    (hfits : start.toNat + cnt.toNat ≤ high.toNat)
    (hunused : ∀ q : UInt32, start ≤ q → q.toNat < start.toNat + cnt.toNat →
      m.isAllocated q = false) : ∃ e ∈ m.freeMap.entries, cnt ≤ e.2 - e.1 := by
  obtain ⟨hsum, hlt, hhigh⟩ := end_of_run hcnt hfits
  have havoid : ∀ q ∈ Set.Ico start (start + cnt), ∀ s ∈ m.allocated.entries,
      q ∉ Segment.points s := by
    intro q hq s hs hqs
    have hused := (isAllocated_iff hm).mpr ⟨s, hs, hqs⟩
    have hqlt := hq.2
    rw [UInt32.lt_iff_toNat_lt, hsum] at hqlt
    rw [hunused q hq.1 hqlt] at hused
    cases hused
  obtain ⟨e, he, hle, hge⟩ := hm.exists_covering hfree hlt hlow hhigh havoid
  refine ⟨e, he, ?_⟩
  have hne := free_nonempty hm e he
  rw [UInt32.le_iff_toNat_le, UInt32.toNat_sub_of_le _ _ hne.le]
  rw [UInt32.le_iff_toNat_le] at hle hge
  omega

lemma countedAllocation (hm : Tiles m.segments low high) (hfree : Coalesced m.freeMap.entries) :
    CountedAllocation m low high := by
  intro cnt hcnt
  rcases allocate_run (free_nonempty hm) hcnt with ⟨hbad, hrun⟩ | ⟨f, s, lo, hmem, hlo, hlos,
    hsize, hrun⟩
  · rw [hrun]
    refine ⟨iff_of_true rfl ?_, fun _ => rfl⟩
    rintro ⟨start, hlow, hfits, hunused⟩
    obtain ⟨e, he, hroom⟩ := exists_room hm hfree hcnt hlow hfits hunused
    exact findFit_ne_bad hm he hroom hbad
  · rw [hrun]
    have hin := List.mem_append_left m.allocated.entries hmem
    refine ⟨iff_of_false (by simp) (fun hn => hn ?_), by simp⟩
    refine ⟨lo, (hm.bounds hin).1.trans hlo, ?_, fun q hle hlt => ?_⟩
    · rw [hsize]
      exact UInt32.le_iff_toNat_le.mp (hm.snd_le_high hin)
    · rw [hsize] at hlt
      exact free_not_allocated hm hmem (hlo.trans hle) (UInt32.lt_iff_toNat_lt.mpr hlt)

/-! ## Runs -/

section Runs

variable {calls : List Call}

lemma accounted_upTo (hrange : low < high) (hcalls : ∀ call ∈ calls, call.WellFormed)
    {done : List Call} (hdone : done <+: calls) :
    Accounted ((new low high).afterCalls done) ([] ++ (new low high).logOf done) low high :=
  (Accounted.new hrange).afterCalls done fun call hmem => hcalls call (hdone.subset hmem)

lemma afterCalls_concat (m : PortManager) (done : List Call) (call : Call) :
    m.afterCalls (done ++ [call]) = call.perform (m.afterCalls done) := by
  simp [afterCalls]

lemma perform_coalesced_upTo (hrange : low < high)
    (hcalls : ∀ call ∈ calls, call.WellFormed) {done : List Call} {call : Call}
    (hdone : done ++ [call] <+: calls)
    (hfree : Coalesced ((new low high).afterCalls done).freeMap.entries) :
    Coalesced ((new low high).afterCalls (done ++ [call])).freeMap.entries ↔
      ¬ call.Splits ((new low high).afterCalls done) := by
  have hshort : done <+: calls := (List.prefix_append done [call]).trans hdone
  have hcall : call.WellFormed := hcalls call (hdone.subset (by simp))
  rw [afterCalls_concat]
  exact perform_coalesced_iff (accounted_upTo hrange hcalls hshort).tiles hfree hcall

/-- The free segments stay coalesced as long as no step splits. -/
lemma coalesced_of_no_split (hrange : low < high) (hcalls : ∀ call ∈ calls, call.WellFormed)
    (hsteps : ∀ done call, done ++ [call] <+: calls →
      ¬ call.Splits ((new low high).afterCalls done)) {done : List Call} (hdone : done <+: calls) :
    Coalesced ((new low high).afterCalls done).freeMap.entries := by
  induction done using List.reverseRecOn with
  | nil => exact Coalesced.single hrange
  | append_singleton done call ih =>
      have hfree := ih ((List.prefix_append done [call]).trans hdone)
      exact (perform_coalesced_upTo hrange hcalls hdone hfree).mpr (hsteps done call hdone)

end Runs

section Steps

variable {P : List Call → Call → Prop}

lemma forall_steps_nil : ∀ done call, done ++ [call] <+: [] → P done call := by
  intro done call hdone
  simp at hdone

/-- The steps of a run are its first call and the steps behind it. -/
lemma forall_steps_cons {first : Call} {rest : List Call} (hfirst : P [] first)
    (hrest : ∀ done call, done ++ [call] <+: rest → P (first :: done) call) :
    ∀ done call, done ++ [call] <+: first :: rest → P done call := by
  intro done call hdone
  cases done with
  | nil =>
      obtain rfl : call = first := by simpa using hdone
      exact hfirst
  | cons head done =>
      obtain ⟨rfl, htail⟩ := List.cons_prefix_cons.mp hdone
      exact hrest done call htail

end Steps

/-- **Exact allocation over a run.**  It does what it should in every state of a run if and only
if no step of the run splits. -/
theorem allocateExact_complete_iff (low high : UInt32) (hrange : low < high) (calls : List Call)
    (hcalls : ∀ call ∈ calls, call.WellFormed) :
    (∀ done, done <+: calls → ExactAllocation ((new low high).afterCalls done) low high) ↔
      ∀ done call, done ++ [call] <+: calls →
        ¬ call.Splits ((new low high).afterCalls done) := by
  constructor
  · intro h done call hdone
    have hshort : done <+: calls := (List.prefix_append done [call]).trans hdone
    have hshortOk := accounted_upTo hrange hcalls hshort
    have hfree := (exactAllocation_iff hshortOk).mp (h done hshort)
    refine (perform_coalesced_upTo hrange hcalls hdone hfree).mp ?_
    exact (exactAllocation_iff (accounted_upTo hrange hcalls hdone)).mp (h _ hdone)
  · intro hsteps done hdone
    exact (exactAllocation_iff (accounted_upTo hrange hcalls hdone)).mpr
      (coalesced_of_no_split hrange hcalls hsteps hdone)

/-- Ports 1 to 4 are taken one by one, and 1, 3 and 2 are given back, while port 5 stays free. -/
def splittingRun : List Call :=
  [.allocateExact 1 2, .allocateExact 2 3, .allocateExact 3 4, .allocateExact 4 5,
    .deallocate 1 0, .deallocate 3 0, .deallocate 2 0]

lemma splittingRun_wellFormed : ∀ call ∈ splittingRun, call.WellFormed := by
  intro call hcall
  simp only [splittingRun, List.mem_cons, List.not_mem_nil, or_false] at hcall
  rcases hcall with rfl | rfl | rfl | rfl | rfl | rfl | rfl
  · exact (show (1 : UInt32) < 2 by decide)
  · exact (show (2 : UInt32) < 3 by decide)
  · exact (show (3 : UInt32) < 4 by decide)
  · exact (show (4 : UInt32) < 5 by decide)
  · trivial
  · trivial
  · trivial

lemma splittingRun_unused {q : UInt32} (hle : 1 ≤ q) (hlt : q < 4) :
    ((new 1 6).afterCalls splittingRun).isAllocated q = false := by
  have hone : (1 : UInt32).toNat = 1 := rfl
  have hfour : (4 : UInt32).toNat = 4 := rfl
  rw [UInt32.le_iff_toNat_le, hone] at hle
  rw [UInt32.lt_iff_toNat_lt, hfour] at hlt
  have hcases : q = 1 ∨ q = 2 ∨ q = 3 := by
    simp only [← UInt32.toNat_inj]
    have htwo : (2 : UInt32).toNat = 2 := rfl
    have hthree : (3 : UInt32).toNat = 3 := rfl
    omega
  rcases hcases with rfl | rfl | rfl <;> decide

/-- The step that gives port 2 back splits. -/
theorem allocateExact_complete_splitting :
    ¬ ∀ done, done <+: splittingRun → ExactAllocation ((new 1 6).afterCalls done) 1 6 := by
  rw [allocateExact_complete_iff 1 6 (by decide) _ splittingRun_wellFormed]
  intro h
  exact h splittingRun.dropLast (.deallocate 2 0) List.prefix_rfl ⟨3, by decide, by decide⟩

/-- Ports 1 to 3 are free then, and a request for exactly these reports a bug. -/
theorem allocateExact_touching :
    let m := (new 1 6).afterCalls splittingRun
    (∀ call ∈ splittingRun, call.WellFormed) ∧
      (∀ q, 1 ≤ q → q < 4 → m.isAllocated q = false) ∧
      (allocateExact 1 4 m).1
        = .error (.bug "consistency broken: target segment must include given range") ∧
      ¬ ExactAllocation m 1 6 := by
  have hrun : (allocateExact 1 4 ((new 1 6).afterCalls splittingRun)).1
      = .error (.bug "consistency broken: target segment must include given range") := rfl
  refine ⟨splittingRun_wellFormed, fun q => splittingRun_unused, hrun, fun h => ?_⟩
  exact (h 1 4 (by decide)).2.2 _ hrun

/-- **Counted allocation over a run.**  In a run without a step that splits, it reports that
nothing is left exactly when no run of that many free ports exists. -/
theorem allocate_complete (low high : UInt32) (hrange : low < high) (calls : List Call)
    (hcalls : ∀ call ∈ calls, call.WellFormed)
    (hsteps : ∀ done call, done ++ [call] <+: calls →
      ¬ call.Splits ((new low high).afterCalls done)) :
    ∀ done, done <+: calls → CountedAllocation ((new low high).afterCalls done) low high := by
  intro done hdone
  exact countedAllocation (accounted_upTo hrange hcalls hdone).tiles
    (coalesced_of_no_split hrange hcalls hsteps hdone)

/-- A segment taken and given back at the right end of the range. -/
theorem allocate_complete_returned :
    CountedAllocation ((new 1 6).afterCalls [.allocate 3, .deallocate 3 0]) 1 6 := by
  refine allocate_complete 1 6 (by decide) [.allocate 3, .deallocate 3 0] ?_ ?_ _ List.prefix_rfl
  · intro call hcall
    simp only [List.mem_cons, List.not_mem_nil, or_false] at hcall
    rcases hcall with rfl | rfl
    · exact (show (1 : UInt32) ≤ 3 by decide)
    · trivial
  · refine forall_steps_cons id (forall_steps_cons ?_ forall_steps_nil)
    rintro ⟨right, hfind, hmiss⟩
    have hright : some 6 = some right := hfind
    cases hright
    exact absurd hmiss (by decide)

/-- With port 2 given back no segment has room for three ports, though ports 1 to 3 are free. -/
theorem allocate_touching :
    let m := (new 1 6).afterCalls splittingRun
    (∀ call ∈ splittingRun, call.WellFormed) ∧
      (∀ q, 1 ≤ q → q < 4 → m.isAllocated q = false) ∧
      (allocate 3 m).1 = .error .full ∧ ¬ CountedAllocation m 1 6 := by
  have hrun : (allocate 3 ((new 1 6).afterCalls splittingRun)).1 = .error .full := rfl
  refine ⟨splittingRun_wellFormed, fun q => splittingRun_unused, hrun, fun h => ?_⟩
  refine ((h 3 (by decide)).1).mp hrun ⟨1, le_rfl, by decide, fun q hle hlt => ?_⟩
  exact splittingRun_unused hle (UInt32.lt_iff_toNat_lt.mpr hlt)

end PortManager

end Libport
