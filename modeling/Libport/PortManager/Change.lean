import Libport.Lib.Ledger
import Libport.PortManager.Def

/-!
# What a call does to the manager

A call of `PortManager` throws and changes nothing, or it cuts a range out of one free segment, or
it gives one allocated segment back.  `Change` says this once, together with what the call adds to
the log of segments handed out and taken back; every invariant of the manager is read off from it.

* `allocate_run`, `allocateExact_run`, `deallocate_run`: each operation.
* **`perform_change`**: every call is a `Change`; `perform_change_of_le` allows for empty segments
  in the free map.
-/

namespace Libport

namespace PortManager

/-- An entry of the log: a segment was returned, or the segment of a left end was freed. -/
abbrev Event : Type := Ledger.Entry UInt32 UInt32

/-- The free map after `[lo, hi)` is cut out of its segment from `f` to `s`. -/
def cutOut (free : OrderedMap UInt32 UInt32) (f s lo hi : UInt32) : OrderedMap UInt32 UInt32 :=
  let free := if f < lo then free.insert f lo else free.erase f
  if s > hi then free.insert hi s else free

/-- The free map after `[p, second)` is given back. -/
def giveBack (free : OrderedMap UInt32 UInt32) (p second junk : UInt32) :
    OrderedMap UInt32 UInt32 :=
  let freeIndex := free.upperBound p
  let value := (freeIndex.map Prod.fst).getD junk
  let merged := mergeRight free freeIndex value second
  mergeLeft merged.1 merged.2.1 p merged.2.2

/-- What a call adds to the log, and the manager it leaves. -/
inductive Change (m : PortManager) : List Event → PortManager → Prop
  | threw : Change m [] m
  | taken {f s lo hi : UInt32} (hmem : (f, s) ∈ m.freeMap.entries) (hlo : f ≤ lo)
      (hlohi : lo < hi) (hhi : hi ≤ s) :
      Change m [.opened lo hi] { m with
        freeMap := cutOut m.freeMap f s lo hi
        allocated := m.allocated.insert lo hi }
  | given {p second : UInt32} (junk : UInt32) (hmem : (p, second) ∈ m.allocated.entries) :
      Change m [.closed p] { m with
        freeMap := giveBack m.freeMap p second junk
        allocated := m.allocated.erase p }

/-- What an allocation adds to the log. -/
def returned : Except PortError PortPair → List Event
  | .ok segment => [.opened segment.1 segment.2]
  | .error _ => []

/-- What a call adds to the log. -/
def Call.record (call : Call) (m : PortManager) : List Event :=
  match call with
  | allocate cnt => returned (PortManager.allocate cnt m).1
  | allocateExact lo hi => returned (PortManager.allocateExact lo hi m).1
  | deallocate p junk =>
      match (PortManager.deallocate p junk m).1 with
      | .ok _ => [.closed p]
      | .error _ => []

/-! ## Counted allocation -/

/-- The segment that `find_fit(cnt)` returns is free and has room for `cnt` ports. -/
lemma findFit_mem {m : PortManager} {cnt : UInt32} (h : m.findFit cnt ≠ bad) :
    m.findFit cnt ∈ m.freeMap.entries ∧ cnt ≤ (m.findFit cnt).2 - (m.findFit cnt).1 := by
  unfold findFit at h ⊢
  cases hf : m.freeMap.entries.find? fun e => cnt ≤ e.2 - e.1 with
  | none =>
      rw [hf] at h
      exact absurd rfl h
  | some e =>
      refine ⟨List.mem_of_find?_eq_some hf, ?_⟩
      simpa using List.find?_some hf

/-- Where the last `cnt` ports of a segment start. -/
lemma cut_toNat {f s cnt : UInt32} (hfs : f < s) (hfit : cnt ≤ s - f) :
    (f + (s - f - cnt)).toNat + cnt.toNat = s.toNat ∧
      (s - f - cnt).toNat + f.toNat + cnt.toNat = s.toNat := by
  have hsub : (s - f).toNat = s.toNat - f.toNat := UInt32.toNat_sub_of_le s f hfs.le
  have hremain : (s - f - cnt).toNat = s.toNat - f.toNat - cnt.toNat := by
    rw [UInt32.toNat_sub_of_le _ _ hfit, hsub]
  have hs := s.toNat_lt
  rw [UInt32.lt_iff_toNat_lt] at hfs
  rw [UInt32.le_iff_toNat_le, hsub] at hfit
  rw [UInt32.toNat_add, hremain]
  omega

variable {m : PortManager}

/-- `allocate(cnt)` throws, or returns the last `cnt` ports of the free segment it found.  The
free map may hold empty segments: they have no room. -/
lemma allocate_run_of_le (hfree : ∀ e ∈ m.freeMap.entries, e.1 ≤ e.2) {cnt : UInt32}
    (hcnt : 1 ≤ cnt) :
    (m.findFit cnt = bad ∧ allocate cnt m = (.error .full, m)) ∨
      ∃ f s lo, (f, s) ∈ m.freeMap.entries ∧ f ≤ lo ∧ lo < s ∧
        lo.toNat + cnt.toNat = s.toNat ∧
        allocate cnt m = (.ok (lo, s), { m with
          freeMap := cutOut m.freeMap f s lo s
          allocated := m.allocated.insert lo s }) := by
  by_cases hbad : m.findFit cnt = bad
  · exact Or.inl ⟨hbad, by simp [allocate, hbad]⟩
  obtain ⟨hmem, hfit⟩ := findFit_mem hbad
  generalize hidx : m.findFit cnt = index at hbad hmem hfit
  obtain ⟨f, s⟩ := index
  have hone : (1 : UInt32).toNat = 1 := rfl
  simp only [UInt32.le_iff_toNat_le, hone] at hcnt
  have hle : f ≤ s := hfree (f, s) hmem
  have hfs : f < s := by
    refine hle.lt_of_ne ?_
    rintro rfl
    simp only [UInt32.sub_self, UInt32.le_iff_toNat_le, UInt32.toNat_zero] at hfit
    omega
  obtain ⟨hlo, hremain⟩ := cut_toNat hfs hfit
  have hpos : (f < f + (s - f - cnt)) = (s - f - cnt ≥ 1) := by
    simp only [ge_iff_le, UInt32.lt_iff_toNat_lt, UInt32.le_iff_toNat_le, hone, eq_iff_iff]
    omega
  refine Or.inr ⟨f, s, f + (s - f - cnt), hmem, ?_, ?_, hlo, ?_⟩
  · rw [UInt32.le_iff_toNat_le]
    omega
  · rw [UInt32.lt_iff_toNat_lt]
    omega
  · simp only [allocate, Action.bind_run, Action.get_run, hidx, hbad, if_false,
      Action.modify_run, Action.pure_run, cutOut, hpos, gt_iff_lt, lt_irrefl]

lemma allocate_run (hfree : ∀ e ∈ m.freeMap.entries, e.1 < e.2) {cnt : UInt32} (hcnt : 1 ≤ cnt) :
    (m.findFit cnt = bad ∧ allocate cnt m = (.error .full, m)) ∨
      ∃ f s lo, (f, s) ∈ m.freeMap.entries ∧ f ≤ lo ∧ lo < s ∧
        lo.toNat + cnt.toNat = s.toNat ∧
        allocate cnt m = (.ok (lo, s), { m with
          freeMap := cutOut m.freeMap f s lo s
          allocated := m.allocated.insert lo s }) :=
  allocate_run_of_le (fun e he => (hfree e he).le) hcnt

/-! ## Exact allocation -/

/-- The segment that `find_fit(lo, hi)` returns is free and contains `[lo, hi)`. -/
lemma findFitExact_ok {lo hi : UInt32} {p : PortPair} (h : m.findFitExact lo hi = .ok p) :
    p ∈ m.freeMap.entries ∧ p.1 ≤ lo ∧ hi ≤ p.2 := by
  unfold findFitExact at h
  cases hprev : m.freeMap.prev (m.freeMap.upperBound lo) with
  | none =>
      rw [hprev] at h
      cases h
  | some e =>
      rw [hprev] at h
      simp only at h
      split_ifs at h with hshort
      cases h
      exact ⟨OrderedMap.mem_of_prev hprev, OrderedMap.prev_upperBound_le hprev, not_lt.mp hshort⟩

/-- One of the two checks of `allocate(lo, hi)` refuses the range. -/
def Refuses (m : PortManager) (lo hi : UInt32) : Prop :=
  lo < m.low ∨ hi > m.high ∨ m.isAllocatedRange lo hi = true

/-- The three ways `allocate(lo, hi)` ends: a check refuses, no segment is found, or the range is
cut out of the segment that is. -/
lemma allocateExact_run (m : PortManager) (lo hi : UInt32) :
    (m.Refuses lo hi ∧ allocateExact lo hi m = (.error (.badRange lo hi), m)) ∨
      (¬ m.Refuses lo hi ∧ ∃ e, m.findFitExact lo hi = .error e ∧
        allocateExact lo hi m = (.error e, m)) ∨
      ∃ f s, ¬ m.Refuses lo hi ∧ m.findFitExact lo hi = .ok (f, s) ∧
        allocateExact lo hi m = (.ok (lo, hi), { m with
          freeMap := cutOut m.freeMap f s lo hi
          allocated := m.allocated.insert lo hi }) := by
  unfold Refuses
  by_cases hrange : lo < m.low ∨ hi > m.high
  · exact Or.inl ⟨by tauto, by simp [allocateExact, hrange]⟩
  by_cases hused : m.isAllocatedRange lo hi = true
  · exact Or.inl ⟨by tauto, by simp [allocateExact, hrange, hused]⟩
  have hpass : ¬ (lo < m.low ∨ hi > m.high ∨ m.isAllocatedRange lo hi = true) := by tauto
  cases hfit : m.findFitExact lo hi with
  | error e =>
      exact Or.inr (Or.inl ⟨hpass, e, rfl, by simp [allocateExact, hrange, hused, hfit]⟩)
  | ok p =>
      refine Or.inr (Or.inr ⟨p.1, p.2, hpass, rfl, ?_⟩)
      simp [allocateExact, hrange, hused, hfit, cutOut]

/-! ## Deallocation -/

lemma deallocate_absent {p : UInt32} (h : m.allocated.find? p = none) (junk : UInt32) :
    deallocate p junk m = (.error (.badPort p), m) := by
  simp [deallocate, h]

lemma deallocate_present {p second : UInt32} (h : m.allocated.find? p = some second)
    (junk : UInt32) :
    deallocate p junk m = (.ok (), { m with
      freeMap := giveBack m.freeMap p second junk
      allocated := m.allocated.erase p }) := by
  simp [deallocate, h, giveBack]

/-! ## All calls -/

/-- A request for at least one port. -/
def Call.WellFormed : Call → Prop
  | allocate cnt => 1 ≤ cnt
  | allocateExact lo hi => lo < hi
  | deallocate _ _ => True

/-- **Every call is a `Change`**, also where the free map holds empty segments. -/
lemma perform_change_of_le (hfree : ∀ e ∈ m.freeMap.entries, e.1 ≤ e.2) {call : Call}
    (hcall : call.WellFormed) : Change m (call.record m) (call.perform m) := by
  cases call with
  | allocate cnt =>
      simp only [Call.record, Call.perform]
      rcases allocate_run_of_le hfree hcall with ⟨-, hrun⟩ | ⟨f, s, lo, hmem, hlo, hlos, -, hrun⟩
      · rw [hrun]
        exact .threw
      · rw [hrun]
        exact .taken hmem hlo hlos le_rfl
  | allocateExact lo hi =>
      simp only [Call.record, Call.perform]
      rcases allocateExact_run m lo hi with ⟨-, hrun⟩ | ⟨-, e, -, hrun⟩ | ⟨f, s, -, hfit, hrun⟩
      · rw [hrun]
        exact .threw
      · rw [hrun]
        exact .threw
      · obtain ⟨hmem, hlo, hhi⟩ := findFitExact_ok hfit
        rw [hrun]
        exact .taken hmem hlo hcall hhi
  | deallocate p junk =>
      simp only [Call.record, Call.perform]
      cases hfind : m.allocated.find? p with
      | none =>
          rw [deallocate_absent hfind]
          exact .threw
      | some second =>
          rw [deallocate_present hfind]
          exact .given junk (OrderedMap.find?_eq_some.mp hfind)

lemma perform_change (hfree : ∀ e ∈ m.freeMap.entries, e.1 < e.2) {call : Call}
    (hcall : call.WellFormed) : Change m (call.record m) (call.perform m) :=
  perform_change_of_le (fun e he => (hfree e he).le) hcall

end PortManager

end Libport
