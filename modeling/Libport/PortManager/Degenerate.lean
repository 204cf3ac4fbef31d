import Libport.PortManager.Complete

/-!
# Requests for no ports

Nothing stops `allocate(0)` and `allocate(lo, hi)` with `hi ≤ lo`.  Such a request passes the tests
in some states and then puts an empty or inverted segment into the maps, where it takes the key of
a segment that is in use, or will when it is given back.  Only at the right end of the range no
segment starts, so that an empty one does no harm there.

The invariant `Sound` is a tiling with empty segments at the right end.

* `perform_sound`: well-formed calls and harmless degenerate ones keep it.
* `corrupts_of_not_harmless`: any other request for an empty range loses a port, at once or when
  the segment it returned is given back.
* **`degenerate_safe`**: runs with harmless degenerate requests.
-/

namespace Libport

namespace PortManager

variable {m : PortManager} {low high : UInt32}

/-- The segments tile the range, but for empty ones at its right end. -/
structure Sound (m : PortManager) (low high : UInt32) : Prop where
  low_eq : m.low = low
  high_eq : m.high = high
  padded : Padded m.segments low high

lemma Sound.new (hrange : low < high) : Sound (new low high) low high where
  low_eq := rfl
  high_eq := rfl
  padded := Padded.of_tiles (Tiles.single hrange)

namespace Sound

lemma free_le (hm : Sound m low high) : ∀ e ∈ m.freeMap.entries, e.1 ≤ e.2 := fun _ he =>
  hm.padded.fst_le_snd (List.mem_append_left _ he)

lemma free_le_high (hm : Sound m low high) : ∀ e ∈ m.freeMap.entries, e.2 ≤ high := fun _ he =>
  hm.padded.snd_le_high (List.mem_append_left _ he)

lemma ordered (hm : Sound m low high) : m.Ordered := fun _ he _ he' =>
  hm.padded.snd_le_fst (List.mem_append_right _ he) (List.mem_append_right _ he')

end Sound

/-! ## Empty segments at the right end -/

lemma erase_end {map : OrderedMap UInt32 UInt32} {rest : List PortPair}
    (h : Padded (map.entries ++ rest) low high) :
    Padded ((map.erase high).entries ++ rest) low high := by
  by_cases hend : ∃ e ∈ map.entries, e.1 = high
  · obtain ⟨e, he, hkey⟩ := hend
    have hempty : e = (high, high) := by
      rcases h.padding e (List.mem_append_left _ he) with hne | hempty
      · exact absurd hkey (h.fst_lt_high (List.mem_append_left _ he) hne).ne
      · exact hempty
    have hperm := (OrderedMap.entries_perm_erase he).append_right rest
    rw [hempty] at hperm
    exact Padded.cons_end.mp (h.perm hperm)
  · have hsame : (map.erase high).entries = map.entries :=
      List.filter_eq_self.mpr fun e he => by simpa using fun hkey => hend ⟨e, he, hkey⟩
    rw [hsame]
    exact h

lemma insert_end {map : OrderedMap UInt32 UInt32} {rest : List PortPair}
    (h : Padded (map.entries ++ rest) low high) :
    Padded ((map.insert high high).entries ++ rest) low high :=
  (Padded.cons_end.mpr (erase_end h)).perm
    ((map.entries_insert_perm high high).append_right rest).symm

/-- Writing an entry that is there already. -/
lemma insert_same {map : OrderedMap UInt32 UInt32} {rest : List PortPair} {k v : UInt32}
    (hmem : (k, v) ∈ map.entries) (h : Padded (map.entries ++ rest) low high) :
    Padded ((map.insert k v).entries ++ rest) low high := by
  have hperm := (OrderedMap.entries_perm_erase hmem).trans (map.entries_insert_perm k v).symm
  exact h.perm (hperm.append_right rest)

/-- The two maps after an empty segment is cut off at the right end. -/
def takeEnd (m : PortManager) (f : UInt32) : PortManager :=
  { m with
    freeMap := cutOut m.freeMap f m.high m.high m.high
    allocated := m.allocated.insert m.high m.high }

lemma Sound.takeEnd {f : UInt32} (hm : Sound m low high) (hmem : (f, high) ∈ m.freeMap.entries) :
    Sound (m.takeEnd f) low high where
  low_eq := hm.low_eq
  high_eq := hm.high_eq
  padded := by
    have halloc := (insert_end (hm.padded.perm List.perm_append_comm)).perm List.perm_append_comm
    simp only [PortManager.takeEnd, segments, hm.high_eq, cutOut, gt_iff_lt, lt_irrefl, if_false]
    split_ifs with hlt
    · exact insert_same hmem halloc
    · have hle : f ≤ high := hm.free_le _ hmem
      have hf : f = high := hle.eq_of_not_lt hlt
      rw [hf]
      exact erase_end halloc

lemma Sound.takeEnd_isAllocated {f : UInt32} (hm : Sound m low high)
    (hmem : (f, high) ∈ m.freeMap.entries) (p : UInt32) :
    (m.takeEnd f).isAllocated p = m.isAllocated p := by
  have hcover : (m.takeEnd f).isAllocated p = true ↔ m.isAllocated p = true := by
    rw [(hm.takeEnd hmem).ordered.isAllocated_iff, hm.ordered.isAllocated_iff]
    simp only [PortManager.takeEnd, hm.high_eq, OrderedMap.mem_insert]
    constructor
    · rintro ⟨e, rfl | ⟨he, -⟩, hle, hlt⟩
      · exact absurd hlt (not_lt.mpr hle)
      · exact ⟨e, he, hle, hlt⟩
    · rintro ⟨e, he, hle, hlt⟩
      have hkey : e.1 < high :=
        hm.padded.fst_lt_high (List.mem_append_right _ he) (hle.trans_lt hlt)
      exact ⟨e, Or.inr ⟨he, hkey.ne⟩, hle, hlt⟩
  rw [Bool.eq_iff_iff]
  exact hcover

/-- Giving the empty segment at the right end back. -/
lemma giveBack_end (hm : Sound m low high) (junk : UInt32) :
    Padded ((giveBack m.freeMap high high junk).entries ++ (m.allocated.erase high).entries)
      low high := by
  have halloc := (erase_end (hm.padded.perm List.perm_append_comm)).perm List.perm_append_comm
  have hnone : m.freeMap.upperBound high = none := by
    refine List.find?_eq_none.mpr fun e he => ?_
    simpa using (hm.free_le e he).trans (hm.free_le_high e he)
  unfold giveBack
  rw [hnone]
  simp only [mergeRight, mergeLeft]
  cases hprev : m.freeMap.prev none with
  | none => exact insert_end halloc
  | some left =>
      simp only
      split_ifs with htouch
      · have hmem : (left.1, high) ∈ m.freeMap.entries := htouch ▸ OrderedMap.mem_of_prev hprev
        exact insert_same hmem halloc
      · exact insert_end halloc

/-! ## Steps -/

/-- A well-formed call keeps the invariant: it handles the empty segments as it should. -/
lemma Change.sound {log : List Event} {m' : PortManager} (h : Change m log m')
    (hm : Sound m low high) : Sound m' low high where
  low_eq := by cases h <;> exact hm.low_eq
  high_eq := by cases h <;> exact hm.high_eq
  padded := by
    cases h with
    | threw => exact hm.padded
    | taken hmem hlo hlohi hhi => exact cutOut_keeps Padded.rules hmem hlo hlohi hhi hm.padded
    | given junk hmem =>
        rcases hm.padded.padding _ (List.mem_append_right _ hmem) with hne | hempty
        · exact giveBack_keeps Padded.rules hm.free_le junk hmem hne hm.padded
        · cases hempty
          exact giveBack_end hm junk

/-- A degenerate request that does no harm: it is refused, or it takes the empty segment at the
right end of the range. -/
def Call.Harmless (call : Call) (m : PortManager) : Prop :=
  match call with
  | allocate cnt => cnt = 0 ∧ ∀ e, m.freeMap.entries.head? = some e → e.2 = m.high
  | allocateExact lo hi =>
      hi ≤ lo ∧ (lo < m.low ∨ hi > m.high ∨ m.isAllocatedRange lo hi = true ∨
        (∀ e ∈ m.freeMap.entries, e.1 ≤ lo → e.2 < hi) ∨ (lo = m.high ∧ hi = m.high))
  | deallocate _ _ => False

/-- The call throws and leaves both maps as they are. -/
def Call.Throws (call : Call) (m : PortManager) : Prop :=
  match call with
  | allocate cnt => ∃ e, PortManager.allocate cnt m = (.error e, m)
  | allocateExact lo hi => ∃ e, PortManager.allocateExact lo hi m = (.error e, m)
  | deallocate p junk => ∃ e, PortManager.deallocate p junk m = (.error e, m)

lemma findFit_zero (m : PortManager) : m.findFit 0 = m.freeMap.entries.head?.getD bad := by
  unfold findFit
  cases m.freeMap.entries with
  | nil => rfl
  | cons e rest => simp

/-- `allocate(0)` takes the empty segment at the right end of the first free one. -/
lemma allocate_zero {f s : UInt32} (hfs : f ≤ s) (hs : s ≠ 0)
    (hhead : m.freeMap.entries.head? = some (f, s)) :
    allocate 0 m = (.ok (s, s), { m with
      freeMap := cutOut m.freeMap f s s s
      allocated := m.allocated.insert s s }) := by
  have hfit : m.findFit 0 = (f, s) := by rw [findFit_zero, hhead, Option.getD_some]
  have hbad : (f, s) ≠ bad := fun h => hs (Prod.mk.injEq .. ▸ h).2
  have hsub : (s - f).toNat = s.toNat - f.toNat := UInt32.toNat_sub_of_le s f hfs
  have hone : (1 : UInt32).toNat = 1 := rfl
  have hpos : (s - f - 0 ≥ 1) = (f < s) := by
    simp only [UInt32.sub_zero, ge_iff_le, UInt32.le_iff_toNat_le, hone, hsub,
      UInt32.lt_iff_toNat_lt, eq_iff_iff]
    omega
  have hend : f + (s - f - 0) = s := by
    rw [← UInt32.toNat_inj, UInt32.toNat_add, UInt32.sub_zero, hsub]
    rw [UInt32.le_iff_toNat_le] at hfs
    rw [Nat.add_sub_cancel' hfs]
    exact Nat.mod_eq_of_lt s.toNat_lt
  simp only [allocate, Action.bind_run, Action.get_run, hfit, hbad, if_false, Action.modify_run,
    Action.pure_run, hend, hpos, cutOut, gt_iff_lt, lt_irrefl]

lemma allocate_zero_empty (h : m.freeMap.entries.head? = none) :
    allocate 0 m = (.error .full, m) := by
  have hbad : m.findFit 0 = bad := by rw [findFit_zero, h, Option.getD_none]
  simp [allocate, hbad]

/-- **What a harmless degenerate request does.** -/
lemma harmless_run (hrange : low < high) (hm : Sound m low high) {call : Call}
    (h : call.Harmless m) : call.Throws m ∧ call.perform m = m ∨
      ∃ f, (f, high) ∈ m.freeMap.entries ∧ call.perform m = m.takeEnd f := by
  cases call with
  | allocate cnt =>
      obtain ⟨rfl, hhead⟩ := h
      simp only [Call.Throws, Call.perform]
      cases hfirst : m.freeMap.entries.head? with
      | none =>
          rw [allocate_zero_empty hfirst]
          exact Or.inl ⟨⟨_, rfl⟩, rfl⟩
      | some e =>
          obtain ⟨f, s⟩ := e
          have hmem : (f, s) ∈ m.freeMap.entries := List.mem_of_head? hfirst
          obtain rfl : s = high := (hhead _ hfirst).trans hm.high_eq
          have hzero : s ≠ 0 := (hrange.trans_le' (UInt32.zero_le)).ne'
          refine Or.inr ⟨f, hmem, ?_⟩
          rw [allocate_zero (hm.free_le _ hmem) hzero hfirst, takeEnd, hm.high_eq]
  | allocateExact lo hi =>
      obtain ⟨-, h⟩ := h
      simp only [Call.Throws, Call.perform]
      rcases allocateExact_run m lo hi with ⟨-, hrun⟩ | ⟨-, e, -, hrun⟩ | ⟨f, s, hpass, hfit,
        hrun⟩
      · rw [hrun]
        exact Or.inl ⟨⟨_, rfl⟩, rfl⟩
      · rw [hrun]
        exact Or.inl ⟨⟨_, rfl⟩, rfl⟩
      · obtain ⟨hmem, hlo, hhi⟩ := findFitExact_ok hfit
        have hend : lo = m.high ∧ hi = m.high := by
          rcases h with h | h | h | h | h
          · exact absurd (Or.inl h) hpass
          · exact absurd (Or.inr (Or.inl h)) hpass
          · exact absurd (Or.inr (Or.inr h)) hpass
          · exact absurd (h _ hmem hlo) (not_lt.mpr hhi)
          · exact h
        obtain ⟨rfl, rfl⟩ := hend
        obtain rfl : s = m.high :=
          le_antisymm ((hm.free_le_high _ hmem).trans hm.high_eq.ge) hhi
        rw [hrun, ← hm.high_eq]
        exact Or.inr ⟨f, hmem, rfl⟩
  | deallocate p junk => exact absurd h id

/-- **One step keeps the invariant.** -/
lemma perform_sound (hrange : low < high) (hm : Sound m low high) {call : Call}
    (hcall : call.WellFormed ∨ call.Harmless m) : Sound (call.perform m) low high := by
  rcases hcall with hproper | hharmless
  · exact (perform_change_of_le hm.free_le hproper).sound hm
  · rcases harmless_run hrange hm hharmless with ⟨-, hrun⟩ | ⟨f, hmem, hrun⟩
    · rw [hrun]
      exact hm
    · rw [hrun]
      exact hm.takeEnd hmem

/-- Every step is well-formed, or degenerate and harmless. -/
def Tolerates (low high : UInt32) (calls : List Call) : Prop :=
  ∀ done call, done ++ [call] <+: calls →
    call.WellFormed ∨ call.Harmless ((new low high).afterCalls done)

lemma sound_upTo (hrange : low < high) {calls : List Call} (hsteps : Tolerates low high calls)
    {done : List Call} (hdone : done <+: calls) :
    Sound ((new low high).afterCalls done) low high := by
  induction done using List.reverseRecOn with
  | nil => exact Sound.new hrange
  | append_singleton done call ih =>
      rw [afterCalls_concat]
      exact perform_sound hrange (ih ((List.prefix_append done [call]).trans hdone))
        (hsteps done call hdone)

lemma harmless_isAllocated (hrange : low < high) (hm : Sound m low high) {call : Call}
    (h : call.Harmless m) (p : UInt32) : (call.perform m).isAllocated p = m.isAllocated p := by
  rcases harmless_run hrange hm h with ⟨-, hrun⟩ | ⟨f, hmem, hrun⟩
  · rw [hrun]
  · rw [hrun]
    exact hm.takeEnd_isAllocated hmem p

/-! ## Requests that do harm -/

/-- The number of segments that contain a port. -/
def coverage (m : PortManager) (p : UInt32) : ℕ :=
  m.segments.countP fun e => e.1 ≤ p ∧ p < e.2

lemma Sound.coverage_eq (hm : Sound m low high) {p : UInt32} (hlow : low ≤ p) (hhigh : p < high) :
    m.coverage p = 1 := by
  rw [← hm.padded.countP_eq_one ⟨hlow, hhigh⟩, coverage]
  exact List.countP_congr fun e _ => by simp

/-- The call changes the allocation of a port, or a port of the range is not in exactly one segment
once the segment that the call returned is given back. -/
def Call.Corrupts (call : Call) (m : PortManager) (low high : UInt32) : Prop :=
  (∃ p, (call.perform m).isAllocated p ≠ m.isAllocated p) ∨
    ∃ l r, Ledger.Entry.opened l r ∈ call.record m ∧ ∃ junk p, low ≤ p ∧ p < high ∧
      ((Call.deallocate l junk).perform (call.perform m)).coverage p ≠ 1

lemma not_corrupts_of_harmless (hrange : low < high) (hm : Sound m low high) {call : Call}
    (h : call.Harmless m) : ¬ call.Corrupts m low high := by
  rintro (⟨p, hp⟩ | ⟨l, r, -, junk, p, hlow, hhigh, hp⟩)
  · exact hp (harmless_isAllocated hrange hm h p)
  · have hafter := perform_sound hrange hm (Or.inr h)
    have hgive : (Call.deallocate l junk).WellFormed := trivial
    exact hp ((perform_sound hrange hafter (Or.inl hgive)).coverage_eq hlow hhigh)

/-- Giving an empty segment back overwrites the free segment that starts at its port. -/
lemma giveBack_empty {free : OrderedMap UInt32 UInt32} {x r : UInt32} (hmem : (x, r) ∈ free.entries)
    (hxr : x < r) (junk : UInt32) : giveBack free x x junk = free.insert x x := by
  have hlast : free.prev (free.upperBound x) = some (x, r) := by
    obtain ⟨last, hprev, hle⟩ := OrderedMap.exists_prev_upperBound hmem le_rfl
    have hkey : last.1 = x := (OrderedMap.prev_upperBound_le hprev).antisymm hle
    rw [hprev, OrderedMap.eq_of_mem (OrderedMap.mem_of_prev hprev) hmem hkey]
  have hright : mergeRight free (free.upperBound x)
      (((free.upperBound x).map Prod.fst).getD junk) x = (free, free.upperBound x, x) := by
    unfold mergeRight
    cases hub : free.upperBound x with
    | none => rfl
    | some right => simp [(OrderedMap.mem_of_upperBound hub).2.ne']
  simp only [giveBack, hright, mergeLeft, hlast, hxr.ne', if_false]

/-- And then no segment contains the port. -/
lemma deallocate_uncovers {x r : UInt32} (hfree : (x, r) ∈ m.freeMap.entries) (hxr : x < r)
    (halloc : (x, x) ∈ m.allocated.entries)
    (honly : ∀ e ∈ m.segments, e.1 ≤ x → x < e.2 → e = (x, r)) (junk : UInt32) :
    ((Call.deallocate x junk).perform m).coverage x = 0 := by
  simp only [Call.perform, deallocate_present (OrderedMap.find?_eq_some.mpr halloc),
    giveBack_empty hfree hxr, coverage, segments]
  rw [List.countP_eq_zero]
  intro e he
  simp only [decide_eq_true_eq, not_and, not_lt]
  intro hle
  by_contra hgt
  have hlt : x < e.2 := not_le.mp hgt
  rcases List.mem_append.mp he with hmem | hmem
  · rcases OrderedMap.mem_insert.mp hmem with rfl | ⟨hold, hkey⟩
    · exact absurd hlt (lt_irrefl x)
    · exact hkey (congrArg Prod.fst (honly e (List.mem_append_left _ hold) hle hlt))
  · obtain ⟨hold, hkey⟩ := OrderedMap.mem_erase.mp hmem
    exact hkey (congrArg Prod.fst (honly e (List.mem_append_right _ hold) hle hlt))

/-- A request for an empty range. -/
def Call.ZeroLength : Call → Prop
  | allocate cnt => cnt = 0
  | allocateExact lo hi => lo = hi
  | deallocate _ _ => False

lemma isAllocated_insert_empty (m : PortManager) (free : OrderedMap UInt32 UInt32) (x : UInt32) :
    isAllocated { m with freeMap := free, allocated := m.allocated.insert x x } x = false := by
  have hmem : (x, x) ∈ (m.allocated.insert x x).entries :=
    OrderedMap.mem_insert.mpr (Or.inl rfl)
  obtain ⟨last, hprev, hle⟩ := OrderedMap.exists_prev_upperBound hmem le_rfl
  have hkey : last.1 = x := (OrderedMap.prev_upperBound_le hprev).antisymm hle
  have hlast : last = (x, x) := OrderedMap.eq_of_mem (OrderedMap.mem_of_prev hprev) hmem hkey
  rw [isAllocated_eq, hprev, hlast]
  simp

lemma corrupts_of_uncovers {call : Call} {x r : UInt32}
    (hrecord : Ledger.Entry.opened x x ∈ call.record m) (hlow : low ≤ x) (hhigh : x < high)
    (hfree : (x, r) ∈ (call.perform m).freeMap.entries) (hxr : x < r)
    (halloc : (x, x) ∈ (call.perform m).allocated.entries)
    (honly : ∀ e ∈ (call.perform m).segments, e.1 ≤ x → x < e.2 → e = (x, r)) :
    call.Corrupts m low high := by
  refine Or.inr ⟨x, x, hrecord, 0, x, hlow, hhigh, ?_⟩
  rw [deallocate_uncovers hfree hxr halloc honly]
  exact zero_ne_one

/-- `allocate(0)` on a free segment that ends inside the range. -/
lemma corrupts_allocate (hm : Sound m low high) {f s : UInt32}
    (hhead : m.freeMap.entries.head? = some (f, s)) (hs : s ≠ high) :
    (Call.allocate 0).Corrupts m low high := by
  have hmem : (f, s) ∈ m.freeMap.entries := List.mem_of_head? hhead
  have hin := List.mem_append_left m.allocated.entries hmem
  have hfs : f < s := by
    rcases hm.padded.padding _ hin with hne | hempty
    · exact hne
    · exact absurd (congrArg Prod.snd hempty) hs
  have hshigh : s < high := (hm.free_le_high _ hmem).lt_of_ne hs
  have hlow : low ≤ s :=
    ((hm.padded.tiles.bounds (Padded.mem_proper hin hfs)).1).trans hfs.le
  have hrun := allocate_zero hfs.le ((UInt32.zero_le).trans_lt hfs).ne' hhead
  -- the segment that goes on from there is free or allocated
  obtain ⟨u, hu, hus⟩ := hm.padded.tiles.exists_starting (Padded.mem_proper hin hfs) hshigh
  obtain ⟨humem, hune⟩ : u ∈ m.segments ∧ u.1 < u.2 := by simpa using hu
  obtain ⟨x, r⟩ := u
  obtain rfl : x = s := hus
  rcases List.mem_append.mp humem with hufree | hualloc
  · have honce : ∀ e ∈ m.segments, e.1 ≤ x → x < e.2 → e = (x, r) := fun e he hle hlt =>
      hm.padded.eq_of_mem_points he humem ⟨hle, hlt⟩ ⟨le_rfl, hune⟩
    have hrecord : Ledger.Entry.opened x x ∈ (Call.allocate 0).record m := by
      simp [Call.record, hrun, returned]
    refine corrupts_of_uncovers hrecord hlow hshigh (r := r) ?_ hune ?_ ?_
    · simp only [Call.perform, hrun, cutOut, hfs, if_true, gt_iff_lt, lt_irrefl, if_false]
      exact OrderedMap.mem_insert.mpr (Or.inr ⟨hufree, hfs.ne'⟩)
    · simp only [Call.perform, hrun]
      exact OrderedMap.mem_insert.mpr (Or.inl rfl)
    · simp only [Call.perform, hrun, segments]
      intro e he hle hlt
      rcases List.mem_append.mp he with he | he
      · rcases mem_cutOut he with hold | ⟨rfl, -⟩ | ⟨-, habs⟩
        · exact honce e (List.mem_append_left _ hold) hle hlt
        · exact absurd hlt (lt_irrefl x)
        · exact absurd habs (lt_irrefl x)
      · rcases OrderedMap.mem_insert.mp he with rfl | ⟨hold, -⟩
        · exact absurd hlt (lt_irrefl x)
        · exact honce e (List.mem_append_right _ hold) hle hlt
  · have hbefore : m.isAllocated x = true :=
      hm.ordered.isAllocated_iff.mpr ⟨_, hualloc, le_rfl, hune⟩
    refine Or.inl ⟨x, ?_⟩
    simp only [Call.perform, hrun, hbefore, isAllocated_insert_empty]
    exact Bool.false_ne_true

/-- The search of `find_fit` for a port of a free segment. -/
lemma findFitExact_self (hm : Sound m low high) {x f s : UInt32} (hmem : (f, s) ∈ m.freeMap.entries)
    (hle : f ≤ x) (hlt : x < s) : m.findFitExact x x = .ok (f, s) := by
  obtain ⟨last, hprev, hfst⟩ := OrderedMap.exists_prev_upperBound hmem hle
  have hlast := OrderedMap.mem_of_prev hprev
  have heq : last = (f, s) := by
    rcases hfst.lt_or_eq with hfst | hfst
    · have hsnd : s ≤ last.1 := hm.padded.snd_le_fst (List.mem_append_left _ hmem)
        (List.mem_append_left _ hlast) hfst
      exact absurd (hsnd.trans (OrderedMap.prev_upperBound_le hprev)) (not_le.mpr hlt)
    · exact OrderedMap.eq_of_mem hlast hmem hfst.symm
  rw [findFitExact, hprev, heq]
  simp only [not_lt.mpr hlt.le, if_false]

/-- `allocate(x, x)` on a free port of the range. -/
lemma corrupts_allocateExact (hm : Sound m low high) {x : UInt32} (hlow : low ≤ x)
    (hhigh : x < high) (hunused : m.isAllocatedRange x x = false) :
    (Call.allocateExact x x).Corrupts m low high := by
  have hnot : ∀ e ∈ m.allocated.entries, e.1 ≤ x → ¬ x < e.2 := by
    intro e he hle hlt
    rw [isAllocatedRange_eq, hm.ordered.isAllocated_iff.mpr ⟨e, he, hle, hlt⟩] at hunused
    cases hunused
  obtain ⟨u, hu, hle, hlt⟩ := hm.padded.exists_cover ⟨hlow, hhigh⟩
  have hmem : u ∈ m.freeMap.entries := by
    rcases List.mem_append.mp hu with hfree | halloc
    · exact hfree
    · exact absurd hlt (hnot u halloc hle)
  obtain ⟨f, s⟩ := u
  have hpass : ¬ m.Refuses x x := by
    rw [Refuses, hm.low_eq, hm.high_eq, hunused]
    simp [hlow, hhigh.le]
  have hrun : allocateExact x x m = (.ok (x, x), { m with
      freeMap := cutOut m.freeMap f s x x
      allocated := m.allocated.insert x x }) := by
    rcases allocateExact_run m x x with ⟨href, -⟩ | ⟨-, e, hfit, -⟩ | ⟨f', s', -, hfit, hrun⟩
    · exact absurd href hpass
    · rw [findFitExact_self hm hmem hle hlt] at hfit
      cases hfit
    · rw [findFitExact_self hm hmem hle hlt] at hfit
      cases hfit
      exact hrun
  have hrecord : Ledger.Entry.opened x x ∈ (Call.allocateExact x x).record m := by
    simp [Call.record, hrun, returned]
  refine corrupts_of_uncovers hrecord hlow hhigh (r := s) ?_ hlt ?_ ?_
  · simp only [Call.perform, hrun, cutOut, gt_iff_lt, show x < s from hlt, if_true]
    exact OrderedMap.mem_insert.mpr (Or.inl rfl)
  · simp only [Call.perform, hrun]
    exact OrderedMap.mem_insert.mpr (Or.inl rfl)
  · simp only [Call.perform, hrun, segments]
    intro e he hle' hlt'
    rcases List.mem_append.mp he with he | he
    · rcases mem_cutOut_ne he with ⟨hold, hkey⟩ | ⟨rfl, -⟩ | ⟨hnew, -⟩
      · have heq : e = (f, s) := hm.padded.eq_of_mem_points (List.mem_append_left _ hold) hu
          ⟨hle', hlt'⟩ ⟨hle, hlt⟩
        exact absurd (congrArg Prod.fst heq) hkey
      · exact absurd hlt' (lt_irrefl x)
      · exact hnew
    · rcases OrderedMap.mem_insert.mp he with rfl | ⟨hold, -⟩
      · exact absurd hlt' (lt_irrefl x)
      · exact absurd hlt' (hnot e hold hle')

/-- **A request for an empty range that is not harmless corrupts the manager.** -/
lemma corrupts_of_not_harmless (hm : Sound m low high) {call : Call} (hcall : call.ZeroLength)
    (h : ¬ call.Harmless m) : call.Corrupts m low high := by
  cases call with
  | allocate cnt =>
      obtain rfl : cnt = 0 := hcall
      simp only [Call.Harmless, true_and, not_forall] at h
      obtain ⟨⟨f, s⟩, hhead, hs⟩ := h
      exact corrupts_allocate hm hhead (hm.high_eq ▸ hs)
  | allocateExact lo hi =>
      obtain rfl : lo = hi := hcall
      simp only [Call.Harmless, le_refl, true_and, and_self, hm.low_eq, hm.high_eq, not_or,
        not_lt, gt_iff_lt, Bool.not_eq_true] at h
      obtain ⟨hlow, hhigh, hunused, -, hne⟩ := h
      exact corrupts_allocateExact hm hlow (hhigh.lt_of_ne hne) hunused
  | deallocate p junk => exact absurd hcall id

/-! ## Runs -/

/-- **When degenerate requests do no harm.**  In a run whose degenerate requests are all harmless,
every port of the range is in exactly one segment in every state, and each of these requests throws
and changes nothing or leaves the allocation of every port as it was.  In every state of such a
run, a request for an empty range corrupts the manager if and only if it is not harmless. -/
theorem degenerate_safe (low high : UInt32) (hrange : low < high) (calls : List Call)
    (hsteps : Tolerates low high calls) :
    (∀ done, done <+: calls → ∀ p, low ≤ p → p < high →
        ((new low high).afterCalls done).coverage p = 1) ∧
      (∀ done call, done ++ [call] <+: calls → ¬ call.WellFormed →
        call.Throws ((new low high).afterCalls done) ∨
          ∀ p, ((new low high).afterCalls (done ++ [call])).isAllocated p
            = ((new low high).afterCalls done).isAllocated p) ∧
      ∀ done, done <+: calls → ∀ call : Call, call.ZeroLength →
        (call.Harmless ((new low high).afterCalls done) ↔
          ¬ call.Corrupts ((new low high).afterCalls done) low high) := by
  refine ⟨?_, ?_, ?_⟩
  · intro done hdone p hlow hhigh
    exact (sound_upTo hrange hsteps hdone).coverage_eq hlow hhigh
  · intro done call hdone hdegenerate
    have hm := sound_upTo hrange hsteps ((List.prefix_append done [call]).trans hdone)
    have hharmless := (hsteps done call hdone).resolve_left hdegenerate
    rcases harmless_run hrange hm hharmless with ⟨hthrows, -⟩ | -
    · exact Or.inl hthrows
    · refine Or.inr fun p => ?_
      rw [afterCalls_concat]
      exact harmless_isAllocated hrange hm hharmless p
  · intro done hdone call hcall
    have hm := sound_upTo hrange hsteps hdone
    constructor
    · exact not_corrupts_of_harmless hrange hm
    · intro hsafe
      by_contra hharm
      exact hsafe (corrupts_of_not_harmless hm hcall hharm)

/-- Nothing is asked for on the whole free range, ports 7 to 9 are allocated, and then an empty
range inside them is asked for. -/
theorem degenerate_safe_refused :
    Tolerates 1 10 [.allocate 0, .allocate 3, .allocateExact 8 8] ∧
      ((new 1 10).afterCalls [.allocate 0, .allocate 3, .allocateExact 8 8]).coverage 8 = 1 := by
  have hsteps : Tolerates 1 10 [.allocate 0, .allocate 3, .allocateExact 8 8] := by
    refine forall_steps_cons ?_ (forall_steps_cons ?_ (forall_steps_cons ?_ forall_steps_nil))
    · refine Or.inr ⟨rfl, fun e he => ?_⟩
      cases he
      rfl
    · exact Or.inl (show (1 : UInt32) ≤ 3 by decide)
    · exact Or.inr ⟨le_rfl, Or.inr (Or.inr (Or.inl rfl))⟩
  exact ⟨hsteps, (degenerate_safe 1 10 (by decide) _ hsteps).1 _ List.prefix_rfl 8 (by decide)
    (by decide)⟩

/-- With ports 7 to 9 allocated, `allocate(0)` returns the empty segment at 7 and takes the place
of theirs: port 7 is no longer allocated and is in no segment.  On a fresh manager
`allocate(5, 2)` succeeds and puts port 3 into two segments. -/
theorem degenerate_corrupting :
    let m := (new 1 10).afterCalls [.allocate 3]
    (allocate 0 m).1 = .ok (7, 7) ∧ m.isAllocated 7 = true ∧
      (allocate 0 m).2.isAllocated 7 = false ∧ (allocate 0 m).2.coverage 7 = 0 ∧
      (allocateExact 5 2 (new 1 10)).1 = .ok (5, 2) ∧
      (allocateExact 5 2 (new 1 10)).2.coverage 3 = 2 := by
  refine ⟨rfl, rfl, rfl, rfl, rfl, rfl⟩

end PortManager

end Libport
