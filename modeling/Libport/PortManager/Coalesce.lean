import Libport.PortManager.History

/-!
# When freed segments are merged with their neighbours

Cutting a range out of a free segment never leaves two free segments that touch (`Coalesced`).
Giving a segment back does in one case: when the segment on the right is merged, its iterator is
looked up again under the key just erased, so the merge on the left compares with the last free
segment of the whole map instead of the one before.

* `cutOut_coalesced`: allocations.
* **`giveBack_coalesced_iff`**: the merge is complete unless free segments touch on both sides and
  a further one lies beyond.
* **`perform_coalesced_iff`**: the same for every call.
-/

namespace Libport

namespace PortManager

variable {m : PortManager} {low high : UInt32}

/-! ## Cutting a range out -/

lemma mem_cutOut_ne {free : OrderedMap UInt32 UInt32} {f s lo hi : UInt32} {e : PortPair}
    (h : e ∈ (cutOut free f s lo hi).entries) :
    (e ∈ free.entries ∧ e.1 ≠ f) ∨ (e = (f, lo) ∧ f < lo) ∨ (e = (hi, s) ∧ hi < s) := by
  unfold cutOut at h
  have hleft : ∀ e, e ∈ (if f < lo then free.insert f lo else free.erase f).entries →
      (e ∈ free.entries ∧ e.1 ≠ f) ∨ (e = (f, lo) ∧ f < lo) := by
    intro e he
    split_ifs at he with hlt
    · rcases OrderedMap.mem_insert.mp he with rfl | hmem
      · exact Or.inr ⟨rfl, hlt⟩
      · exact Or.inl hmem
    · exact Or.inl (OrderedMap.mem_erase.mp he)
  simp only at h
  by_cases hgt : s > hi
  · rw [if_pos hgt] at h
    rcases OrderedMap.mem_insert.mp h with rfl | ⟨hmem, -⟩
    · exact Or.inr (Or.inr ⟨rfl, hgt⟩)
    · rcases hleft e hmem with hold | hnew
      · exact Or.inl hold
      · exact Or.inr (Or.inl hnew)
  · rw [if_neg hgt] at h
    rcases hleft e h with hold | hnew
    · exact Or.inl hold
    · exact Or.inr (Or.inl hnew)

lemma mem_cutOut {free : OrderedMap UInt32 UInt32} {f s lo hi : UInt32} {e : PortPair}
    (h : e ∈ (cutOut free f s lo hi).entries) :
    e ∈ free.entries ∨ (e = (f, lo) ∧ f < lo) ∨ (e = (hi, s) ∧ hi < s) :=
  (mem_cutOut_ne h).imp_left And.left

lemma cutOut_coalesced (hm : Tiles m.segments low high) (hfree : Coalesced m.freeMap.entries)
    {f s lo hi : UInt32} (hmem : (f, s) ∈ m.freeMap.entries) (hlo : f ≤ lo) (hlohi : lo < hi)
    (hhi : hi ≤ s) : Coalesced (cutOut m.freeMap f s lo hi).entries := by
  have hmine := List.mem_append_left m.allocated.entries hmem
  -- no old segment starts at `lo` when a part on the left remains
  have hstart : f < lo → ∀ e ∈ m.freeMap.entries, lo ≠ e.1 := by
    rintro hlt e he rfl
    have heq : e = (f, s) := hm.eq_of_mem_points (List.mem_append_left _ he) hmine
      ⟨le_rfl, hm.nonempty e (List.mem_append_left _ he)⟩ ⟨hlo, hlohi.trans_le hhi⟩
    rw [heq] at hlt
    exact absurd hlt (lt_irrefl f)
  -- and none ends at `hi` when a part on the right remains
  have hend : hi < s → ∀ e ∈ m.freeMap.entries, e.2 ≠ hi := by
    rintro hlt e he rfl
    have hne : e.1 < e.2 := hm.nonempty e (List.mem_append_left _ he)
    rcases le_or_gt f e.1 with hle | hgt
    · have heq : e = (f, s) := hm.eq_of_mem_points (List.mem_append_left _ he) hmine
        ⟨le_rfl, hne⟩ ⟨hle, hne.trans hlt⟩
      rw [heq] at hlt
      exact absurd hlt (lt_irrefl s)
    · have hle := hm.snd_le_fst (List.mem_append_left _ he) hmine hgt
      exact absurd (hlohi.trans_le (hle.trans hlo)) (lt_irrefl lo)
  intro e he e' he'
  rcases mem_cutOut he with hold | ⟨rfl, hlt⟩ | ⟨rfl, hgt⟩
  · rcases mem_cutOut he' with hold' | ⟨rfl, -⟩ | ⟨rfl, hgt'⟩
    · exact hfree e hold e' hold'
    · exact hfree e hold (f, s) hmem
    · exact hend hgt' e hold
  · rcases mem_cutOut he' with hold' | ⟨rfl, -⟩ | ⟨rfl, -⟩
    · exact hstart hlt e' hold'
    · exact hlt.ne'
    · exact hlohi.ne
  · rcases mem_cutOut he' with hold' | ⟨rfl, -⟩ | ⟨rfl, -⟩
    · exact hfree (f, s) hmem e' hold'
    · exact hfree (f, s) hmem (f, s) hmem
    · exact hgt.ne'

/-! ## Giving a segment back -/

/-- The merge on the left is missed: the segment from `p` to `second` touches free ones on both
sides, and a further free segment lies on the right. -/
def MissesLeft (free : OrderedMap UInt32 UInt32) (p second : UInt32) : Prop :=
  (∃ e ∈ free.entries, e.2 = p) ∧ (∃ e ∈ free.entries, e.1 = second) ∧
    ∃ e ∈ free.entries, second < e.1

instance decidableMissesLeft (free : OrderedMap UInt32 UInt32) (p second : UInt32) :
    Decidable (MissesLeft free p second) :=
  inferInstanceAs (Decidable (_ ∧ _ ∧ _))

section GiveBack

variable {free : OrderedMap UInt32 UInt32} {p second : UInt32}

/-- The segment from `p` to `second` lies between the free ones. -/
structure Between (free : OrderedMap UInt32 UInt32) (p second : UInt32) : Prop where
  proper : p < second
  nonempty : ∀ e ∈ free.entries, e.1 < e.2
  apart : ∀ e ∈ free.entries, e.2 ≤ p ∨ second ≤ e.1
  ordered : ∀ e ∈ free.entries, ∀ e' ∈ free.entries, e.1 < e'.1 → e.2 ≤ e'.1

/-- What the merge on the right leaves: the map, the iterator, and the right end. -/
lemma mergeRight_cases (h : Between free p second) (value : UInt32)
    (hvalue : ∀ right ∈ free.upperBound p, value = right.1) :
    (∃ right ∈ free.entries, right.1 = second ∧
        mergeRight free (free.upperBound p) value second = (free.erase second, none, right.2)) ∨
      ((∀ e ∈ free.entries, e.1 ≠ second) ∧
        mergeRight free (free.upperBound p) value second
          = (free, free.upperBound p, second)) := by
  unfold mergeRight
  cases hub : free.upperBound p with
  | none =>
      refine Or.inr ⟨fun e he hfst => ?_, rfl⟩
      obtain ⟨it, hit, -⟩ := OrderedMap.exists_upperBound he (hfst ▸ h.proper)
      rw [hub] at hit
      cases hit
  | some right =>
      obtain ⟨hmem, hgt⟩ := OrderedMap.mem_of_upperBound hub
      by_cases htouch : right.1 = second
      · -- the key was just erased, so the second lookup finds `end()`
        have hgone : (free.erase right.1).find? value = none := by
          rw [Option.eq_none_iff_forall_not_mem]
          intro v hv
          have hkey := (OrderedMap.mem_erase.mp (OrderedMap.find?_eq_some.mp hv)).2
          exact hkey (hvalue right hub)
        refine Or.inl ⟨right, hmem, htouch, ?_⟩
        simp only [htouch, if_true] at hgone ⊢
        rw [hgone, Option.map_none]
      · refine Or.inr ⟨fun e he hfst => htouch ?_, by simp only [htouch, if_false]⟩
        have hle : right.1 ≤ second := hfst ▸ OrderedMap.upperBound_le hub he (hfst ▸ h.proper)
        rcases h.apart right hmem with hleft | hright
        · exact absurd ((h.nonempty right hmem).trans_le hleft) (not_lt.mpr hgt.le)
        · exact le_antisymm hle hright

/-- The merge on the left finds the segment that ends at `p`, when nothing before the iterator
starts later. -/
lemma prev_touching (h : Between free p second) {kept : OrderedMap UInt32 UInt32}
    (hsub : ∀ e ∈ kept.entries, e ∈ free.entries) {it : Option PortPair} {left : PortPair}
    (hleft : left ∈ kept.entries) (htouch : left.2 = p) (hbefore : ∀ x ∈ it, left.1 < x.1)
    (hlast : ∀ e, kept.prev it = some e → e.1 < second) : kept.prev it = some left := by
  obtain ⟨e, he⟩ := OrderedMap.prev_isSome hleft hbefore
  have hmem := OrderedMap.mem_of_prev he
  rcases (OrderedMap.le_prev he hleft hbefore).lt_or_eq with hlt | heq
  · have hle : p ≤ e.1 := htouch ▸ h.ordered left (hsub left hleft) e (hsub e hmem) hlt
    rcases h.apart e (hsub e hmem) with hdone | hbeyond
    · exact absurd ((h.nonempty e (hsub e hmem)).trans_le hdone) (not_lt.mpr hle)
    · exact absurd (hlast e he) (not_lt.mpr hbeyond)
  · rw [he, OrderedMap.eq_of_mem hleft hmem heq]

lemma mergeLeft_touching {kept : OrderedMap UInt32 UInt32} {it : Option PortPair} {left : PortPair}
    (hprev : kept.prev it = some left) (htouch : left.2 = p) (b : UInt32) :
    mergeLeft kept it p b = kept.insert left.1 b := by
  simp [mergeLeft, hprev, htouch]

lemma mergeLeft_apart {kept : OrderedMap UInt32 UInt32} {it : Option PortPair}
    (h : ∀ e, kept.prev it = some e → e.2 ≠ p) (b : UInt32) :
    mergeLeft kept it p b = kept.insert p b := by
  unfold mergeLeft
  cases hprev : kept.prev it with
  | none => rfl
  | some e => simp [h e hprev]

lemma insert_coalesced {kept : OrderedMap UInt32 UInt32} {k b : UInt32}
    (hkept : Coalesced kept.entries) (hk : ∀ e ∈ kept.entries, e.2 ≠ k)
    (hb : ∀ e ∈ kept.entries, b ≠ e.1) (hkb : k < b) : Coalesced (kept.insert k b).entries := by
  intro e he e' he'
  rcases OrderedMap.mem_insert.mp he with rfl | ⟨hmem, -⟩
  · rcases OrderedMap.mem_insert.mp he' with rfl | ⟨hmem', -⟩
    · exact hkb.ne'
    · exact hb e' hmem'
  · rcases OrderedMap.mem_insert.mp he' with rfl | ⟨hmem', -⟩
    · exact hk e hmem
    · exact hkept e hmem e' hmem'

/-- Once the right end is settled, the merge on the left decides. -/
lemma mergeLeft_coalesced_iff (h : Between free p second) {kept : OrderedMap UInt32 UInt32}
    {it : Option PortPair} {b : UInt32} (hsub : ∀ e ∈ kept.entries, e ∈ free.entries)
    (hleft : ∀ e ∈ free.entries, e.2 = p → e ∈ kept.entries)
    (hit : ∀ e ∈ kept.entries, e.2 = p → ∀ x ∈ it, e.1 < x.1)
    (hfree : Coalesced free.entries) (hb : ∀ e ∈ kept.entries, b ≠ e.1) (hpb : p < b) :
    Coalesced (mergeLeft kept it p b).entries ↔
      ¬ ((∃ e ∈ free.entries, e.2 = p) ∧ ∃ e, kept.prev it = some e ∧ second ≤ e.1) := by
  have hkept : Coalesced kept.entries := fun e he e' he' => hfree e (hsub e he) e' (hsub e' he')
  by_cases htouch : ∃ e ∈ free.entries, e.2 = p
  · obtain ⟨left, hmem, hp⟩ := htouch
    have hlt : left.1 < p := hp ▸ h.nonempty left hmem
    have hin := hleft left hmem hp
    by_cases hlast : ∃ e, kept.prev it = some e ∧ second ≤ e.1
    · obtain ⟨last, hprev, hbeyond⟩ := hlast
      have hmiss : ∀ e, kept.prev it = some e → e.2 ≠ p := by
        intro e he
        rw [hprev] at he
        cases he
        have hne := h.nonempty last (hsub last (OrderedMap.mem_of_prev hprev))
        exact ((h.proper.trans_le hbeyond).trans hne).ne'
      refine iff_of_false (fun hc => ?_) (fun hn => hn ⟨⟨left, hmem, hp⟩, last, hprev, hbeyond⟩)
      rw [mergeLeft_apart hmiss] at hc
      exact hc left (OrderedMap.mem_insert.mpr (Or.inr ⟨hin, hlt.ne⟩)) (p, b)
        (OrderedMap.mem_insert.mpr (Or.inl rfl)) hp
    · have hprev := prev_touching h hsub hin hp (hit left hin hp) fun e he =>
        not_le.mp fun hle => hlast ⟨e, he, hle⟩
      refine iff_of_true ?_ fun hboth => hlast hboth.2
      rw [mergeLeft_touching hprev hp]
      exact insert_coalesced hkept (fun e he => hkept e he left hin) hb (hlt.trans hpb)
  · refine iff_of_true ?_ fun hboth => htouch hboth.1
    have hk : ∀ e ∈ kept.entries, e.2 ≠ p := fun e he hp => htouch ⟨e, hsub e he, hp⟩
    rw [mergeLeft_apart fun e he => hk e (OrderedMap.mem_of_prev he)]
    exact insert_coalesced hkept hk hb hpb

/-- **Where giving a segment back leaves touching segments.** -/
lemma giveBack_coalesced_iff (h : Between free p second) (hfree : Coalesced free.entries)
    (junk : UInt32) :
    Coalesced (giveBack free p second junk).entries ↔ ¬ MissesLeft free p second := by
  unfold giveBack
  simp only
  generalize hv : ((free.upperBound p).map Prod.fst).getD junk = value
  have hvalue : ∀ right ∈ free.upperBound p, value = right.1 := by
    intro right hright
    rw [Option.mem_def.mp hright] at hv
    exact hv.symm
  rcases mergeRight_cases h value hvalue with ⟨right, hmem, hfst, hrun⟩ | ⟨hnone, hrun⟩
  · -- merged on the right: the iterator is `end()`
    rw [hrun]
    have hright : second < right.2 := hfst ▸ h.nonempty right hmem
    have hsub : ∀ e ∈ (free.erase second).entries, e ∈ free.entries := fun e he =>
      (OrderedMap.mem_erase.mp he).1
    rw [mergeLeft_coalesced_iff h hsub ?_ ?_ hfree ?_ (h.proper.trans hright)]
    · refine not_congr (and_congr_right fun _ => ?_)
      constructor
      · rintro ⟨e, hprev, hle⟩
        obtain ⟨he, hne⟩ := OrderedMap.mem_erase.mp (OrderedMap.mem_of_prev hprev)
        exact ⟨⟨right, hmem, hfst⟩, e, he, hle.lt_of_ne' hne⟩
      · rintro ⟨-, e, he, hgt⟩
        have hin := OrderedMap.mem_erase.mpr ⟨he, hgt.ne'⟩
        have hend : ∀ x ∈ (none : Option PortPair), e.1 < x.1 := by simp
        obtain ⟨last, hlast⟩ := OrderedMap.prev_isSome hin hend
        exact ⟨last, hlast, hgt.le.trans (OrderedMap.le_prev hlast hin hend)⟩
    · intro e he hp
      have hlt : e.1 < p := hp ▸ h.nonempty e he
      exact OrderedMap.mem_erase.mpr ⟨he, (hlt.trans h.proper).ne⟩
    · simp
    · intro e he
      exact hfree right hmem e (hsub e he)
  · -- nothing to merge on the right: the iterator is the next free segment
    rw [hrun]
    have hlow : ∀ e ∈ free.entries, e.2 = p → ∀ x ∈ free.upperBound p, e.1 < x.1 :=
      fun e he hp x hx => OrderedMap.lt_of_mem_upperBound (hp ▸ (h.nonempty e he).le) hx
    rw [mergeLeft_coalesced_iff h (fun _ he => he) (fun _ he _ => he) hlow hfree
      (fun e he => (hnone e he).symm) h.proper]
    refine not_congr (and_congr_right fun _ => ?_)
    constructor
    · rintro ⟨e, hprev, hle⟩
      exact absurd (hle.trans (OrderedMap.prev_upperBound_le hprev)) (not_le.mpr h.proper)
    · rintro ⟨⟨e, he, hfst⟩, -⟩
      exact absurd hfst (hnone e he)

end GiveBack

/-! ## One call -/

lemma between_of_allocated (hm : Tiles m.segments low high) {p second : UInt32}
    (hmem : (p, second) ∈ m.allocated.entries) : Between m.freeMap p second := by
  have hmine := List.mem_append_right m.freeMap.entries hmem
  have hin : ∀ e ∈ m.freeMap.entries, e ∈ m.segments := fun e he => List.mem_append_left _ he
  refine ⟨hm.nonempty _ hmine, free_nonempty hm, fun e he => ?_,
    fun e he e' he' => hm.snd_le_fst (hin e he) (hin e' he')⟩
  have hd := (List.pairwise_append.mp hm.disjoint).2.2 e he (p, second) hmem
  rcases lt_trichotomy e.1 p with hlt | heq | hgt
  · exact Or.inl (hm.snd_le_fst (hin e he) hmine hlt)
  · have hne : e.1 < e.2 := free_nonempty hm e he
    have hps : p < second := hm.nonempty _ hmine
    exact absurd (⟨heq.ge, heq ▸ hps⟩ : e.1 ∈ Segment.points (p, second))
      (Set.disjoint_left.mp hd ⟨le_rfl, hne⟩)
  · exact Or.inr (hm.snd_le_fst hmine (hin e he) hgt)

/-- The step of a run that leaves touching free segments: the deallocation of a live segment in
the case `MissesLeft`. -/
def Call.Splits (call : Call) (m : PortManager) : Prop :=
  match call with
  | deallocate p _ => ∃ second, m.allocated.find? p = some second ∧ MissesLeft m.freeMap p second
  | _ => False

/-- **A call keeps the free segments coalesced exactly when it does not split.** -/
lemma perform_coalesced_iff (hm : Tiles m.segments low high)
    (hfree : Coalesced m.freeMap.entries) {call : Call} (hcall : call.WellFormed) :
    Coalesced (call.perform m).freeMap.entries ↔ ¬ call.Splits m := by
  cases call with
  | allocate cnt =>
      refine iff_of_true ?_ id
      simp only [Call.perform]
      rcases allocate_run (free_nonempty hm) hcall with ⟨-, hrun⟩ | ⟨f, s, lo, hmem, hlo, hlos, -,
        hrun⟩
      · rw [hrun]
        exact hfree
      · rw [hrun]
        exact cutOut_coalesced hm hfree hmem hlo hlos le_rfl
  | allocateExact lo hi =>
      refine iff_of_true ?_ id
      simp only [Call.perform]
      rcases allocateExact_run m lo hi with ⟨-, hrun⟩ | ⟨-, e, -, hrun⟩ | ⟨f, s, -, hfit, hrun⟩
      · rw [hrun]
        exact hfree
      · rw [hrun]
        exact hfree
      · obtain ⟨hmem, hlo, hhi⟩ := findFitExact_ok hfit
        rw [hrun]
        exact cutOut_coalesced hm hfree hmem hlo hcall hhi
  | deallocate p junk =>
      simp only [Call.perform, Call.Splits]
      cases hfind : m.allocated.find? p with
      | none =>
          rw [deallocate_absent hfind]
          exact iff_of_true hfree (by simp)
      | some second =>
          have hbetween := between_of_allocated hm (OrderedMap.find?_eq_some.mp hfind)
          rw [deallocate_present hfind]
          simpa using giveBack_coalesced_iff hbetween hfree junk

end PortManager

end Libport
