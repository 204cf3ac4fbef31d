import Mathlib

/-!
# Tilings of an interval

A list of half-open segments `[l, r)` over a linear order tiles `[low, high)` when every segment
has a point, no point is in two of them, and together they are the whole interval.

What an allocator does to such a list is to cut a segment in two or to join two that touch.

* **`Tiles.split`** and **`Tiles.join`**: both keep a tiling.
* `Tiles.perm`: the order of the list does not matter.
* `Coalesced`: no two segments of a list touch.
* **`Tiles.exists_covering`**: where the free part of a tiling is coalesced, every free range is
  inside one segment.
* **`Tiles.coalesced_iff_gap`**: a part of a tiling is coalesced exactly when it consists of the
  gaps that the other part leaves, so that the other part determines it.
-/

namespace Libport

variable {κ : Type} [LinearOrder κ]

/-- The points of a segment. -/
def Segment.points (s : κ × κ) : Set κ := Set.Ico s.1 s.2

/-- The segments tile `[low, high)`. -/
structure Tiles (segments : List (κ × κ)) (low high : κ) : Prop where
  /-- every segment has a point -/
  nonempty : ∀ s ∈ segments, s.1 < s.2
  /-- no point is in two segments -/
  disjoint : segments.Pairwise fun s t => Disjoint (Segment.points s) (Segment.points t)
  /-- the segments are the whole interval -/
  cover : ∀ p, (∃ s ∈ segments, p ∈ Segment.points s) ↔ p ∈ Set.Ico low high

namespace Tiles

variable {segments rest : List (κ × κ)} {low high a b c : κ}

/-- An interval tiles itself. -/
lemma single (h : low < high) : Tiles [(low, high)] low high where
  nonempty := by simpa using h
  disjoint := List.pairwise_singleton _ _
  cover := by simp [Segment.points]

lemma perm (h : Tiles segments low high) (hp : segments.Perm rest) : Tiles rest low high where
  nonempty := fun s hs => h.nonempty s (hp.mem_iff.mpr hs)
  disjoint := (hp.pairwise_iff fun hd => hd.symm).mp h.disjoint
  cover := fun p => by
    rw [← h.cover p]
    exact exists_congr fun s => and_congr_left' hp.mem_iff.symm

lemma points_split (hab : a < b) (hbc : b < c) :
    Segment.points (a, c) = Segment.points (a, b) ∪ Segment.points (b, c) :=
  (Set.Ico_union_Ico_eq_Ico hab.le hbc.le).symm

lemma disjoint_split : Disjoint (Segment.points (a, b)) (Segment.points (b, c)) := by
  rw [Set.disjoint_left]
  intro p hp hp'
  exact absurd hp.2 (not_lt.mpr hp'.1)

/-- **Cutting a segment in two keeps the tiling.** -/
lemma split (h : Tiles ((a, c) :: rest) low high) (hab : a < b) (hbc : b < c) :
    Tiles ((a, b) :: (b, c) :: rest) low high where
  nonempty := by
    intro s hs
    rcases List.mem_cons.mp hs with rfl | hs
    · exact hab
    · rcases List.mem_cons.mp hs with rfl | hs
      · exact hbc
      · exact h.nonempty s (List.mem_cons_of_mem _ hs)
  disjoint := by
    obtain ⟨hfirst, hrest⟩ := List.pairwise_cons.mp h.disjoint
    simp only [points_split hab hbc, Set.disjoint_union_left] at hfirst
    refine List.pairwise_cons.mpr ⟨?_, List.pairwise_cons.mpr ⟨fun s hs => (hfirst s hs).2, hrest⟩⟩
    intro s hs
    rcases List.mem_cons.mp hs with rfl | hs
    · exact disjoint_split
    · exact (hfirst s hs).1
  cover := by
    intro p
    rw [← h.cover p]
    simp only [List.exists_mem_cons_iff, points_split hab hbc, Set.mem_union, or_assoc]

/-- **Joining two segments that touch keeps the tiling.** -/
lemma join (h : Tiles ((a, b) :: (b, c) :: rest) low high) : Tiles ((a, c) :: rest) low high := by
  have hab : a < b := h.nonempty (a, b) List.mem_cons_self
  have hbc : b < c := h.nonempty (b, c) (List.mem_cons_of_mem _ List.mem_cons_self)
  obtain ⟨hfirst, htail⟩ := List.pairwise_cons.mp h.disjoint
  obtain ⟨hsecond, hrest⟩ := List.pairwise_cons.mp htail
  refine ⟨?_, ?_, ?_⟩
  · intro s hs
    rcases List.mem_cons.mp hs with rfl | hs
    · exact hab.trans hbc
    · exact h.nonempty s (List.mem_cons_of_mem _ (List.mem_cons_of_mem _ hs))
  · refine List.pairwise_cons.mpr ⟨fun s hs => ?_, hrest⟩
    rw [points_split hab hbc, Set.disjoint_union_left]
    exact ⟨hfirst s (List.mem_cons_of_mem _ hs), hsecond s hs⟩
  · intro p
    rw [← h.cover p]
    simp only [List.exists_mem_cons_iff, points_split hab hbc, Set.mem_union, or_assoc]

lemma fst_ne (h : Tiles ((a, c) :: rest) low high) {p : κ} (hp : p ∈ Segment.points (a, c))
    {s : κ × κ} (hs : s ∈ rest) : s.1 ≠ p := by
  rintro rfl
  have hne : s.1 < s.2 := h.nonempty s (List.mem_cons_of_mem _ hs)
  have hdisjoint := (List.pairwise_cons.mp h.disjoint).1 s hs
  exact Set.disjoint_left.mp hdisjoint hp ⟨le_rfl, hne⟩

/-! ## Two segments of a tiling -/

lemma eq_of_mem_points (h : Tiles segments low high) {s t : κ × κ} (hs : s ∈ segments)
    (ht : t ∈ segments) {p : κ} (hp : p ∈ Segment.points s) (hp' : p ∈ Segment.points t) :
    s = t := by
  by_contra hne
  have hsymm : Std.Symm fun s t : κ × κ => Disjoint (Segment.points s) (Segment.points t) :=
    ⟨fun _ _ hd => hd.symm⟩
  exact Set.disjoint_left.mp (h.disjoint.forall hs ht hne) hp hp'

/-- Segments are ordered as their left ends are. -/
lemma snd_le_fst (h : Tiles segments low high) {s t : κ × κ} (hs : s ∈ segments)
    (ht : t ∈ segments) (hlt : s.1 < t.1) : s.2 ≤ t.1 := by
  by_contra hgt
  have heq : s = t :=
    h.eq_of_mem_points hs ht ⟨hlt.le, not_le.mp hgt⟩ ⟨le_rfl, h.nonempty t ht⟩
  exact absurd (congrArg Prod.fst heq) hlt.ne

lemma bounds (h : Tiles segments low high) {s : κ × κ} (hs : s ∈ segments) :
    low ≤ s.1 ∧ s.1 < high :=
  (h.cover s.1).mp ⟨s, hs, le_rfl, h.nonempty s hs⟩

lemma snd_le_high (h : Tiles segments low high) {s : κ × κ} (hs : s ∈ segments) :
    s.2 ≤ high := by
  by_contra hgt
  have hlt : s.1 < high := (h.bounds hs).2
  exact absurd ((h.cover high).mp ⟨s, hs, hlt.le, not_le.mp hgt⟩).2 (lt_irrefl high)

/-- A segment that stops before the end of the interval is followed by another one. -/
lemma exists_starting (h : Tiles segments low high) {s : κ × κ} (hs : s ∈ segments)
    (hlt : s.2 < high) : ∃ t ∈ segments, t.1 = s.2 := by
  have hne : s.1 < s.2 := h.nonempty s hs
  obtain ⟨t, ht, hle, hgt⟩ := (h.cover s.2).mpr ⟨(h.bounds hs).1.trans hne.le, hlt⟩
  refine ⟨t, ht, hle.antisymm ?_⟩
  rcases lt_or_ge s.1 t.1 with hafter | hbefore
  · exact h.snd_le_fst hs ht hafter
  · have heq : s = t := h.eq_of_mem_points hs ht ⟨le_rfl, hne⟩ ⟨hbefore, hne.trans hgt⟩
    rw [heq] at hgt
    exact absurd hgt (lt_irrefl _)

/-- A segment that starts after the start of the interval is preceded by another one. -/
lemma exists_ending (h : Tiles segments low high) {s : κ × κ} (hs : s ∈ segments)
    (hlt : low < s.1) : ∃ t ∈ segments, t.2 = s.1 := by
  classical
  have hlow : low < high := hlt.trans (h.bounds hs).2
  obtain ⟨u, hu, hulow, -⟩ := (h.cover low).mpr ⟨le_rfl, hlow⟩
  -- the last of the segments that start before `s`
  have hbefore : (segments.toFinset.filter fun t => t.1 < s.1).Nonempty :=
    ⟨u, by simpa using ⟨hu, hulow.trans_lt hlt⟩⟩
  obtain ⟨t, ht, hmax⟩ := Finset.exists_max_image _ Prod.fst hbefore
  obtain ⟨htmem, htlt⟩ : t ∈ segments ∧ t.1 < s.1 := by simpa using ht
  refine ⟨t, htmem, (h.snd_le_fst htmem hs htlt).antisymm ?_⟩
  by_contra hgap
  have hshort : t.2 < s.1 := not_le.mp hgap
  obtain ⟨v, hv, hvt⟩ := h.exists_starting htmem (hshort.trans (h.bounds hs).2)
  have hle := hmax v (by simpa using ⟨hv, hvt ▸ hshort⟩)
  rw [hvt] at hle
  exact absurd (h.nonempty t htmem) (not_lt.mpr hle)

end Tiles

/-! ## Coalesced lists -/

/-- No segment of the list ends where another one starts. -/
def Coalesced (segments : List (κ × κ)) : Prop :=
  ∀ s ∈ segments, ∀ t ∈ segments, s.2 ≠ t.1

variable {free used : List (κ × κ)} {low high a b : κ}

lemma Coalesced.single (h : low < high) : Coalesced [(low, high)] := by
  intro s hs t ht
  rw [List.mem_singleton.mp hs, List.mem_singleton.mp ht]
  exact h.ne'

/-- **One coalesced segment covers a whole gap.**  Where part of a tiling is coalesced, a range
that avoids the other part is inside a single segment. -/
lemma Tiles.exists_covering (h : Tiles (free ++ used) low high) (hfree : Coalesced free)
    (hab : a < b) (ha : low ≤ a) (hb : b ≤ high)
    (havoid : ∀ p ∈ Set.Ico a b, ∀ s ∈ used, p ∉ Segment.points s) :
    ∃ s ∈ free, s.1 ≤ a ∧ b ≤ s.2 := by
  have hfind : ∀ p ∈ Set.Ico a b, ∃ s ∈ free, p ∈ Segment.points s := by
    intro p hp
    obtain ⟨s, hs, hps⟩ := (h.cover p).mpr ⟨ha.trans hp.1, hp.2.trans_le hb⟩
    rcases List.mem_append.mp hs with hs | hs
    · exact ⟨s, hs, hps⟩
    · exact absurd hps (havoid p hp s hs)
  obtain ⟨s, hs, has⟩ := hfind a ⟨le_rfl, hab⟩
  refine ⟨s, hs, has.1, ?_⟩
  by_contra hshort
  -- the segment ends inside the range, so another free one goes on from there
  have hlt : s.2 < b := not_le.mp hshort
  obtain ⟨t, ht, hend⟩ := hfind s.2 ⟨has.2.le, hlt⟩
  have hfst : s.1 < t.1 ∨ t.1 ≤ s.1 := lt_or_ge _ _
  rcases hfst with hfst | hfst
  · have hle := h.snd_le_fst (List.mem_append_left _ hs) (List.mem_append_left _ ht) hfst
    exact hfree s hs t ht (le_antisymm hle hend.1)
  · have heq : s = t := h.eq_of_mem_points (List.mem_append_left _ hs)
      (List.mem_append_left _ ht) ⟨le_rfl, has.1.trans_lt has.2⟩
      ⟨hfst, (has.1.trans_lt has.2).trans hend.2⟩
    rw [heq] at hend
    exact absurd hend.2 (lt_irrefl _)

/-! ## Gaps -/

/-- A range that the used segments leave free in `[low, high)`, and that cannot be extended. -/
structure Gap (used : List (κ × κ)) (low high : κ) (s : κ × κ) : Prop where
  proper : s.1 < s.2
  inside : low ≤ s.1 ∧ s.2 ≤ high
  /-- no point of the range is used -/
  avoids : ∀ u ∈ used, Disjoint (Segment.points s) (Segment.points u)
  /-- the point before the range is -/
  left : s.1 = low ∨ ∃ u ∈ used, u.2 = s.1
  /-- and so is the point after it -/
  right : s.2 = high ∨ ∃ u ∈ used, u.1 = s.2

namespace Tiles

lemma avoids (h : Tiles (free ++ used) low high) {s u : κ × κ} (hs : s ∈ free) (hu : u ∈ used) :
    Disjoint (Segment.points s) (Segment.points u) :=
  (List.pairwise_append.mp h.disjoint).2.2 s hs u hu

lemma fst_ne_fst (h : Tiles (free ++ used) low high) {s u : κ × κ} (hs : s ∈ free)
    (hu : u ∈ used) : s.1 ≠ u.1 := by
  intro heq
  have hsne : s.1 < s.2 := h.nonempty s (List.mem_append_left _ hs)
  have hune : u.1 < u.2 := h.nonempty u (List.mem_append_right _ hu)
  exact Set.disjoint_left.mp (h.avoids hs hu) ⟨le_rfl, hsne⟩ ⟨heq.ge, heq ▸ hune⟩

/-- In a coalesced part every segment is a gap of the other part. -/
lemma gap_of_mem (h : Tiles (free ++ used) low high) (hfree : Coalesced free) {s : κ × κ}
    (hs : s ∈ free) : Gap used low high s := by
  have hmem := List.mem_append_left used hs
  refine ⟨h.nonempty s hmem, ⟨(h.bounds hmem).1, h.snd_le_high hmem⟩, fun u hu => h.avoids hs hu,
    ?_, ?_⟩
  · rcases (h.bounds hmem).1.eq_or_lt with heq | hlt
    · exact Or.inl heq.symm
    · obtain ⟨t, ht, hend⟩ := h.exists_ending hmem hlt
      rcases List.mem_append.mp ht with ht | ht
      · exact absurd hend (hfree t ht s hs)
      · exact Or.inr ⟨t, ht, hend⟩
  · rcases (h.snd_le_high hmem).eq_or_lt with heq | hlt
    · exact Or.inl heq
    · obtain ⟨t, ht, hstart⟩ := h.exists_starting hmem hlt
      rcases List.mem_append.mp ht with ht | ht
      · exact absurd hstart.symm (hfree s hs t ht)
      · exact Or.inr ⟨t, ht, hstart⟩

/-- And every gap of the other part is a segment of the coalesced one. -/
lemma mem_of_gap (h : Tiles (free ++ used) low high) (hfree : Coalesced free) {s : κ × κ}
    (hs : Gap used low high s) : s ∈ free := by
  obtain ⟨t, ht, hle, hge⟩ := h.exists_covering hfree hs.proper hs.inside.1 hs.inside.2
    fun p hp u hu => Set.disjoint_left.mp (hs.avoids u hu) hp
  have hmem := List.mem_append_left used ht
  have hfst : t.1 = s.1 := by
    rcases hs.left with hlow | ⟨u, hu, hend⟩
    · exact hle.antisymm (hlow ▸ (h.bounds hmem).1)
    · have hin := List.mem_append_right free hu
      rcases lt_trichotomy u.1 t.1 with hlt | heq | hgt
      · exact hle.antisymm (hend ▸ h.snd_le_fst hin hmem hlt)
      · exact absurd heq.symm (h.fst_ne_fst ht hu)
      · have hbefore : t.2 ≤ u.1 := h.snd_le_fst hmem hin hgt
        have hlt : u.1 < s.1 := hend ▸ h.nonempty u hin
        exact absurd ((hge.trans hbefore).trans_lt hlt) (not_lt.mpr hs.proper.le)
  have hsnd : t.2 = s.2 := by
    rcases hs.right with hhigh | ⟨u, hu, hstart⟩
    · exact (hhigh ▸ h.snd_le_high hmem).antisymm hge
    · have hlt : t.1 < u.1 := by
        rw [hstart, hfst]
        exact hs.proper
      exact (hstart ▸ h.snd_le_fst hmem (List.mem_append_right _ hu) hlt).antisymm hge
  rw [← Prod.ext hfst hsnd]
  exact ht

/-- **Coalesced segments are the gaps of the rest**, and only these are. -/
lemma coalesced_iff_gap (h : Tiles (free ++ used) low high) :
    Coalesced free ↔ ∀ s, s ∈ free ↔ Gap used low high s := by
  constructor
  · intro hfree s
    exact ⟨h.gap_of_mem hfree, h.mem_of_gap hfree⟩
  · intro hgap s hs t ht htouch
    rcases ((hgap s).mp hs).right with hhigh | ⟨u, hu, hstart⟩
    · have hlt := (h.bounds (List.mem_append_left used ht)).2
      rw [← htouch, hhigh] at hlt
      exact absurd hlt (lt_irrefl high)
    · exact h.fst_ne_fst ht hu (htouch.symm.trans hstart.symm)

end Tiles

end Libport
