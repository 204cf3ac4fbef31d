import Libport.Lib.Segments

/-!
# Tilings with empty segments

What an allocator needs of a tiling is little: the order of the list does not matter, a segment can
be cut and two that touch can be joined, and no other segment starts inside one.  `CutRules` says
this of any notion of tiling, so that an operation has to be followed only once.

An empty segment covers nothing, but in a map from left ends to right ends it takes a key.  Where
empty segments stand only at the right end of the interval, they cannot be in the way: `Padded`.

* `Tiles.rules`, **`Padded.rules`**: both notions follow the rules.
* `Padded.cons_end`: an empty segment at the right end can be added or left out.
* **`Padded.countP_eq_one`**: every point of the interval is in exactly one segment of the list.
-/

namespace Libport

variable {κ : Type} [LinearOrder κ] {segments rest : List (κ × κ)} {low high : κ}

/-- The rules by which a list of segments is cut and joined. -/
structure CutRules (T : List (κ × κ) → Prop) : Prop where
  perm : ∀ {l l'}, T l → l.Perm l' → T l'
  split : ∀ {a b c rest}, T ((a, c) :: rest) → a < b → b < c → T ((a, b) :: (b, c) :: rest)
  join : ∀ {a b c rest}, T ((a, b) :: (b, c) :: rest) → T ((a, c) :: rest)
  fst_ne : ∀ {a c rest}, T ((a, c) :: rest) → ∀ {p}, p ∈ Segment.points (a, c) →
    ∀ {s}, s ∈ rest → s.1 ≠ p

lemma Tiles.rules : CutRules fun l : List (κ × κ) => Tiles l low high where
  perm := Tiles.perm
  split := Tiles.split
  join := Tiles.join
  fst_ne := Tiles.fst_ne

/-- The segments tile `[low, high)`, but for empty ones at its right end. -/
structure Padded (segments : List (κ × κ)) (low high : κ) : Prop where
  tiles : Tiles (segments.filter fun s => s.1 < s.2) low high
  /-- the segments without points -/
  padding : ∀ s ∈ segments, s.1 < s.2 ∨ s = (high, high)

namespace Padded

variable {a b c : κ}

lemma of_tiles (h : Tiles segments low high) : Padded segments low high where
  tiles := by
    rw [List.filter_eq_self.mpr fun s hs => by simpa using h.nonempty s hs]
    exact h
  padding := fun s hs => Or.inl (h.nonempty s hs)

lemma perm (h : Padded segments low high) (hp : segments.Perm rest) : Padded rest low high where
  tiles := h.tiles.perm (hp.filter _)
  padding := fun s hs => h.padding s (hp.mem_iff.mpr hs)

/-- A segment with points in front. -/
lemma cons_proper (hab : a < b) : Padded ((a, b) :: rest) low high ↔
    Tiles ((a, b) :: rest.filter fun s => s.1 < s.2) low high ∧
      ∀ s ∈ rest, s.1 < s.2 ∨ s = (high, high) := by
  constructor
  · rintro ⟨htiles, hpadding⟩
    rw [List.filter_cons_of_pos (by simpa using hab)] at htiles
    exact ⟨htiles, fun s hs => hpadding s (List.mem_cons_of_mem _ hs)⟩
  · rintro ⟨htiles, hpadding⟩
    refine ⟨?_, List.forall_mem_cons.mpr ⟨Or.inl hab, hpadding⟩⟩
    rw [List.filter_cons_of_pos (by simpa using hab)]
    exact htiles

/-- An empty segment in front. -/
lemma cons_end : Padded ((high, high) :: rest) low high ↔ Padded rest low high := by
  constructor
  · rintro ⟨htiles, hpadding⟩
    rw [List.filter_cons_of_neg (by simp)] at htiles
    exact ⟨htiles, fun s hs => hpadding s (List.mem_cons_of_mem _ hs)⟩
  · rintro ⟨htiles, hpadding⟩
    refine ⟨?_, List.forall_mem_cons.mpr ⟨Or.inr rfl, hpadding⟩⟩
    rw [List.filter_cons_of_neg (by simp)]
    exact htiles

lemma mem_proper {s : κ × κ} (hs : s ∈ segments) (hne : s.1 < s.2) :
    s ∈ segments.filter fun s => s.1 < s.2 :=
  List.mem_filter.mpr ⟨hs, by simpa using hne⟩

lemma snd_le_high (h : Padded segments low high) {s : κ × κ} (hs : s ∈ segments) :
    s.2 ≤ high := by
  rcases h.padding s hs with hne | rfl
  · exact h.tiles.snd_le_high (mem_proper hs hne)
  · exact le_rfl

lemma fst_le_snd (h : Padded segments low high) {s : κ × κ} (hs : s ∈ segments) : s.1 ≤ s.2 := by
  rcases h.padding s hs with hne | rfl
  · exact hne.le
  · exact le_rfl

lemma fst_lt_high (h : Padded segments low high) {s : κ × κ} (hs : s ∈ segments)
    (hne : s.1 < s.2) : s.1 < high :=
  hne.trans_le (h.snd_le_high hs)

lemma snd_le_fst (h : Padded segments low high) {s t : κ × κ} (hs : s ∈ segments)
    (ht : t ∈ segments) (hlt : s.1 < t.1) : s.2 ≤ t.1 := by
  rcases h.padding t ht with htne | rfl
  · rcases h.padding s hs with hsne | rfl
    · exact h.tiles.snd_le_fst (mem_proper hs hsne) (mem_proper ht htne) hlt
    · exact absurd (hlt.trans (h.fst_lt_high ht htne)) (lt_irrefl high)
  · exact h.snd_le_high hs

/-- No point is in two segments. -/
lemma eq_of_mem_points (h : Padded segments low high) {s t : κ × κ} (hs : s ∈ segments)
    (ht : t ∈ segments) {p : κ} (hp : p ∈ Segment.points s) (hp' : p ∈ Segment.points t) :
    s = t :=
  h.tiles.eq_of_mem_points (mem_proper hs (hp.1.trans_lt hp.2))
    (mem_proper ht (hp'.1.trans_lt hp'.2)) hp hp'

lemma fst_ne (h : Padded ((a, c) :: rest) low high) {p : κ} (hp : p ∈ Segment.points (a, c))
    {s : κ × κ} (hs : s ∈ rest) : s.1 ≠ p := by
  have hac : a < c := hp.1.trans_lt hp.2
  rcases h.padding s (List.mem_cons_of_mem _ hs) with hne | rfl
  · exact ((cons_proper hac).mp h).1.fst_ne hp (mem_proper hs hne)
  · exact (hp.2.trans_le (h.snd_le_high List.mem_cons_self)).ne'

lemma split (h : Padded ((a, c) :: rest) low high) (hab : a < b) (hbc : b < c) :
    Padded ((a, b) :: (b, c) :: rest) low high := by
  obtain ⟨htiles, hpadding⟩ := (cons_proper (hab.trans hbc)).mp h
  refine (cons_proper hab).mpr ⟨?_, List.forall_mem_cons.mpr ⟨Or.inl hbc, hpadding⟩⟩
  rw [List.filter_cons_of_pos (by simpa using hbc)]
  exact htiles.split hab hbc

lemma join (h : Padded ((a, b) :: (b, c) :: rest) low high) :
    Padded ((a, c) :: rest) low high := by
  have hab := h.padding (a, b) List.mem_cons_self
  have hbc := h.padding (b, c) (List.mem_cons_of_mem _ List.mem_cons_self)
  rcases hbc with hbc | hbc
  · rcases hab with hab | hab
    · obtain ⟨htiles, hpadding⟩ := (cons_proper hab).mp h
      rw [List.filter_cons_of_pos (by simpa using hbc)] at htiles
      exact (cons_proper (hab.trans hbc)).mpr
        ⟨htiles.join, fun s hs => hpadding s (List.mem_cons_of_mem _ hs)⟩
    · -- an empty segment in front of one with points would start where the interval ends
      obtain ⟨rfl, rfl⟩ := Prod.mk.injEq .. ▸ hab
      exact absurd hbc (not_lt.mpr (h.snd_le_high (List.mem_cons_of_mem _ List.mem_cons_self)))
  · obtain ⟨rfl, rfl⟩ := Prod.mk.injEq .. ▸ hbc
    exact cons_end.mp (h.perm (List.Perm.swap _ _ _))

lemma rules : CutRules fun l : List (κ × κ) => Padded l low high where
  perm := perm
  split := split
  join := join
  fst_ne := fst_ne

/-! ## Covering -/

/-- Some segment with points covers a point of the interval, and no other segment does. -/
lemma exists_cover (h : Padded segments low high) {p : κ} (hp : p ∈ Set.Ico low high) :
    ∃ s ∈ segments, p ∈ Segment.points s := by
  obtain ⟨s, hs, hps⟩ := (h.tiles.cover p).mpr hp
  exact ⟨s, (List.mem_filter.mp hs).1, hps⟩

/-- **Every point is in exactly one segment.** -/
lemma countP_eq_one (h : Padded segments low high) {p : κ} (hp : p ∈ Set.Ico low high) :
    segments.countP (fun s => s.1 ≤ p ∧ p < s.2) = 1 := by
  have hproper : segments.countP (fun s => s.1 ≤ p ∧ p < s.2)
      = (segments.filter fun s => s.1 < s.2).countP (fun s => s.1 ≤ p ∧ p < s.2) := by
    rw [List.countP_filter]
    refine List.countP_congr fun s _ => ?_
    simp only [decide_eq_true_eq, Bool.and_eq_true]
    exact ⟨fun hs => ⟨hs, hs.1.trans_lt hs.2⟩, fun hs => hs.1⟩
  rw [hproper]
  refine le_antisymm ?_ ?_
  · rw [List.countP_eq_length_filter]
    -- the segments that contain `p` are disjoint, so there is at most one
    have hdisjoint := h.tiles.disjoint.filter fun s => s.1 ≤ p ∧ p < s.2
    have hcontain : ∀ s ∈ (segments.filter fun s => s.1 < s.2).filter
        (fun s => s.1 ≤ p ∧ p < s.2), p ∈ Segment.points s := fun s hs =>
      (of_decide_eq_true (List.mem_filter.mp hs).2 : s.1 ≤ p ∧ p < s.2)
    revert hdisjoint hcontain
    generalize (segments.filter fun s => s.1 < s.2).filter
      (fun s => s.1 ≤ p ∧ p < s.2) = containing
    intro hdisjoint hcontain
    match containing, hdisjoint, hcontain with
    | [], _, _ => simp
    | [s], _, _ => simp
    | s :: t :: others, hdisjoint, hcontain =>
        have hst := (List.pairwise_cons.mp hdisjoint).1 t List.mem_cons_self
        exact absurd (hcontain t (List.mem_cons_of_mem _ List.mem_cons_self))
          (Set.disjoint_left.mp hst (hcontain s List.mem_cons_self))
  · obtain ⟨s, hs, hps⟩ := (h.tiles.cover p).mpr hp
    rw [List.one_le_countP_iff]
    exact ⟨s, hs, decide_eq_true hps⟩

end Padded

end Libport
