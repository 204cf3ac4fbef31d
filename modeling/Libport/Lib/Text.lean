import Mathlib.Tactic

/-!
# Searching in strings, and names made of numbers

`std::string::find`, `rfind` and `substr` over the characters of a string.

* `find` returns the position of the first occurrence of a pattern and `rfind` that of the last
  one; `none` stands for `npos`.
* **`find_eq_none_iff`**: a search fails exactly when the pattern is not a contiguous part
  (`<:+:`) of the text.
* `findList_single_eq_some` and `rfindList_single_append`: what a search for one character finds.
* `split_first` and `split_last`: a text is cut in one way at the first, or last, occurrence of a
  character.
* `joined_injective`: two numbers written with an underscore between them can be read back.
* `signed_append_inj`: the sign and the digits of an integer in front of any text.
-/

namespace Libport

namespace Text

/-- The position of the first occurrence of `pat` in a list of characters. -/
def findList (pat : List Char) : List Char → Option ℕ
  | [] => if pat = [] then some 0 else none
  | c :: rest => if pat <+: c :: rest then some 0 else (findList pat rest).map (· + 1)

/-- The position of the last occurrence of `pat` in a list of characters. -/
def rfindList (pat : List Char) : List Char → Option ℕ
  | [] => if pat = [] then some 0 else none
  | c :: rest =>
      match rfindList pat rest with
      | some i => some (i + 1)
      | none => if pat <+: c :: rest then some 0 else none

/-- `std::string::npos`, the position a failed search reports. -/
def npos : ℕ := 2 ^ 64 - 1

/-- `s.find(pat)`. -/
def find (s pat : String) : Option ℕ := findList pat.toList s.toList

/-- `s.rfind(pat)`. -/
def rfind (s pat : String) : Option ℕ := rfindList pat.toList s.toList

/-- `s.c_str()` read as a C string: the text in front of the first null character. -/
def cString (s : String) : String := String.ofList (s.toList.takeWhile (· ≠ '\x00'))

/-- `s.substr(pos, len)`. -/
def substr (s : String) (pos len : ℕ) : String := String.ofList ((s.toList.drop pos).take len)

lemma findList_eq_none_iff (pat s : List Char) : findList pat s = none ↔ ¬ pat <:+: s := by
  induction s with
  | nil => simp [findList]
  | cons c rest ih =>
      rw [findList, List.infix_cons_iff]
      split_ifs with hpre
      · simp [hpre]
      · simp [hpre, ih]

/-- **A search fails exactly when the pattern does not occur.** -/
lemma find_eq_none_iff (s pat : String) : find s pat = none ↔ ¬ pat.toList <:+: s.toList :=
  findList_eq_none_iff _ _

/-- **The first occurrence of a character** splits the text in front of it. -/
lemma findList_single_eq_some {c : Char} {s : List Char} {i : ℕ} :
    findList [c] s = some i ↔ ∃ front back, s = front ++ c :: back ∧ c ∉ front ∧
      front.length = i := by
  induction s generalizing i with
  | nil => simp [findList]
  | cons d rest ih =>
      by_cases hd : c = d
      · subst hd
        have hpre : [c] <+: c :: rest := ⟨rest, rfl⟩
        simp only [findList, hpre, if_true, Option.some.injEq]
        constructor
        · rintro rfl
          exact ⟨[], rest, rfl, List.not_mem_nil, rfl⟩
        · rintro ⟨front, back, hsplit, hfront, rfl⟩
          cases front with
          | nil => rfl
          | cons first front =>
              obtain ⟨rfl, -⟩ := List.cons.inj hsplit
              exact absurd List.mem_cons_self hfront
      · have hpre : ¬ [c] <+: d :: rest := by simpa [List.cons_prefix_cons] using hd
        simp only [findList, hpre, if_false, Option.map_eq_some_iff, ih]
        constructor
        · rintro ⟨j, ⟨front, back, rfl, hfront, rfl⟩, rfl⟩
          exact ⟨d :: front, back, rfl, by simp [hd, hfront], rfl⟩
        · rintro ⟨front, back, hsplit, hfront, rfl⟩
          cases front with
          | nil => exact absurd (List.cons.inj hsplit).1.symm hd
          | cons first front =>
              obtain ⟨rfl, rfl⟩ := List.cons.inj hsplit
              refine ⟨front.length, ⟨front, back, rfl, ?_, rfl⟩, rfl⟩
              exact fun hmem => hfront (List.mem_cons_of_mem _ hmem)

lemma rfindList_single_of_notMem {c : Char} {s : List Char} (hc : c ∉ s) :
    rfindList [c] s = none := by
  induction s with
  | nil => simp [rfindList]
  | cons d rest ih =>
      rw [List.mem_cons, not_or] at hc
      obtain ⟨hne, hrest⟩ := hc
      have hpre : ¬ [c] <+: d :: rest := by simpa [List.cons_prefix_cons] using hne
      rw [rfindList, ih hrest]
      simp only [hpre, if_false]

/-- **The last occurrence of a character** has none behind it. -/
lemma rfindList_single_append {c : Char} {front back : List Char} (hback : c ∉ back) :
    rfindList [c] (front ++ c :: back) = some front.length := by
  induction front with
  | nil =>
      have hpre : [c] <+: c :: back := ⟨back, rfl⟩
      rw [List.nil_append, rfindList, rfindList_single_of_notMem hback]
      simp only [hpre, if_true, List.length_nil]
  | cons d front ih => rw [List.cons_append, rfindList, ih, List.length_cons]

/-! ## Cutting at a character -/

lemma exists_last_of_mem {c : Char} {s : List Char} (hc : c ∈ s) :
    ∃ front back, s = front ++ c :: back ∧ c ∉ back := by
  obtain ⟨back, front, hsplit, hback⟩ := List.eq_append_cons_of_mem (List.mem_reverse.mpr hc)
  refine ⟨front.reverse, back.reverse, ?_, by simpa using hback⟩
  simpa using congrArg List.reverse hsplit

lemma split_first {c : Char} {front back front' back' : List Char}
    (h : front ++ c :: back = front' ++ c :: back') (hfront : c ∉ front) (hfront' : c ∉ front') :
    front = front' ∧ back = back' := by
  induction front generalizing front' with
  | nil =>
      cases front' with
      | nil => exact ⟨rfl, (List.cons.inj h).2⟩
      | cons d front' =>
          obtain rfl : c = d := (List.cons.inj h).1
          exact absurd List.mem_cons_self hfront'
  | cons d front ih =>
      cases front' with
      | nil =>
          obtain rfl : d = c := (List.cons.inj h).1
          exact absurd List.mem_cons_self hfront
      | cons e front' =>
          obtain ⟨rfl, htail⟩ := List.cons.inj h
          obtain ⟨rfl, hback⟩ := ih htail (fun hmem => hfront (List.mem_cons_of_mem _ hmem))
            fun hmem => hfront' (List.mem_cons_of_mem _ hmem)
          exact ⟨rfl, hback⟩

/-- The last occurrence is the first one from the other end. -/
lemma split_last {c : Char} {front back front' back' : List Char}
    (h : front ++ c :: back = front' ++ c :: back') (hback : c ∉ back) (hback' : c ∉ back') :
    front = front' ∧ back = back' := by
  have hreverse : back.reverse ++ c :: front.reverse = back'.reverse ++ c :: front'.reverse := by
    simpa using congrArg List.reverse h
  obtain ⟨hb, hf⟩ := split_first hreverse (by simpa using hback) (by simpa using hback')
  exact ⟨List.reverse_injective hf, List.reverse_injective hb⟩

/-! ## Numbers in names -/

lemma toDigits_injective {m n : ℕ} (h : Nat.toDigits 10 m = Nat.toDigits 10 n) : m = n := by
  rw [← @Nat.ofDigitChars_ten_toDigits m, h, Nat.ofDigitChars_ten_toDigits]

/-- **Two numbers with an underscore between them can be read back.** -/
lemma joined_injective {a b c d : UInt64}
    (h : toString a ++ "_" ++ toString b = toString c ++ "_" ++ toString d) : a = c ∧ b = d := by
  have hlists : ∀ x y : UInt64, (toString x ++ "_" ++ toString y).toList
      = Nat.toDigits 10 x.toNat ++ '_' :: Nat.toDigits 10 y.toNat := by
    intro x y
    have hstr : ∀ z : UInt64, (toString z).toList = Nat.toDigits 10 z.toNat :=
      fun z => Nat.toList_repr
    simp [hstr]
  have hjoined := congrArg String.toList h
  rw [hlists, hlists] at hjoined
  obtain ⟨hfirst, -, hsecond⟩ := (List.append_cons_inj_of_notMem Nat.underscore_not_in_toDigits
    Nat.underscore_not_in_toDigits).mp hjoined
  exact ⟨UInt64.toNat_inj.mp (toDigits_injective hfirst),
    UInt64.toNat_inj.mp (toDigits_injective hsecond)⟩

/-- The sign of an integer, as it is written. -/
def signChars (n : ℤ) : List Char := if n < 0 then ['-'] else []

lemma toList_toString_int (n : ℤ) :
    (toString n).toList = signChars n ++ Nat.toDigits 10 n.natAbs := by
  rw [Int.toString_eq_repr, Int.repr_eq_if, signChars]
  by_cases hn : n < 0
  · have habs : (-n).toNat = n.natAbs := by omega
    rw [if_neg (by omega), if_pos hn, String.toList_append, Nat.toList_repr, habs]
    rfl
  · have habs : n.toNat = n.natAbs := by omega
    rw [if_pos (by omega), if_neg hn, Nat.toList_repr, habs, List.nil_append]

lemma notMem_toDigits {c : Char} (hc : c.isDigit = false) (n : ℕ) : c ∉ Nat.toDigits 10 n := by
  intro hmem
  have hdigit := Nat.isDigit_of_mem_toDigits (by decide) (by decide) hmem
  rw [hc] at hdigit
  cases hdigit

/-- **An integer in front of a text** shows its sign at once. -/
lemma signed_append_inj {m n : ℤ} {s t : List Char}
    (h : (toString m).toList ++ s = (toString n).toList ++ t) :
    signChars m = signChars n ∧
      Nat.toDigits 10 m.natAbs ++ s = Nat.toDigits 10 n.natAbs ++ t := by
  have hhead : ∀ (k : ℕ) (u v : List Char), Nat.toDigits 10 k ++ u ≠ '-' :: v := by
    intro k u v heq
    obtain ⟨d, ds, hdigits⟩ := List.exists_cons_of_ne_nil (@Nat.toDigits_ne_nil k 10)
    rw [hdigits, List.cons_append] at heq
    obtain rfl : d = '-' := (List.cons.inj heq).1
    exact notMem_toDigits rfl k (by rw [hdigits]; exact List.mem_cons_self)
  rw [toList_toString_int, toList_toString_int] at h
  unfold signChars at h ⊢
  by_cases hm : m < 0 <;> by_cases hn : n < 0
  · simpa [hm, hn] using h
  · simp only [hm, hn, if_true, if_false] at h
    exact absurd h.symm (hhead _ _ _)
  · simp only [hm, hn, if_true, if_false] at h
    exact absurd h (hhead _ _ _)
  · simpa [hm, hn] using h

lemma eq_of_sign_digits {m n : ℤ} (hsign : signChars m = signChars n)
    (hdigits : Nat.toDigits 10 m.natAbs = Nat.toDigits 10 n.natAbs) : m = n := by
  have habs := toDigits_injective hdigits
  unfold signChars at hsign
  split_ifs at hsign <;> omega

end Text

end Libport
