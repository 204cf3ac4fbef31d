import Mathlib.Data.List.TakeWhile
import Mathlib.Tactic

/-!
# Digits and their values

Reading a number digit by digit in a base of at most sixteen, and its inverse, `Nat.toDigits`.

* `digitIn` is the value of a character as a digit of a base, of either case.
* `digits` are the values of the longest prefix of a text that consists of digits, and `value` is
  the number they denote.
* **`value_digits_toDigits`**: the digits of a rendered number denote it.
* `toDigits_eq_cons`: a positive number is rendered with a first digit other than `0`.
* `digits_append`: the digits end at the first character that is none; `exists_digits_append`: every
  text has such a place.
-/

namespace Libport

namespace Numeral

/-- The value of a character as a digit. -/
def digitVal (c : Char) : Option ℕ :=
  if '0' ≤ c ∧ c ≤ '9' then some (c.toNat - '0'.toNat)
  else if 'a' ≤ c ∧ c ≤ 'f' then some (c.toNat - 'a'.toNat + 10)
  else if 'A' ≤ c ∧ c ≤ 'F' then some (c.toNat - 'A'.toNat + 10)
  else none

/-- The value of a character as a digit of `base`. -/
def digitIn (base : ℕ) (c : Char) : Option ℕ := (digitVal c).filter fun d => d < base

/-- The values of the digits that a text starts with. -/
def digits (base : ℕ) : List Char → List ℕ
  | [] => []
  | c :: rest =>
      match digitIn base c with
      | some d => d :: digits base rest
      | none => []

/-- The number that digits denote, the first one being the most significant. -/
def value (base : ℕ) (ds : List ℕ) : ℕ := ds.foldl (fun n d => n * base + d) 0

variable {base : ℕ}

lemma digitVal_digitChar {d : ℕ} (h : d < 16) : digitVal d.digitChar = some d := by
  interval_cases d <;> rfl

lemma digitIn_digitChar (hbase : base ≤ 16) {d : ℕ} (h : d < base) :
    digitIn base d.digitChar = some d := by
  rw [digitIn, digitVal_digitChar (by omega)]
  simp [Option.filter, h]

lemma digits_map_digitChar (hbase : base ≤ 16) {ds : List ℕ} (h : ∀ d ∈ ds, d < base) :
    digits base (ds.map Nat.digitChar) = ds := by
  induction ds with
  | nil => rfl
  | cons d ds ih =>
      rw [List.map_cons, digits, digitIn_digitChar hbase (h d List.mem_cons_self)]
      simp only [ih fun e he => h e (List.mem_cons_of_mem _ he)]

lemma value_concat (ds : List ℕ) (d : ℕ) : value base (ds ++ [d]) = value base ds * base + d := by
  rw [value, List.foldl_append]
  rfl

/-- **A rendered number consists of digits that denote it.**  The induction is on the number, one
digit at its end at a time. -/
lemma exists_digits (hbase : 1 < base) (n : ℕ) :
    ∃ ds, Nat.toDigits base n = ds.map Nat.digitChar ∧ (∀ d ∈ ds, d < base) ∧
      value base ds = n := by
  induction n using Nat.strong_induction_on with
  | _ n ih =>
      by_cases hn : n < base
      · exact ⟨[n], Nat.toDigits_of_lt_base hn, by simpa using hn, by simp [value]⟩
      · have hdiv : n / base < n := Nat.div_lt_self (by omega) hbase
        obtain ⟨ds, hdigits, hlt, hvalue⟩ := ih _ hdiv
        have hmod : n % base < base := Nat.mod_lt n (by omega)
        refine ⟨ds ++ [n % base], ?_, ?_, ?_⟩
        · rw [Nat.toDigits_of_base_le hbase (by omega), hdigits, List.map_append]
          rfl
        · intro d hd
          rcases List.mem_append.mp hd with hd | hd
          · exact hlt d hd
          · rw [List.mem_singleton.mp hd]
            exact hmod
        · rw [value_concat, hvalue, Nat.div_add_mod']

lemma digits_toDigits_ne_nil (hbase : 1 < base) (hle : base ≤ 16) (n : ℕ) :
    digits base (Nat.toDigits base n) ≠ [] := by
  obtain ⟨ds, hdigits, hlt, -⟩ := exists_digits hbase n
  rw [hdigits, digits_map_digitChar hle hlt]
  rintro rfl
  exact Nat.toDigits_ne_nil hdigits

/-- **Reading inverts rendering.** -/
lemma value_digits_toDigits (hbase : 1 < base) (hle : base ≤ 16) (n : ℕ) :
    value base (digits base (Nat.toDigits base n)) = n := by
  obtain ⟨ds, hdigits, hlt, hvalue⟩ := exists_digits hbase n
  rw [hdigits, digits_map_digitChar hle hlt, hvalue]

/-- The first digit of a positive number is not zero. -/
lemma toDigits_eq_cons (hbase : 1 < base) {n : ℕ} (hn : 0 < n) :
    ∃ d rest, 0 < d ∧ d < base ∧ Nat.toDigits base n = Nat.digitChar d :: rest := by
  induction n using Nat.strong_induction_on with
  | _ n ih =>
      by_cases hlt : n < base
      · exact ⟨n, [], hn, hlt, Nat.toDigits_of_lt_base hlt⟩
      · have hdiv : n / base < n := Nat.div_lt_self hn hbase
        obtain ⟨d, rest, hd, hdlt, heq⟩ := ih _ hdiv (Nat.div_pos (by omega) (by omega))
        refine ⟨d, rest ++ [Nat.digitChar (n % base)], hd, hdlt, ?_⟩
        rw [Nat.toDigits_of_base_le hbase (by omega), heq, List.cons_append]

/-! ## Where the digits end -/

/-- The character is a digit of `base`. -/
def IsDigit (base : ℕ) (c : Char) : Prop := (digitIn base c).isSome = true

instance (base : ℕ) (c : Char) : Decidable (IsDigit base c) :=
  inferInstanceAs (Decidable (_ = true))

lemma digitVal_lt_ten {c : Char} {d : ℕ} (h : digitVal c = some d) (hd : d < 10) :
    '0' ≤ c ∧ c ≤ '9' := by
  unfold digitVal at h
  split_ifs at h with hdec hlow hup
  · exact hdec
  · cases h
    omega
  · cases h
    omega

lemma IsDigit.bounds {c : Char} (hle : base ≤ 10) (h : IsDigit base c) : '0' ≤ c ∧ c ≤ '9' := by
  obtain ⟨d, hd⟩ := Option.isSome_iff_exists.mp h
  obtain ⟨hval, hlt⟩ := Option.filter_eq_some_iff.mp hd
  have hlt : d < base := of_decide_eq_true hlt
  exact digitVal_lt_ten hval (by omega)

lemma digits_append {front rest : List Char} (hfront : ∀ c ∈ front, IsDigit base c)
    (hrest : ∀ c ∈ rest.head?, ¬ IsDigit base c) :
    digits base (front ++ rest) = digits base front := by
  induction front with
  | nil =>
      cases rest with
      | nil => rfl
      | cons c rest =>
          have hnone : digitIn base c = none := by
            simpa [IsDigit] using hrest c rfl
          simp only [List.nil_append, digits, hnone]
  | cons c front ih =>
      obtain ⟨hc, hfront⟩ := List.forall_mem_cons.mp hfront
      obtain ⟨d, hd⟩ := Option.isSome_iff_exists.mp hc
      rw [List.cons_append, digits, digits, hd]
      simp only [ih hfront]

lemma digits_eq_nil {cs : List Char} : digits base cs = [] ↔ ∀ c ∈ cs.head?, ¬ IsDigit base c := by
  cases cs with
  | nil => simp [digits]
  | cons c rest =>
      rw [digits]
      cases hc : digitIn base c with
      | none => simp [IsDigit, hc]
      | some d => simp [IsDigit, hc]

lemma exists_digits_append (base : ℕ) (cs : List Char) :
    ∃ front rest, cs = front ++ rest ∧ (∀ c ∈ front, IsDigit base c) ∧
      ∀ c ∈ rest.head?, ¬ IsDigit base c := by
  refine ⟨cs.takeWhile fun c => IsDigit base c, cs.dropWhile fun c => IsDigit base c,
    List.takeWhile_append_dropWhile.symm, ?_, ?_⟩
  · intro c hc
    simpa using List.mem_takeWhile_imp hc
  · intro c hc
    have hnot := List.head?_dropWhile_not (fun c => decide (IsDigit base c)) cs
    rw [Option.mem_def.mp hc] at hnot
    simpa using hnot

end Numeral

end Libport
