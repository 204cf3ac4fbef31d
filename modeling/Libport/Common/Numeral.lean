import Libport.Common.Utils
import Libport.Lib.Numeral

/-!
# Numbers and strings (`include/utils.h`)

`utils::itoa` writes an unsigned number through a string stream, in decimal or in hexadecimal with
its base shown.  `utils::atoi` reads one back and lets the stream guess the base.

* `itoa`: a zero is written without the `0x` of the hexadecimal numbers.
* `magnitude`: the extraction of `libstdc++` with no base set, a leading `0x` announces hexadecimal
  and any other leading `0` octal digits.
* `atoi`: leading white space and one sign are accepted, whatever follows the number is not looked
  at, and a number that does not fit the type is a failure.
* **`atoi_itoa`**: a number that fits is read back from either rendering.
-/

namespace Libport

/-- `DecType` and `HexType`. -/
inductive BaseType
  | decType
  | hexType
deriving DecidableEq

/-- `utils::itoa`; `std::showbase` has no effect on a decimal number or on zero. -/
def itoa : BaseType → ℕ → String
  | .decType, i => toString i
  | .hexType, i => if i = 0 then "0" else "0x" ++ String.ofList (Nat.toDigits 16 i)

/-! ## Extraction from a stream -/

/-- `isspace` in the C locale. -/
def isSpace (c : Char) : Bool := c.toNat = 32 ∨ 9 ≤ c.toNat ∧ c.toNat ≤ 13

/-- Whether there is a minus sign, and the text behind the sign. -/
def splitSign : List Char → Bool × List Char
  | '-' :: rest => (true, rest)
  | '+' :: rest => (false, rest)
  | cs => (false, cs)

/-- The digits of a base that a text starts with; it is a failure if there are none. -/
def number (base : ℕ) (cs : List Char) : Option ℕ :=
  if Numeral.digits base cs = [] then none
  else some (Numeral.value base (Numeral.digits base cs))

/-- The number that a text without a sign starts with, in the base that the text suggests. -/
def magnitude : List Char → Option ℕ
  | '0' :: c :: rest =>
      if c = 'x' ∨ c = 'X' then number 16 rest
      -- the `0` itself is an octal digit
      else number 8 ('0' :: c :: rest)
  | ['0'] => some 0
  | cs => number 10 cs

/-- `utils::atoi` for an unsigned type of `bits` bits; none when the stream throws. -/
def atoi (bits : ℕ) (s : String) : Option ℕ :=
  let (negative, cs) := splitSign (s.toList.dropWhile isSpace)
  match magnitude cs with
  | some v =>
      if 2 ^ bits ≤ v then none
      else some (if negative then (2 ^ bits - v) % 2 ^ bits else v)
  | none => none

/-! ## Reading what was written -/

lemma number_toDigits {base : ℕ} (hbase : 1 < base) (hle : base ≤ 16) (n : ℕ) :
    number base (Nat.toDigits base n) = some n := by
  rw [number, if_neg (Numeral.digits_toDigits_ne_nil hbase hle n),
    Numeral.value_digits_toDigits hbase hle]

/-- A decimal digit other than `0` announces nothing. -/
lemma magnitude_digitChar {d : ℕ} (hpos : 0 < d) (hlt : d < 10) (rest : List Char) :
    magnitude (Nat.digitChar d :: rest) = number 10 (Nat.digitChar d :: rest) := by
  have hne : Nat.digitChar d ≠ '0' := by
    rw [ne_eq, Nat.digitChar_eq_zero]
    omega
  unfold magnitude
  split
  · rename_i h
    exact absurd (List.cons.inj h).1 hne
  · rename_i h
    exact absurd (List.cons.inj h).1 hne
  · rfl

/-- A text that starts with a digit is read without skipping anything. -/
lemma atoi_of_digitChar {bits d : ℕ} (hd : d < 10) {s : String} {rest : List Char}
    (hs : s.toList = Nat.digitChar d :: rest) {n : ℕ}
    (hn : magnitude (Nat.digitChar d :: rest) = some n) (hfits : n < 2 ^ bits) :
    atoi bits s = some n := by
  have hspace : isSpace (Nat.digitChar d) = false := by
    interval_cases d <;> rfl
  have hsign : splitSign (Nat.digitChar d :: rest) = (false, Nat.digitChar d :: rest) := by
    interval_cases d <;> rfl
  rw [atoi, hs, List.dropWhile_cons_of_neg (by simp [hspace]), hsign]
  simp only [hn, Nat.not_le.mpr hfits, if_false, Bool.false_eq_true]

/-- **Reading inverts writing**, in either base. -/
lemma atoi_itoa (base : BaseType) {bits n : ℕ} (h : n < 2 ^ bits) :
    atoi bits (itoa base n) = some n := by
  rcases Nat.eq_zero_or_pos n with rfl | hpos
  · have hzero : (itoa base 0).toList = [Nat.digitChar 0] := by cases base <;> rfl
    exact atoi_of_digitChar (by decide) hzero rfl h
  · cases base with
    | decType =>
        obtain ⟨d, rest, hd, hlt, hdigits⟩ :=
          Numeral.toDigits_eq_cons (show 1 < 10 by decide) hpos
        have hs : (itoa .decType n).toList = Nat.digitChar d :: rest := by
          rw [← hdigits]
          exact Nat.toList_repr
        refine atoi_of_digitChar hlt hs ?_ h
        rw [magnitude_digitChar hd hlt, ← hdigits]
        exact number_toDigits (by decide) (by decide) n
    | hexType =>
        have hs : (itoa .hexType n).toList = Nat.digitChar 0 :: 'x' :: Nat.toDigits 16 n := by
          rw [itoa, if_neg hpos.ne', String.toList_append,
            @String.toList_ofList (Nat.toDigits 16 n)]
          rfl
        refine atoi_of_digitChar (by decide) hs ?_ h
        exact number_toDigits (by decide) (by decide) n

end Libport
