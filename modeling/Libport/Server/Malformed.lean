import Libport.Server.Serialization

/-!
# Malformed numbers (`include/utils.h`, `server/serialization.cc`)

`utils::atoi` lets the stream throw when it finds no number, or one that does not fit.  It does not
look at what the stream skipped in front of the number, nor at what it left behind it.

* `IsNumeral` is a decimal, octal or hexadecimal numeral, and `FindsNumber` a text in which the
  stream finds one that fits.
* `atoi_isSome_iff`: these are the texts that are accepted.
* **`malformed_iff`**: a field is treated as it should be if and only if it is a numeral, or no
  number is found in it; and so is a saved principal, field by field.
-/

namespace Libport

/-! ## Numerals -/

/-- The text is a numeral of a base that its prefix shows, with the given value. -/
inductive IsNumeral : ℕ → List Char → ℕ → Prop
  | decimal {c : Char} {ds : List Char} (hc : c ≠ '0')
      (h : ∀ d ∈ c :: ds, Numeral.IsDigit 10 d) :
      IsNumeral 10 (c :: ds) (Numeral.value 10 (Numeral.digits 10 (c :: ds)))
  | octal {ds : List Char} (h : ∀ d ∈ ds, Numeral.IsDigit 8 d) :
      IsNumeral 8 ('0' :: ds) (Numeral.value 8 (Numeral.digits 8 ('0' :: ds)))
  | hexadecimal {x : Char} {ds : List Char} (hx : x = 'x' ∨ x = 'X') (hne : ds ≠ [])
      (h : ∀ d ∈ ds, Numeral.IsDigit 16 d) :
      IsNumeral 16 ('0' :: x :: ds) (Numeral.value 16 (Numeral.digits 16 ds))

/-- The numeral does not go on in the text behind it; a lone `0` is not followed by the `x` of a
hexadecimal one. -/
def Ends (base : ℕ) (numeral rest : List Char) : Prop :=
  ∀ c ∈ rest.head?, ¬ Numeral.IsDigit base c ∧ (numeral = ['0'] → c ≠ 'x' ∧ c ≠ 'X')

/-- Behind white space and at most one sign the text starts with a numeral that fits. -/
def FindsNumber (bits : ℕ) (cs : List Char) : Prop :=
  ∃ space sign base numeral rest v, cs = space ++ (sign ++ (numeral ++ rest)) ∧
    (∀ c ∈ space, isSpace c = true) ∧ (sign = [] ∨ sign = ['-'] ∨ sign = ['+']) ∧
    IsNumeral base numeral v ∧ Ends base numeral rest ∧ v < 2 ^ bits

lemma IsNumeral.head {base v : ℕ} {numeral : List Char} (h : IsNumeral base numeral v) :
    ∃ c cs, numeral = c :: cs ∧ '0' ≤ c ∧ c ≤ '9' := by
  cases h with
  | decimal hc h => exact ⟨_, _, rfl, (h _ List.mem_cons_self).bounds le_rfl⟩
  | octal h => exact ⟨_, _, rfl, by decide, by decide⟩
  | hexadecimal hx hne h => exact ⟨_, _, rfl, by decide, by decide⟩

/-! ## The number found in a text without a sign -/

lemma number_eq_some {base v : ℕ} {cs : List Char} :
    number base cs = some v ↔ ∃ front rest, cs = front ++ rest ∧ front ≠ [] ∧
      (∀ c ∈ front, Numeral.IsDigit base c) ∧ (∀ c ∈ rest.head?, ¬ Numeral.IsDigit base c) ∧
      v = Numeral.value base (Numeral.digits base front) := by
  constructor
  · intro h
    obtain ⟨front, rest, rfl, hfront, hrest⟩ := Numeral.exists_digits_append base cs
    rw [number, Numeral.digits_append hfront hrest] at h
    split_ifs at h with hnil
    refine ⟨front, rest, rfl, ?_, hfront, hrest, (Option.some.inj h).symm⟩
    rintro rfl
    exact hnil rfl
  · rintro ⟨front, rest, rfl, hne, hfront, hrest, rfl⟩
    have hdigits : Numeral.digits base front ≠ [] := by
      intro hnil
      obtain ⟨c, cs, rfl⟩ := List.exists_cons_of_ne_nil hne
      exact Numeral.digits_eq_nil.mp hnil c rfl (hfront c List.mem_cons_self)
    rw [number, Numeral.digits_append hfront hrest, if_neg hdigits]

lemma magnitude_of_ne_zero {c : Char} (hc : c ≠ '0') (cs : List Char) :
    magnitude (c :: cs) = number 10 (c :: cs) := by
  unfold magnitude
  split
  · rename_i h
    exact absurd (List.cons.inj h).1 hc
  · rename_i h
    exact absurd (List.cons.inj h).1 hc
  · rfl

lemma magnitude_hexadecimal {x : Char} (hx : x = 'x' ∨ x = 'X') (cs : List Char) :
    magnitude ('0' :: x :: cs) = number 16 cs := by
  rw [magnitude, if_pos hx]

lemma magnitude_octal {cs : List Char} (hx : ∀ c ∈ cs.head?, ¬ (c = 'x' ∨ c = 'X')) :
    magnitude ('0' :: cs) = number 8 ('0' :: cs) := by
  cases cs with
  | nil => rfl
  | cons c rest => rw [magnitude, if_neg (hx c rfl)]

/-- An octal digit is not the letter of a hexadecimal prefix. -/
lemma not_x_of_isDigit {c : Char} (h : Numeral.IsDigit 8 c) : ¬ (c = 'x' ∨ c = 'X') := by
  rintro (rfl | rfl)
  · exact absurd (h.bounds (by decide)).2 (by decide)
  · exact absurd (h.bounds (by decide)).2 (by decide)

lemma IsNumeral.magnitude {base v : ℕ} {numeral rest : List Char} (h : IsNumeral base numeral v)
    (hends : Ends base numeral rest) : magnitude (numeral ++ rest) = some v := by
  have hrest : ∀ c ∈ rest.head?, ¬ Numeral.IsDigit base c := fun c hc => (hends c hc).1
  cases h with
  | decimal hc h =>
      rw [List.cons_append, magnitude_of_ne_zero hc, number_eq_some]
      exact ⟨_, rest, rfl, List.cons_ne_nil _ _, h, hrest, rfl⟩
  | @octal ds h =>
      have hzero : ∀ d ∈ '0' :: ds, Numeral.IsDigit 8 d :=
        List.forall_mem_cons.mpr ⟨by decide, h⟩
      have hx : ∀ c ∈ (ds ++ rest).head?, ¬ (c = 'x' ∨ c = 'X') := by
        intro c hc
        cases ds with
        | nil => exact not_or.mpr ((hends c hc).2 rfl)
        | cons d ds =>
            obtain rfl : d = c := by simpa using hc
            exact not_x_of_isDigit (h d List.mem_cons_self)
      rw [List.cons_append, magnitude_octal hx, number_eq_some]
      exact ⟨_, rest, rfl, List.cons_ne_nil _ _, hzero, hrest, rfl⟩
  | hexadecimal hx hne h =>
      rw [List.cons_append, List.cons_append, magnitude_hexadecimal hx, number_eq_some]
      exact ⟨_, rest, rfl, hne, h, hrest, rfl⟩

/-- **The number found is that of the longest numeral that the text starts with.** -/
lemma magnitude_eq_some {cs : List Char} {v : ℕ} :
    magnitude cs = some v ↔ ∃ base numeral rest, cs = numeral ++ rest ∧
      IsNumeral base numeral v ∧ Ends base numeral rest := by
  constructor
  · intro h
    cases cs with
    | nil => cases h
    | cons c cs =>
        by_cases hc : c = '0'
        · subst hc
          by_cases hhex : ∃ x ds, cs = x :: ds ∧ (x = 'x' ∨ x = 'X')
          · obtain ⟨x, ds, rfl, hx⟩ := hhex
            rw [magnitude_hexadecimal hx] at h
            obtain ⟨front, rest, rfl, hne, hfront, hrest, rfl⟩ := number_eq_some.mp h
            refine ⟨16, '0' :: x :: front, rest, rfl, .hexadecimal hx hne hfront, ?_⟩
            exact fun d hd => ⟨hrest d hd, fun hzero => by simp at hzero⟩
          · have hx : ∀ d ∈ cs.head?, ¬ (d = 'x' ∨ d = 'X') := by
              intro d hd hx
              obtain ⟨ds, rfl⟩ := List.head?_eq_some_iff.mp hd
              exact hhex ⟨d, ds, rfl, hx⟩
            rw [magnitude_octal hx] at h
            obtain ⟨front, rest, hsplit, hne, hfront, hrest, rfl⟩ := number_eq_some.mp h
            obtain ⟨d, ds, rfl⟩ := List.exists_cons_of_ne_nil hne
            obtain ⟨rfl, rfl⟩ := List.cons.inj hsplit
            refine ⟨8, '0' :: ds, rest, rfl,
              .octal fun d hd => hfront d (List.mem_cons_of_mem _ hd), fun d hd => ⟨hrest d hd, ?_⟩⟩
            intro hzero
            obtain rfl : ds = [] := (List.cons.inj hzero).2
            exact not_or.mp (hx d hd)
        · rw [magnitude_of_ne_zero hc] at h
          obtain ⟨front, rest, hsplit, hne, hfront, hrest, rfl⟩ := number_eq_some.mp h
          obtain ⟨d, ds, rfl⟩ := List.exists_cons_of_ne_nil hne
          obtain ⟨rfl, rfl⟩ := List.cons.inj hsplit
          refine ⟨10, c :: ds, rest, rfl, .decimal hc hfront, fun d hd => ⟨hrest d hd, ?_⟩⟩
          intro hzero
          exact absurd (List.cons.inj hzero).1 hc
  · rintro ⟨base, numeral, rest, rfl, hnumeral, hends⟩
    exact hnumeral.magnitude hends

/-! ## The number found in a field -/

lemma atoi_eq_some {bits v : ℕ} {s : String} :
    atoi bits s = some v ↔ ∃ n, magnitude (splitSign (s.toList.dropWhile isSpace)).2 = some n ∧
      n < 2 ^ bits ∧
      v = if (splitSign (s.toList.dropWhile isSpace)).1 then (2 ^ bits - n) % 2 ^ bits else n := by
  unfold atoi
  generalize splitSign (s.toList.dropWhile isSpace) = signed
  obtain ⟨negative, cs⟩ := signed
  simp only
  cases magnitude cs with
  | none => simp
  | some n =>
      by_cases hfits : n < 2 ^ bits
      · simp [hfits, Nat.not_le.mpr hfits, eq_comm]
      · simp [hfits, Nat.not_lt.mp hfits]

lemma exists_splitSign (cs : List Char) :
    ∃ sign, cs = sign ++ (splitSign cs).2 ∧ (sign = [] ∨ sign = ['-'] ∨ sign = ['+']) := by
  unfold splitSign
  split
  · exact ⟨['-'], rfl, Or.inr (Or.inl rfl)⟩
  · exact ⟨['+'], rfl, Or.inr (Or.inr rfl)⟩
  · exact ⟨[], rfl, Or.inl rfl⟩

/-- A digit is neither a sign nor white space. -/
lemma not_skipped_of_digit {c : Char} (hlow : '0' ≤ c) (hhigh : c ≤ '9') :
    c ≠ '-' ∧ c ≠ '+' ∧ isSpace c = false := by
  have h48 : 48 ≤ c.toNat := hlow
  refine ⟨?_, ?_, ?_⟩
  · rintro rfl
    exact absurd hlow (by decide)
  · rintro rfl
    exact absurd hlow (by decide)
  · rw [isSpace, decide_eq_false_iff_not]
    omega

lemma splitSign_digit {c : Char} (hlow : '0' ≤ c) (hhigh : c ≤ '9') (cs : List Char) :
    splitSign (c :: cs) = (false, c :: cs) := by
  obtain ⟨hminus, hplus, -⟩ := not_skipped_of_digit hlow hhigh
  unfold splitSign
  split
  · rename_i h
    exact absurd (List.cons.inj h).1 hminus
  · rename_i h
    exact absurd (List.cons.inj h).1 hplus
  · rfl

/-- White space and a sign are skipped in front of a numeral. -/
lemma splitSign_numeral {base v : ℕ} {space sign numeral rest : List Char}
    (hspace : ∀ c ∈ space, isSpace c = true) (hsign : sign = [] ∨ sign = ['-'] ∨ sign = ['+'])
    (h : IsNumeral base numeral v) :
    splitSign ((space ++ (sign ++ (numeral ++ rest))).dropWhile isSpace)
      = (decide (sign = ['-']), numeral ++ rest) := by
  obtain ⟨c, cs, rfl, hlow, hhigh⟩ := h.head
  obtain ⟨-, -, hc⟩ := not_skipped_of_digit hlow hhigh
  rw [List.dropWhile_append_of_pos hspace]
  rcases hsign with rfl | rfl | rfl
  · rw [List.nil_append, List.cons_append, List.dropWhile_cons_of_neg (by simp [hc]),
      splitSign_digit hlow hhigh]
    rfl
  · rfl
  · rfl

/-- **Which fields are accepted.** -/
lemma atoi_isSome_iff {bits : ℕ} {s : String} :
    (∃ v, atoi bits s = some v) ↔ FindsNumber bits s.toList := by
  constructor
  · rintro ⟨v, h⟩
    obtain ⟨n, hmagnitude, hfits, -⟩ := atoi_eq_some.mp h
    obtain ⟨base, numeral, rest, hsplit, hnumeral, hends⟩ := magnitude_eq_some.mp hmagnitude
    obtain ⟨sign, hsign, hkind⟩ := exists_splitSign (s.toList.dropWhile isSpace)
    refine ⟨s.toList.takeWhile isSpace, sign, base, numeral, rest, n, ?_, ?_, hkind, hnumeral,
      hends, hfits⟩
    · rw [← hsplit, ← hsign, List.takeWhile_append_dropWhile]
    · exact fun c hc => List.mem_takeWhile_imp hc
  · rintro ⟨space, sign, base, numeral, rest, n, hs, hspace, hsign, hnumeral, hends, hfits⟩
    refine ⟨_, atoi_eq_some.mpr ⟨n, ?_, hfits, rfl⟩⟩
    rw [hs, splitSign_numeral hspace hsign hnumeral]
    exact hnumeral.magnitude hends

/-- A numeral is read as its value, or refused because it does not fit. -/
lemma atoi_of_isNumeral {base bits n : ℕ} {s : String} (h : IsNumeral base s.toList n) {v : ℕ} :
    atoi bits s = some v ↔ n < 2 ^ bits ∧ v = n := by
  have hsplit : splitSign (s.toList.dropWhile isSpace) = (false, s.toList) := by
    have hnone := @splitSign_numeral base n [] [] s.toList [] (by simp) (Or.inl rfl) h
    simpa using hnone
  have hmagnitude : magnitude s.toList = some n := by
    have hends : Ends base s.toList [] := fun c hc => by simp at hc
    simpa using h.magnitude hends
  rw [atoi_eq_some, hsplit]
  simp [hmagnitude]

/-- The field is accepted only as the numeral that it is. -/
def AcceptsNumerals (bits : ℕ) (s : String) : Prop :=
  ∀ v, atoi bits s = some v → (∃ base, IsNumeral base s.toList v) ∧ v < 2 ^ bits

lemma acceptsNumerals_iff (bits : ℕ) (s : String) :
    AcceptsNumerals bits s ↔
      (∃ base v, IsNumeral base s.toList v) ∨ ¬ FindsNumber bits s.toList := by
  constructor
  · intro h
    by_cases hfinds : FindsNumber bits s.toList
    · obtain ⟨v, hv⟩ := atoi_isSome_iff.mpr hfinds
      obtain ⟨⟨base, hnumeral⟩, -⟩ := h v hv
      exact Or.inl ⟨base, v, hnumeral⟩
    · exact Or.inr hfinds
  · rintro (⟨base, n, hnumeral⟩ | hfinds) v hv
    · obtain ⟨hfits, rfl⟩ := (atoi_of_isNumeral hnumeral).mp hv
      exact ⟨⟨base, hnumeral⟩, hfits⟩
    · exact absurd (atoi_isSome_iff.mp ⟨v, hv⟩) hfinds

namespace Latte

/-! ## Saved principals -/

/-- The field is a numeral. -/
def FieldIsNumeral (p : Json) (key : String) : Prop :=
  ∃ s base v, p.stringField key = .ok s ∧ IsNumeral base s.toList v

/-- A number that fits is found in the field. -/
def FieldFindsNumber (bits : ℕ) (p : Json) (key : String) : Prop :=
  ∃ s, p.stringField key = .ok s ∧ FindsNumber bits s.toList

/-- A number is found in every number field, and every other field is a string. -/
def Loads (p : Json) : Prop :=
  (FieldFindsNumber 64 p "id" ∧ FieldFindsNumber 32 p "lo" ∧ FieldFindsNumber 32 p "hi") ∧
    ∀ key ∈ ["image", "configs", "bearer"], ∃ s, p.stringField key = .ok s

/-- The field is a numeral of the value that was restored. -/
def FieldDenotes (p : Json) (key : String) (n : ℕ) : Prop :=
  ∃ s base, p.stringField key = .ok s ∧ IsNumeral base s.toList n

/-- A principal is restored only from number fields that are numerals of its numbers. -/
def RestoresNumerals (p : Json) : Prop :=
  ∀ q, Principal.fromJson p = .ok q → FieldDenotes p "id" q.id.toNat ∧
    FieldDenotes p "lo" q.lo.toNat ∧ FieldDenotes p "hi" q.hi.toNat

lemma numberField_eq_ok {bits n : ℕ} {p : Json} {key : String} :
    numberField bits p key = .ok n ↔ ∃ s, p.stringField key = .ok s ∧ atoi bits s = some n := by
  unfold numberField
  cases p.stringField key with
  | error e => simp
  | ok s =>
      simp only [Except.ok.injEq, exists_eq_left']
      cases atoi bits s with
      | none => simp
      | some m => simp

lemma fieldFindsNumber_iff {bits : ℕ} {p : Json} {key : String} :
    FieldFindsNumber bits p key ↔ ∃ n, numberField bits p key = .ok n := by
  simp only [FieldFindsNumber, numberField_eq_ok, ← atoi_isSome_iff]
  constructor
  · rintro ⟨s, hs, n, hn⟩
    exact ⟨n, s, hs, hn⟩
  · rintro ⟨n, s, hs, hn⟩
    exact ⟨s, hs, n, hn⟩

lemma atoi_lt {bits n : ℕ} {s : String} (h : atoi bits s = some n) : n < 2 ^ bits := by
  obtain ⟨m, -, hm, rfl⟩ := atoi_eq_some.mp h
  split_ifs
  · exact Nat.mod_lt _ (Nat.two_pow_pos bits)
  · exact hm

lemma numberField_lt {bits n : ℕ} {p : Json} {key : String}
    (h : numberField bits p key = .ok n) : n < 2 ^ bits := by
  obtain ⟨s, -, hs⟩ := numberField_eq_ok.mp h
  exact atoi_lt hs

lemma bind_eq_ok {α β : Type} {m : Except Exc α} {k : α → Except Exc β} {b : β}
    (h : (m >>= k) = .ok b) : ∃ a, m = .ok a ∧ k a = .ok b := by
  cases m with
  | error e => cases h
  | ok a => exact ⟨a, rfl, h⟩

/-- The numbers restored are those found. -/
lemma fromJson_eq_ok {p : Json} {q : Principal} :
    Principal.fromJson p = .ok q ↔
      (numberField 64 p "id" = .ok q.id.toNat ∧ numberField 32 p "lo" = .ok q.lo.toNat ∧
        numberField 32 p "hi" = .ok q.hi.toNat) ∧
      p.stringField "image" = .ok q.image ∧ p.stringField "configs" = .ok q.configs ∧
      p.stringField "bearer" = .ok q.bearer := by
  have hport : ∀ n : ℕ, (UInt32.ofNat n).toInt32.toUInt32 = UInt32.ofNat n := by simp
  constructor
  · intro h
    obtain ⟨id, hid, h⟩ := bind_eq_ok h
    obtain ⟨lo, hlo, h⟩ := bind_eq_ok h
    obtain ⟨hi, hhi, h⟩ := bind_eq_ok h
    obtain ⟨image, himage, h⟩ := bind_eq_ok h
    obtain ⟨configs, hconfigs, h⟩ := bind_eq_ok h
    obtain ⟨bearer, hbearer, h⟩ := bind_eq_ok h
    cases h
    have hidval : (UInt64.ofNat id).toNat = id := UInt64.toNat_ofNat_of_lt' (numberField_lt hid)
    have hloval : (UInt32.ofNat lo).toNat = lo := UInt32.toNat_ofNat_of_lt' (numberField_lt hlo)
    have hhival : (UInt32.ofNat hi).toNat = hi := UInt32.toNat_ofNat_of_lt' (numberField_lt hhi)
    simp only [Principal.new, hport, hidval, hloval, hhival]
    exact ⟨⟨hid, hlo, hhi⟩, himage, hconfigs, hbearer⟩
  · rintro ⟨⟨hid, hlo, hhi⟩, himage, hconfigs, hbearer⟩
    rw [Principal.fromJson, hid, hlo, hhi, himage, hconfigs, hbearer]
    have hnew : Principal.new (UInt64.ofNat q.id.toNat) (UInt32.ofNat q.lo.toNat).toInt32
        (UInt32.ofNat q.hi.toNat).toInt32 q.image q.configs q.bearer = q := by
      rw [Principal.new, hport, hport, UInt64.ofNat_toNat, UInt32.ofNat_toNat, UInt32.ofNat_toNat]
    exact congrArg Except.ok hnew

/-- A principal is restored when a number is found in every number field. -/
lemma fromJson_isOk_iff {p : Json} : (∃ q, Principal.fromJson p = .ok q) ↔ Loads p := by
  simp only [Loads, fieldFindsNumber_iff]
  constructor
  · rintro ⟨q, h⟩
    obtain ⟨⟨hid, hlo, hhi⟩, himage, hconfigs, hbearer⟩ := fromJson_eq_ok.mp h
    refine ⟨⟨⟨_, hid⟩, ⟨_, hlo⟩, ⟨_, hhi⟩⟩, fun key hkey => ?_⟩
    simp only [List.mem_cons, List.not_mem_nil, or_false] at hkey
    rcases hkey with rfl | rfl | rfl
    · exact ⟨_, himage⟩
    · exact ⟨_, hconfigs⟩
    · exact ⟨_, hbearer⟩
  · rintro ⟨⟨⟨id, hid⟩, ⟨lo, hlo⟩, ⟨hi, hhi⟩⟩, htext⟩
    obtain ⟨image, himage⟩ := htext "image" (by simp)
    obtain ⟨configs, hconfigs⟩ := htext "configs" (by simp)
    obtain ⟨bearer, hbearer⟩ := htext "bearer" (by simp)
    refine ⟨⟨UInt64.ofNat id, UInt32.ofNat lo, UInt32.ofNat hi, image, configs, bearer⟩,
      fromJson_eq_ok.mpr ⟨⟨?_, ?_, ?_⟩, himage, hconfigs, hbearer⟩⟩
    · rw [hid, UInt64.toNat_ofNat_of_lt' (numberField_lt hid)]
    · rw [hlo, UInt32.toNat_ofNat_of_lt' (numberField_lt hlo)]
    · rw [hhi, UInt32.toNat_ofNat_of_lt' (numberField_lt hhi)]

/-- A number read from a numeral is the value of the numeral. -/
lemma fieldDenotes_of_isNumeral {bits n : ℕ} {p : Json} {key : String}
    (hkey : FieldIsNumeral p key) (hread : numberField bits p key = .ok n) :
    FieldDenotes p key n := by
  obtain ⟨s, base, v, hs, hnumeral⟩ := hkey
  obtain ⟨t, ht, hatoi⟩ := numberField_eq_ok.mp hread
  rw [hs] at ht
  cases ht
  obtain ⟨-, rfl⟩ := (atoi_of_isNumeral hnumeral).mp hatoi
  exact ⟨s, base, hs, hnumeral⟩

lemma FieldDenotes.isNumeral {n : ℕ} {p : Json} {key : String} (h : FieldDenotes p key n) :
    FieldIsNumeral p key := by
  obtain ⟨s, base, hs, hnumeral⟩ := h
  exact ⟨s, base, n, hs, hnumeral⟩

lemma restoresNumerals_iff (p : Json) :
    RestoresNumerals p ↔
      (FieldIsNumeral p "id" ∧ FieldIsNumeral p "lo" ∧ FieldIsNumeral p "hi") ∨ ¬ Loads p := by
  constructor
  · intro h
    by_cases hloads : Loads p
    · obtain ⟨q, hq⟩ := fromJson_isOk_iff.mpr hloads
      obtain ⟨hid, hlo, hhi⟩ := h q hq
      exact Or.inl ⟨hid.isNumeral, hlo.isNumeral, hhi.isNumeral⟩
    · exact Or.inr hloads
  · rintro (⟨hid, hlo, hhi⟩ | hloads) q hq
    · obtain ⟨⟨hreadId, hreadLo, hreadHi⟩, -⟩ := fromJson_eq_ok.mp hq
      exact ⟨fieldDenotes_of_isNumeral hid hreadId, fieldDenotes_of_isNumeral hlo hreadLo,
        fieldDenotes_of_isNumeral hhi hreadHi⟩
    · exact absurd (fromJson_isOk_iff.mp ⟨q, hq⟩) hloads

/-- **When malformed numbers are rejected.**  A field is accepted as the numeral that it is and
nothing else is accepted, if and only if it is a numeral or no number is found in it; a numeral is
accepted if and only if it fits.  For a saved principal the same holds of its three numbers, where
it has all its fields. -/
theorem malformed_iff (bits : ℕ) (s : String) (p : Json) :
    (AcceptsNumerals bits s ↔
        (∃ base v, IsNumeral base s.toList v) ∨ ¬ FindsNumber bits s.toList) ∧
      (∀ base n, IsNumeral base s.toList n → ((∃ v, atoi bits s = some v) ↔ n < 2 ^ bits)) ∧
      (RestoresNumerals p ↔
        (FieldIsNumeral p "id" ∧ FieldIsNumeral p "lo" ∧ FieldIsNumeral p "hi") ∨ ¬ Loads p) := by
  refine ⟨acceptsNumerals_iff bits s, fun base n h => ?_, restoresNumerals_iff p⟩
  simp [atoi_of_isNumeral h]

/-- A principal whose id has a letter too many. -/
def damaged : Json := .object
  [("id", .string "0x123g"), ("lo", .string "100"), ("hi", .string "200"),
    ("image", .string "image_hash"), ("configs", .string "misc"), ("bearer", .string "b2")]

/-- A text behind the number, a sign and white space are all accepted, and a damaged principal is
restored. -/
theorem malformed_accepted :
    atoi 64 "123abc" = some 123 ∧ (¬ ∃ base v, IsNumeral base "123abc".toList v) ∧
      atoi 32 "-1" = some 4294967295 ∧ atoi 32 " 7" = some 7 ∧ ¬ AcceptsNumerals 64 "123abc" ∧
      Principal.fromJson damaged = .ok ⟨0x123, 100, 200, "image_hash", "misc", "b2"⟩ := by
  have hatoi : atoi 64 "123abc" = some 123 := by decide
  have hnot : ¬ ∃ base v, IsNumeral base "123abc".toList v := by
    rintro ⟨base, v, h⟩
    have hs : "123abc".toList = ['1', '2', '3', 'a', 'b', 'c'] := rfl
    rw [hs] at h
    cases h with
    | decimal hc h => exact absurd (h 'a' (by simp)) (by decide)
  refine ⟨hatoi, hnot, by decide, by decide, fun h => ?_, by decide⟩
  obtain ⟨⟨base, hnumeral⟩, -⟩ := h 123 hatoi
  exact hnot ⟨base, 123, hnumeral⟩

end Latte

end Libport
