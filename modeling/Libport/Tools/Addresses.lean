import Libport.Common.Utils
import Libport.Lib.Text
import Libport.Tools.MetadataStub

/-!
# Addresses on the way to the stub (`include/utils.h`, `tools/metadata_stub.go`)

The client writes an address into a text with `utils::format_netaddr`; the stub reads it with a
regular expression, or by splitting it at the colon.  The numbers are a C++ `int` on one side and
go through `strconv.ParseInt` on the other.

* `parseInt_toString`: a number.
* `findStringSubmatch_shape`: what a text looks like in which the regular expression is found.
* `parseAddress_formatNetaddr` and `parseIP_formatNetaddrRange`: the two kinds of address.
* **`address_read_back`**: what becomes of an address that is posted and of one that is asked for.
-/

namespace Libport

namespace MetadataStub

/-! ## Numbers -/

lemma all_isDigit_toDigits (n : ℕ) : (Nat.toDigits 10 n).all Char.isDigit = true :=
  List.all_eq_true.mpr fun _ hc => Nat.isDigit_of_mem_toDigits (by decide) (by decide) hc

/-- What `parseInt` makes of the digits behind the sign. -/
lemma parseInt_digits (negative : Bool) (n : ℕ) :
    (if Nat.toDigits 10 n ≠ [] ∧ (Nat.toDigits 10 n).all Char.isDigit then
      let magnitude : ℤ := Nat.ofDigitChars 10 (Nat.toDigits 10 n) 0
      let value := if negative then -magnitude else magnitude
      if -2 ^ 31 ≤ value ∧ value < 2 ^ 31 then some value else none
    else none) = if -2 ^ 31 ≤ (if negative then -(n : ℤ) else n) ∧
        (if negative then -(n : ℤ) else n) < 2 ^ 31
      then some (if negative then -(n : ℤ) else n) else none := by
  rw [if_pos ⟨Nat.toDigits_ne_nil, all_isDigit_toDigits n⟩, Nat.ofDigitChars_ten_toDigits]

lemma parseInt_toString (n : ℤ) :
    parseInt (toString n).toList = if -2 ^ 31 ≤ n ∧ n < 2 ^ 31 then some n else none := by
  rw [Text.toList_toString_int, Text.signChars]
  by_cases hn : n < 0
  · have habs : -(n.natAbs : ℤ) = n := by omega
    rw [if_pos hn]
    refine (parseInt_digits true n.natAbs).trans ?_
    simp only [habs, if_true]
  · have habs : (n.natAbs : ℤ) = n := by omega
    rw [if_neg hn, List.nil_append]
    obtain ⟨d, rest, hdigits⟩ := List.exists_cons_of_ne_nil (@Nat.toDigits_ne_nil n.natAbs 10)
    have hd : d.isDigit = true := by
      have hall := all_isDigit_toDigits n.natAbs
      rw [hdigits, List.all_cons, Bool.and_eq_true] at hall
      exact hall.1
    have hvalue := parseInt_digits false n.natAbs
    rw [hdigits] at hvalue ⊢
    unfold parseInt
    split
    · rename_i heq
      split at heq
      · rename_i hminus
        cases hminus
        cases hd
      · rename_i hplus
        cases hplus
        cases hd
      · cases heq
        simpa only [habs, Bool.false_eq_true, if_false] using hvalue

/-! ## The pieces of the regular expression -/

/-- A nonempty run of digits. -/
def Digits (cs : List Char) : Prop := cs ≠ [] ∧ ∀ c ∈ cs, c.isDigit = true

lemma Digits.notMem {cs : List Char} (h : Digits cs) {c : Char} (hc : c.isDigit = false) :
    c ∉ cs := by
  intro hmem
  rw [h.2 c hmem] at hc
  cases hc

lemma digitRun_append {ds rest : List Char} (h : Digits ds)
    (hrest : ∀ c ∈ rest.head?, c.isDigit = false) : digitRun (ds ++ rest) = some (ds, rest) := by
  have hstop : rest.takeWhile Char.isDigit = [] ∧ rest.dropWhile Char.isDigit = rest := by
    cases rest with
    | nil => exact ⟨rfl, rfl⟩
    | cons c rest =>
        have hc := hrest c rfl
        simp [hc]
  obtain ⟨d, ds, rfl⟩ := List.exists_cons_of_ne_nil h.1
  rw [digitRun, List.takeWhile_append_of_pos h.2, List.dropWhile_append_of_pos h.2, hstop.1,
    hstop.2, List.append_nil]

lemma digitRun_eq_some {cs ds rest : List Char} (h : digitRun cs = some (ds, rest)) :
    cs = ds ++ rest ∧ Digits ds := by
  unfold digitRun at h
  split at h
  · cases h
  · rename_i hne
    cases h
    refine ⟨(List.takeWhile_append_dropWhile).symm, hne, fun c hc => ?_⟩
    exact List.all_eq_true.mp List.all_takeWhile c hc

@[simp] lemma literal_self (c : Char) (rest : List Char) : literal c (c :: rest) = some rest := by
  rw [literal, if_pos rfl]

lemma literal_eq_some {c : Char} {cs rest : List Char} (h : literal c cs = some rest) :
    cs = c :: rest := by
  cases cs with
  | nil => cases h
  | cons d cs =>
      rw [literal] at h
      split_ifs at h with hd
      cases h
      rw [hd]

/-- **What is found**: a colon, two runs of digits with a minus sign between them. -/
lemma matchHere_shape {cs lo hi : List Char} {ip : String}
    (h : matchHere cs = some (ip, lo, hi)) :
    ∃ front rest, cs = front ++ ':' :: (lo ++ '-' :: (hi ++ rest)) ∧
      Digits lo ∧ Digits hi := by
  unfold matchHere at h
  simp only [Option.bind_eq_bind, Option.bind_eq_some_iff, Prod.exists] at h
  obtain ⟨a, cs₁, ha, cs₂, h₁, b, cs₃, hb, cs₄, h₂, c, cs₅, hc, cs₆, h₃, d, cs₇, hd, cs₈, h₄, lo',
    cs₉, hlo, cs₁₀, h₅, hi', rest, hhi, heq⟩ := h
  cases heq
  obtain ⟨rfl, -⟩ := digitRun_eq_some ha
  obtain rfl := literal_eq_some h₁
  obtain ⟨rfl, -⟩ := digitRun_eq_some hb
  obtain rfl := literal_eq_some h₂
  obtain ⟨rfl, -⟩ := digitRun_eq_some hc
  obtain rfl := literal_eq_some h₃
  obtain ⟨rfl, -⟩ := digitRun_eq_some hd
  obtain rfl := literal_eq_some h₄
  obtain ⟨rfl, hlo'⟩ := digitRun_eq_some hlo
  obtain rfl := literal_eq_some h₅
  obtain ⟨rfl, hhi'⟩ := digitRun_eq_some hhi
  exact ⟨a ++ '.' :: (b ++ '.' :: (c ++ '.' :: d)), rest, by simp, hlo', hhi'⟩

lemma findStringSubmatch_shape {cs lo hi : List Char} {ip : String}
    (h : findStringSubmatch cs = some (ip, lo, hi)) :
    ∃ front rest, cs = front ++ ':' :: (lo ++ '-' :: (hi ++ rest)) ∧
      Digits lo ∧ Digits hi := by
  induction cs with
  | nil => cases h
  | cons c cs ih =>
      rw [findStringSubmatch] at h
      cases hhere : matchHere (c :: cs) with
      | some found =>
          rw [hhere, Option.orElse_some] at h
          exact matchHere_shape (hhere.trans h)
      | none =>
          rw [hhere, Option.orElse_none] at h
          obtain ⟨front, rest, hcs, hshape⟩ := ih h
          exact ⟨c :: front, rest, by rw [hcs, List.cons_append], hshape⟩

/-! ## An ip -/

lemma digits_of_isOctet {cs : List Char} (h : isOctet cs = true) : Digits cs := by
  rw [isOctet, decide_eq_true_iff] at h
  exact ⟨h.1, List.all_eq_true.mp h.2.1⟩

lemma exists_octets {ip : String} (h : isIP ip = true) :
    ∃ a b c d, ip.toList = a ++ '.' :: (b ++ '.' :: (c ++ '.' :: d)) ∧ Digits a ∧ Digits b ∧
      Digits c ∧ Digits d := by
  rw [isIP, decide_eq_true_iff] at h
  obtain ⟨hlength, hall⟩ := h
  have hjoin := @List.intercalate_splitOn Char ip.toList _ _ '.'
  match hfields : ip.toList.splitOn '.', hlength with
  | [a, b, c, d], _ =>
      rw [hfields] at hall hjoin
      simp only [List.all_cons, List.all_nil, Bool.and_true, Bool.and_eq_true] at hall
      obtain ⟨ha, hb, hc, hd⟩ := hall
      refine ⟨a, b, c, d, ?_, digits_of_isOctet ha, digits_of_isOctet hb, digits_of_isOctet hc,
        digits_of_isOctet hd⟩
      rw [← hjoin]
      simp [List.intercalate]

lemma colon_notMem {ip : String} (h : isIP ip = true) : ':' ∉ ip.toList := by
  obtain ⟨a, b, c, d, hip, ha, hb, hc, hd⟩ := exists_octets h
  rw [hip]
  simp [ha.notMem, hb.notMem, hc.notMem, hd.notMem]

lemma matchHere_address {ip : String} (hip : isIP ip = true) {lo hi : List Char} (hlo : Digits lo)
    (hhi : Digits hi) :
    matchHere (ip.toList ++ ':' :: (lo ++ '-' :: hi)) = some (ip, lo, hi) := by
  obtain ⟨a, b, c, d, heq, ha, hb, hc, hd⟩ := exists_octets hip
  have hname : String.ofList (a ++ '.' :: b ++ '.' :: c ++ '.' :: d) = ip := by
    rw [← @String.ofList_toList ip, heq]
    simp
  have hrun : ∀ {ds : List Char} (c : Char) (rest : List Char), Digits ds → c.isDigit = false →
      digitRun (ds ++ c :: rest) = some (ds, c :: rest) := by
    intro ds c rest hds hc
    exact digitRun_append hds (by simpa using hc)
  have hlast : digitRun hi = some (hi, []) := by
    simpa using @digitRun_append hi [] hhi (by simp)
  rw [heq]
  simp only [List.append_assoc, List.cons_append, matchHere, Option.bind_eq_bind,
    Option.bind_some, literal_self, hrun '.' _ ha rfl, hrun '.' _ hb rfl, hrun '.' _ hc rfl,
    hrun ':' _ hd rfl, hrun '-' _ hlo rfl, hlast]
  rw [← hname]
  simp

/-! ## Addresses -/

lemma colon_notMem_toString (n : ℤ) : ':' ∉ (toString n).toList := by
  rw [Text.toList_toString_int, List.mem_append, not_or]
  refine ⟨?_, Text.notMem_toDigits rfl _⟩
  unfold Text.signChars
  split_ifs <;> simp

/-- A number that is written with a digit in front is not negative. -/
lemma nonneg_of_digits {n : ℤ} {ds s t : List Char} (hds : Digits ds)
    (h : (toString n).toList ++ s = ds ++ t) : 0 ≤ n := by
  by_contra hn
  obtain ⟨d, ds, rfl⟩ := List.exists_cons_of_ne_nil hds.1
  rw [Text.toList_toString_int, Text.signChars, if_pos (not_le.mp hn)] at h
  obtain rfl : '-' = d := (List.cons.inj h).1
  exact absurd (hds.2 '-' List.mem_cons_self) (by decide)

/-- **An ip and a port** are read back; nothing is read where the ip is none. -/
lemma parseAddress_formatNetaddr (ip : String) {port : ℤ} (hmin : -2 ^ 31 ≤ port)
    (hmax : port < 2 ^ 31) :
    parseAddress (formatNetaddr ip port) = if isIP ip then some (ip, port) else none := by
  have hlist : (formatNetaddr ip port).toList = ip.toList ++ ':' :: (toString port).toList := by
    simp [formatNetaddr]
  have hport : (toString port).toList.splitOn ':' = [(toString port).toList] :=
    List.splitOn_eq_singleton (colon_notMem_toString port)
  rw [parseAddress, hlist, List.splitOn_append_cons_self, hport]
  by_cases hcolon : ':' ∈ ip.toList
  · have hnot : ¬ isIP ip = true := fun h => colon_notMem h hcolon
    rw [if_neg hnot]
    obtain ⟨front, back, hsplit, -⟩ := Text.exists_last_of_mem hcolon
    obtain ⟨x, xs, hx⟩ := List.exists_cons_of_ne_nil (List.splitOn_ne_nil ':' front)
    obtain ⟨y, ys, hy⟩ := List.exists_cons_of_ne_nil (List.splitOn_ne_nil ':' back)
    rw [hsplit, List.splitOn_append_cons_self, hx, hy]
    split
    · rename_i heq
      have hlength := congrArg List.length heq
      simp only [List.length_append, List.length_cons, List.length_nil] at hlength
      omega
    · rfl
  · rw [List.splitOn_eq_singleton hcolon]
    simp only [List.singleton_append, String.ofList_toList, parseInt_toString, hmin, hmax,
      and_self, if_true, Option.map_some]

/-- **An ip and a range of ports** are read back unless a number is negative. -/
lemma parseIP_formatNetaddrRange {ip : String} (hip : isIP ip = true) {lo hi : ℤ}
    (hlo : lo < 2 ^ 31) (hhi : hi < 2 ^ 31) :
    parseIP (formatNetaddrRange ip lo hi)
      = if 0 ≤ lo ∧ 0 ≤ hi then (ip, lo, hi, statusOk) else ("", 0, 0, statusBadRequest) := by
  have hlist : (formatNetaddrRange ip lo hi).toList
      = ip.toList ++ ':' :: ((toString lo).toList ++ '-' :: (toString hi).toList) := by
    simp [formatNetaddrRange]
  have hwritten : ∀ {n : ℤ}, 0 ≤ n → (toString n).toList = Nat.toDigits 10 n.natAbs := by
    intro n hn
    rw [Text.toList_toString_int, Text.signChars, if_neg (by omega), List.nil_append]
  have hdigits : ∀ {n : ℤ}, 0 ≤ n → Digits (toString n).toList := by
    intro n hn
    rw [hwritten hn]
    exact ⟨Nat.toDigits_ne_nil, List.all_eq_true.mp (all_isDigit_toDigits _)⟩
  rw [parseIP, hlist]
  split_ifs with hpos
  · obtain ⟨hlo', hhi'⟩ := hpos
    have hfound := matchHere_address hip (hdigits hlo') (hdigits hhi')
    obtain ⟨c, cs, hcs⟩ := List.exists_cons_of_ne_nil (show ip.toList ++ ':' ::
      ((toString lo).toList ++ '-' :: (toString hi).toList) ≠ [] by simp)
    rw [hcs] at hfound ⊢
    simp only [findStringSubmatch, hfound, Option.orElse_some, parseInt_toString]
    rw [if_pos ⟨by omega, hlo⟩, if_pos ⟨by omega, hhi⟩]
  · cases hfind : findStringSubmatch
        (ip.toList ++ ':' :: ((toString lo).toList ++ '-' :: (toString hi).toList)) with
    | none => rfl
    | some found =>
        refine absurd ?_ hpos
        obtain ⟨ip', lo', hi'⟩ := found
        obtain ⟨front, rest, hcs, hlo', hhi'⟩ := findStringSubmatch_shape hfind
        have hcolon : ':' ∉ (toString lo).toList ++ '-' :: (toString hi).toList := by
          rw [List.mem_append, List.mem_cons, not_or, not_or]
          exact ⟨colon_notMem_toString lo, by decide, colon_notMem_toString hi⟩
        obtain ⟨-, -, htail⟩ := (List.append_cons_inj_of_notMem (colon_notMem hip) hcolon).mp hcs
        have hlo_pos := nonneg_of_digits hlo' htail
        refine ⟨hlo_pos, ?_⟩
        obtain ⟨-, hrest⟩ := Text.split_first htail ((hdigits hlo_pos).notMem rfl)
          (Digits.notMem hlo' rfl)
        exact nonneg_of_digits (s := []) hhi' (by simpa using hrest)

/-- **An address on both sides.**  For every ip and all numbers that are an `int`, a new principal
is stored with the range that the client was given; it is refused if a number is negative, and
forgotten behind a success if the range is not one of ports.  The address of a check is read as it
was given, too. -/
theorem address_read_back (store : TestStore) (speaker name image platform ip config : String)
    (lo hi port : ℤ) (hip : isIP ip = true) (hlo : lo < 2 ^ 31) (hhi : hi < 2 ^ 31)
    (hmin : -2 ^ 31 ≤ port) (hmax : port < 2 ^ 31)
    (hfresh : store.principals.find? name = none) :
    postInstanceSet store
        (some ⟨speaker, [name, image, platform, formatNetaddrRange ip lo hi, config]⟩)
      = (if lo < 0 ∨ hi < 0 then answer statusBadRequest store
        else if lo ≤ hi ∧ hi ≤ 65535 then
          some (⟨statusOk, r#"{"message":"['"# ++ name ++ r#"']"}"#⟩,
            { store with
              principals := store.principals.insert name
                ⟨image, OrderedMap.empty.insert "config" config, ip, lo, hi⟩ })
        else answer statusOk store) ∧
      parseAddress (formatNetaddr ip port) = some (ip, port) := by
  refine ⟨?_, by rw [parseAddress_formatNetaddr ip hmin hmax, if_pos hip]⟩
  simp only [postInstanceSet, readRequest, List.getElem?_cons_zero, List.getElem?_cons_succ,
    Option.bind_eq_bind, Option.bind_some, hfresh, Option.isSome_none, Bool.false_eq_true, if_false,
    List.length_cons, List.length_nil, ne_eq, not_true_eq_false,
    parseIP_formatNetaddrRange hip hlo hhi]
  by_cases hneg : lo < 0 ∨ hi < 0
  · have hpos : ¬ (0 ≤ lo ∧ 0 ≤ hi) := by omega
    rw [if_neg hpos, if_pos hneg]
    rfl
  · have hpos : 0 ≤ lo ∧ 0 ≤ hi := by omega
    rw [if_pos hpos, if_neg hneg]
    by_cases hports : lo ≤ hi ∧ hi ≤ 65535
    · rw [if_pos hports]
      refine if_neg ?_
      rintro (hstatus | hlarge | hlarge | horder | hnot)
      · exact hstatus rfl
      · have hlarge' : 65535 < lo := hlarge
        omega
      · have hlarge' : 65535 < hi := hlarge
        omega
      · exact absurd hports.1 (not_le.mpr horder)
      · exact hnot hip
    · rw [if_neg hports]
      refine if_pos (Or.inr ?_)
      by_cases horder : lo ≤ hi
      · have hlarge : 65535 < hi := by omega
        exact Or.inr (Or.inl hlarge)
      · exact Or.inr (Or.inr (Or.inl (not_le.mp horder)))

/-- The principal of the test is stored as it was posted. -/
theorem address_read_back_p1 :
    postInstanceSet .initial
        (some ⟨"iaas", ["p1", "image1", "image", formatNetaddrRange "192.168.0.1" 1000 2000,
          "no_config"]⟩)
      = some (⟨statusOk, r#"{"message":"['p1']"}"#⟩,
          { TestStore.initial with
            principals := OrderedMap.empty.insert "p1" ⟨"image1",
              OrderedMap.empty.insert "config" "no_config", "192.168.0.1", 1000, 2000⟩ }) :=
  (address_read_back .initial "iaas" "p1" "image1" "image" "192.168.0.1" "no_config" 1000 2000 1005
    (by decide) (by decide) (by decide) (by decide) (by decide) rfl).1

end MetadataStub

end Libport
