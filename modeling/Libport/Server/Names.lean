import Libport.Server.Manager

/-!
# Names at the metadata service (`include/utils.h`, `server/manager.cc`)

The metadata service knows principals and endpoints by strings: `id_gn`, `ip:port` and
`ip:lo-hi`.  The ip may contain anything, and a port above `2 ^ 31 - 1` is written as a negative
number.

* `address_inj`: an address is cut at its last colon, since no colon is written behind it.
* `range_inj` and `port_ne_range`: behind the colon a sign and digits are followed by nothing or by
  a dash.
* **`names_unambiguous`**: each format is injective, and no two of them share a string but
  `format_id` and the `format_netaddr` of a range, which are the same.
-/

namespace Libport

/-! ## Cutting at the colon -/

/-- What is written behind the colon. -/
def portText (port : ℤ) : List Char := (toString port).toList

def rangeText (lo hi : ℤ) : List Char := (toString lo).toList ++ '-' :: (toString hi).toList

lemma toList_formatNetaddr (ip : String) (port : ℤ) :
    (formatNetaddr ip port).toList = ip.toList ++ ':' :: portText port := by
  simp [formatNetaddr, portText]

lemma toList_formatNetaddrRange (ip : String) (lo hi : ℤ) :
    (formatNetaddrRange ip lo hi).toList = ip.toList ++ ':' :: rangeText lo hi := by
  simp [formatNetaddrRange, rangeText]

lemma colon_notMem_portText (port : ℤ) : ':' ∉ portText port := by
  rw [portText, Text.toList_toString_int, List.mem_append, not_or, Text.signChars]
  refine ⟨?_, Text.notMem_toDigits rfl _⟩
  split_ifs <;> decide

lemma colon_notMem_rangeText (lo hi : ℤ) : ':' ∉ rangeText lo hi := by
  rw [rangeText, List.mem_append, List.mem_cons, not_or, not_or]
  exact ⟨colon_notMem_portText lo, by decide, colon_notMem_portText hi⟩

lemma address_inj {ip ip' : String} {text text' : List Char}
    (h : ip.toList ++ ':' :: text = ip'.toList ++ ':' :: text') (htext : ':' ∉ text)
    (htext' : ':' ∉ text') : ip = ip' ∧ text = text' := by
  obtain ⟨hip, hrest⟩ := Text.split_last h htext htext'
  exact ⟨String.toList_inj.mp hip, hrest⟩

/-! ## Behind the colon -/

lemma portText_inj {m n : ℤ} (h : portText m = portText n) : m = n := by
  have hpadded : (toString m).toList ++ [] = (toString n).toList ++ [] := by
    rw [List.append_nil, List.append_nil]
    exact h
  obtain ⟨hsign, hdigits⟩ := Text.signed_append_inj hpadded
  rw [List.append_nil, List.append_nil] at hdigits
  exact Text.eq_of_sign_digits hsign hdigits

/-- The dash that separates two numbers is the first one behind the digits of the first. -/
lemma range_inj {lo hi lo' hi' : ℤ} (h : rangeText lo hi = rangeText lo' hi') :
    lo = lo' ∧ hi = hi' := by
  obtain ⟨hsign, hdigits⟩ := Text.signed_append_inj h
  obtain ⟨hlo, hhi⟩ := Text.split_first hdigits (Text.notMem_toDigits rfl _)
    (Text.notMem_toDigits rfl _)
  exact ⟨Text.eq_of_sign_digits hsign hlo, portText_inj hhi⟩

lemma port_ne_range (port lo hi : ℤ) : portText port ≠ rangeText lo hi := by
  intro h
  have hpadded : (toString port).toList ++ [] = (toString lo).toList ++ '-' :: (toString hi).toList
    := by
    rw [List.append_nil]
    exact h
  obtain ⟨-, hdigits⟩ := Text.signed_append_inj hpadded
  rw [List.append_nil] at hdigits
  have hmem : '-' ∈ Nat.toDigits 10 port.natAbs := by
    rw [hdigits]
    simp
  exact Text.notMem_toDigits rfl _ hmem

/-! ## The formats -/

lemma formatNetaddr_inj {ip ip' : String} {port port' : ℤ}
    (h : formatNetaddr ip port = formatNetaddr ip' port') : ip = ip' ∧ port = port' := by
  have hlists := congrArg String.toList h
  rw [toList_formatNetaddr, toList_formatNetaddr] at hlists
  obtain ⟨hip, hport⟩ := address_inj hlists (colon_notMem_portText _) (colon_notMem_portText _)
  exact ⟨hip, portText_inj hport⟩

lemma formatNetaddrRange_inj {ip ip' : String} {lo hi lo' hi' : ℤ}
    (h : formatNetaddrRange ip lo hi = formatNetaddrRange ip' lo' hi') :
    ip = ip' ∧ lo = lo' ∧ hi = hi' := by
  have hlists := congrArg String.toList h
  rw [toList_formatNetaddrRange, toList_formatNetaddrRange] at hlists
  obtain ⟨hip, hrange⟩ := address_inj hlists (colon_notMem_rangeText _ _)
    (colon_notMem_rangeText _ _)
  exact ⟨hip, range_inj hrange⟩

lemma formatNetaddr_ne_range (ip ip' : String) (port lo hi : ℤ) :
    formatNetaddr ip port ≠ formatNetaddrRange ip' lo hi := by
  intro h
  have hlists := congrArg String.toList h
  rw [toList_formatNetaddr, toList_formatNetaddrRange] at hlists
  obtain ⟨-, htext⟩ := address_inj hlists (colon_notMem_portText _) (colon_notMem_rangeText _ _)
  exact port_ne_range port lo hi htext

/-- The name of a principal has no colon. -/
lemma colon_notMem_principalName (p : Principal) : ':' ∉ (Manager.principalName p).toList := by
  have hdigits : ∀ n : UInt64, (toString n).toList = Nat.toDigits 10 n.toNat :=
    fun n => Nat.toList_repr
  rw [Manager.principalName, String.toList_append, String.toList_append, hdigits, hdigits,
    List.mem_append, List.mem_append, not_or, not_or]
  exact ⟨⟨Text.notMem_toDigits rfl _, by decide⟩, Text.notMem_toDigits rfl _⟩

/-- **Names are unambiguous.** -/
theorem names_unambiguous :
    (∀ p q : Principal, Manager.principalName p = Manager.principalName q →
      p.id = q.id ∧ p.gn = q.gn) ∧
    (∀ (ip ip' : String) (lo hi lo' hi' : UInt32),
      formatId ip (asInt lo) (asInt hi) = formatId ip' (asInt lo') (asInt hi') →
        ip = ip' ∧ lo = lo' ∧ hi = hi') ∧
    (∀ (ip ip' : String) (lo hi lo' hi' : UInt32),
      formatNetaddrRange ip (asInt lo) (asInt hi) = formatNetaddrRange ip' (asInt lo') (asInt hi') →
        ip = ip' ∧ lo = lo' ∧ hi = hi') ∧
    (∀ (ip ip' : String) (port port' : ℤ),
      formatNetaddr ip port = formatNetaddr ip' port' → ip = ip' ∧ port = port') ∧
    (∀ (ip ip' : String) (port lo hi : ℤ),
      formatNetaddr ip port ≠ formatNetaddrRange ip' lo hi) ∧
    ∀ (p : Principal) (ip : String) (port lo hi : ℤ),
      Manager.principalName p ≠ formatNetaddr ip port ∧
        Manager.principalName p ≠ formatNetaddrRange ip lo hi := by
  have hrange : ∀ (ip ip' : String) (lo hi lo' hi' : UInt32),
      formatNetaddrRange ip (asInt lo) (asInt hi)
        = formatNetaddrRange ip' (asInt lo') (asInt hi') → ip = ip' ∧ lo = lo' ∧ hi = hi' := by
    intro ip ip' lo hi lo' hi' h
    obtain ⟨hip, hlo, hhi⟩ := formatNetaddrRange_inj h
    exact ⟨hip, asInt_injective hlo, asInt_injective hhi⟩
  refine ⟨fun p q h => Text.joined_injective h, hrange, hrange,
    fun _ _ _ _ h => formatNetaddr_inj h, formatNetaddr_ne_range, fun p ip port lo hi => ?_⟩
  constructor
  · intro h
    apply colon_notMem_principalName p
    rw [h, toList_formatNetaddr]
    simp
  · intro h
    apply colon_notMem_principalName p
    rw [h, toList_formatNetaddrRange]
    simp

end Libport
