import Mathlib.Tactic

/-!
# Names for addresses and principals (`include/utils.h`)

The formatters that turn addresses and port ranges into the strings the metadata service knows
them by.  Each takes `int` ports; the callers hold `uint32_t` values, and `asInt` is the
conversion that happens at the call.
-/

namespace Libport

/-- The implicit conversion of a `uint32_t` argument to an `int` parameter. -/
def asInt (n : UInt32) : ℤ := n.toInt32.toInt

def formatId (ip : String) (lo hi : ℤ) : String := ip ++ ":" ++ toString lo ++ "-" ++ toString hi

/-- `utils::format_netaddr(ip, port)`. -/
def formatNetaddr (ip : String) (port : ℤ) : String := ip ++ ":" ++ toString port

/-- `utils::format_netaddr(ip, port_min, port_max)`. -/
def formatNetaddrRange (ip : String) (portMin portMax : ℤ) : String :=
  ip ++ ":" ++ toString portMin ++ "-" ++ toString portMax

/-- `utils::format_image_source`. -/
def formatImageSource (sourceUrl sourceRev : String) : String := sourceUrl ++ "#" ++ sourceRev

/-- Below `2 ^ 31` the conversion to `int` keeps the value. -/
lemma asInt_of_lt {n : UInt32} (h : n.toNat < 2 ^ 31) : asInt n = n.toNat := by
  show n.toBitVec.toInt = (n.toBitVec.toNat : ℤ)
  exact BitVec.toInt_eq_toNat_of_lt (by show 2 * n.toNat < 2 ^ 32; omega)

/-- What is converted is an `int`. -/
lemma asInt_bounds (n : UInt32) : -2 ^ 31 ≤ asInt n ∧ asInt n < 2 ^ 31 :=
  ⟨BitVec.le_toInt n.toBitVec, BitVec.toInt_lt⟩

lemma asInt_injective : Function.Injective asInt := fun _ _ h =>
  UInt32.toBitVec_inj.mp (BitVec.toInt_inj.mp h)

end Libport
