import Mathlib.Tactic

/-!
# Bytes on the wire and in buffers

* `le32` and `readLe32` are the little-endian encoding of a 32-bit word and its decoding;
  **`readLe32_le32`** is the round trip.
* `FixedBuffer n` is an array of `n` bytes: overwriting a prefix keeps its size by construction,
  and `take_overwrite` reads back what was stored.
-/

namespace Libport

/-! ## Little-endian words -/

/-- The four bytes of `n`, least significant first. -/
def le32 (n : UInt32) : List UInt8 :=
  [UInt8.ofNat n.toNat, UInt8.ofNat (n.toNat / 2 ^ 8), UInt8.ofNat (n.toNat / 2 ^ 16),
    UInt8.ofNat (n.toNat / 2 ^ 24)]

/-- The word that four bytes encode; what follows them is not looked at. -/
def readLe32 : List UInt8 → UInt32
  | a :: b :: c :: d :: _ =>
      UInt32.ofNat (a.toNat + 2 ^ 8 * b.toNat + 2 ^ 16 * c.toNat + 2 ^ 24 * d.toNat)
  | _ => 0

@[simp] lemma length_le32 (n : UInt32) : (le32 n).length = 4 := rfl

/-- **Decoding inverts encoding.** -/
@[simp] lemma readLe32_le32 (n : UInt32) (rest : List UInt8) :
    readLe32 (le32 n ++ rest) = n := by
  have hlt : n.toNat < 2 ^ 32 := n.toNat_lt
  apply UInt32.toNat_inj.mp
  simp only [le32, List.cons_append, List.nil_append, readLe32, UInt32.toNat_ofNat',
    UInt8.toNat_ofNat']
  omega

lemma readLe32_take {k : ℕ} (hk : 4 ≤ k) (l : List UInt8) : readLe32 (l.take k) = readLe32 l := by
  obtain ⟨j, rfl⟩ := Nat.exists_eq_add_of_le' hk
  rcases l with _ | ⟨a, _ | ⟨b, _ | ⟨c, _ | ⟨d, l⟩⟩⟩⟩ <;> simp [readLe32]

/-! ## Arrays of bytes -/

/-- An array of `n` bytes. -/
structure FixedBuffer (n : ℕ) where
  bytes : List UInt8
  /-- the size of an array never changes -/
  length_eq : bytes.length = n

namespace FixedBuffer

variable {n : ℕ}

/-- The zeroed array. -/
def zero (n : ℕ) : FixedBuffer n := ⟨List.replicate n 0, List.length_replicate⟩

/-- Store `data` at the start of the array; what does not fit is not stored. -/
def overwrite (b : FixedBuffer n) (data : List UInt8) : FixedBuffer n where
  bytes := (data ++ b.bytes.drop data.length).take n
  length_eq := by
    have hlen := b.length_eq
    simp only [List.length_take, List.length_append, List.length_drop]
    omega

/-- What was stored is read back. -/
lemma take_overwrite (b : FixedBuffer n) {data : List UInt8} (h : data.length ≤ n) :
    (b.overwrite data).bytes.take data.length = data := by
  have hmin : min data.length n = data.length := min_eq_left h
  simp only [overwrite, List.take_take, hmin, List.take_left]

end FixedBuffer

end Libport
