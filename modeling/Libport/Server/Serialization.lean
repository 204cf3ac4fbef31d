import Libport.Common.Numeral
import Libport.Server.Metadata

/-!
# Saved principals, images and objects (`server/serialization.cc`)

`to_json` turns an object into a JSON value and `from_json` builds it again.  Numbers are saved as
strings, the id in hexadecimal and the ports in decimal; a set of strings is saved as an array, in
whatever order the hash table yields them.

* `Principal`, `Image` and `AccessorObject` are the classes of `principal.h`, `image.h` and
  `accessor_object.h`.
* `Iteration` is one way through the elements of a set.
* `fromJson_acls`: what an array of strings becomes depends on the strings in it only.
* **`restored_exactly`**: whatever is saved is restored.
-/

namespace Libport

namespace Latte

/-! ## The classes -/

/-- `latte::Principal`; unlike the message of the same name it has no address. -/
structure Principal where
  id : UInt64
  lo : UInt32
  hi : UInt32
  image : String
  configs : String
  bearer : String
deriving DecidableEq

/-- The constructor of `Principal`, whose port parameters are `int`s. -/
def Principal.new (id : UInt64) (lo hi : Int32) (image configs bearer : String) : Principal :=
  ⟨id, lo.toUInt32, hi.toUInt32, image, configs, bearer⟩

structure Image where
  hash : String
  url : String
  revision : String
  configs : String
deriving DecidableEq

structure AccessorObject where
  name : String
  acls : Finset String
deriving DecidableEq

namespace AccessorObject

/-- The constructor, with no strings yet. -/
def new (name : String) : AccessorObject := ⟨name, ∅⟩

def addAcl (o : AccessorObject) (acl : String) : AccessorObject :=
  { o with acls := insert acl o.acls }

end AccessorObject

/-- An iteration over a set: every element once, in some order. -/
structure Iteration (acls : Finset String) where
  elems : List String
  nodup : elems.Nodup
  mem_iff : ∀ acl, acl ∈ elems ↔ acl ∈ acls

instance (acls : Finset String) : Nonempty (Iteration acls) :=
  ⟨⟨acls.toList, acls.nodup_toList, fun _ => Finset.mem_toList⟩⟩

/-! ## Access to JSON values -/

/-- `v.as_string()`. -/
def asString : Json → Except Exc String
  | .string s => .ok s
  | _ => .error (.jsonException "not a string")

/-- `v[key].as_array()`. -/
def arrayField (v : Json) (key : String) : Except Exc (List Json) :=
  match v with
  | .object fields =>
      match fields.lookup key with
      | some (.array items) => .ok items
      | _ => .error (.jsonException "not an array")
  | .null => .error (.jsonException "not an array")
  | _ => .error (.jsonException "not an object")

/-- A number from a string field; the stream throws a `std::ios_base::failure`, which is a
`runtime_error`. -/
def numberField (bits : ℕ) (v : Json) (key : String) : Except Exc ℕ :=
  match v.stringField key with
  | .ok s =>
      match atoi bits s with
      | some n => .ok n
      | none => .error (.runtimeError "basic_ios::clear: iostream error")
  | .error e => .error e

/-! ## Saving and restoring -/

namespace Principal

def toJson (p : Principal) : Json := .object
  [("id", .string (itoa .hexType p.id.toNat)), ("lo", .string (itoa .decType p.lo.toNat)),
    ("hi", .string (itoa .decType p.hi.toNat)), ("image", .string p.image),
    ("configs", .string p.configs), ("bearer", .string p.bearer)]

def fromJson (p : Json) : Except Exc Principal := do
  let id ← numberField 64 p "id"
  let lo ← numberField 32 p "lo"
  let hi ← numberField 32 p "hi"
  return .new (UInt64.ofNat id) (UInt32.ofNat lo).toInt32 (UInt32.ofNat hi).toInt32
    (← p.stringField "image") (← p.stringField "configs") (← p.stringField "bearer")

end Principal

namespace Image

def toJson (i : Image) : Json := .object
  [("hash", .string i.hash), ("url", .string i.url), ("revision", .string i.revision),
    ("configs", .string i.configs)]

def fromJson (p : Json) : Except Exc Image := do
  return ⟨← p.stringField "hash", ← p.stringField "url", ← p.stringField "revision",
    ← p.stringField "configs"⟩

end Image

namespace AccessorObject

/-- The value saved for a name and an array of strings. -/
def saved (name : String) (acls : List String) : Json :=
  .object [("name", .string name), ("acls", .array (acls.map .string))]

/-- `to_json`, with the iteration that the hash table yields. -/
def toJson (o : AccessorObject) (it : Iteration o.acls) : Json := saved o.name it.elems

/-- The loop of `from_json`. -/
def addAcls : List Json → AccessorObject → Except Exc AccessorObject
  | [], o => .ok o
  | acl :: rest, o => do
      let s ← asString acl
      addAcls rest (o.addAcl s)

def fromJson (p : Json) : Except Exc AccessorObject := do
  let acls ← arrayField p "acls"
  let name ← p.stringField "name"
  addAcls acls (.new name)

end AccessorObject

/-! ## Round trips -/

lemma numberField_itoa {v : Json} {key : String} {base : BaseType} {bits n : ℕ}
    (hv : v.stringField key = .ok (itoa base n)) (hn : n < 2 ^ bits) :
    numberField bits v key = .ok n := by
  simp only [numberField, hv, atoi_itoa base hn]

lemma Principal.fromJson_toJson (p : Principal) : fromJson p.toJson = .ok p := by
  have hid : numberField 64 p.toJson "id" = .ok p.id.toNat :=
    numberField_itoa rfl p.id.toNat_lt
  have hlo : numberField 32 p.toJson "lo" = .ok p.lo.toNat :=
    numberField_itoa rfl p.lo.toNat_lt
  have hhi : numberField 32 p.toJson "hi" = .ok p.hi.toNat :=
    numberField_itoa rfl p.hi.toNat_lt
  have hports : ∀ n : UInt32, (UInt32.ofNat n.toNat).toInt32.toUInt32 = n := by simp
  have hnew : new (UInt64.ofNat p.id.toNat) (UInt32.ofNat p.lo.toNat).toInt32
      (UInt32.ofNat p.hi.toNat).toInt32 p.image p.configs p.bearer = p := by
    rw [new, hports, hports, UInt64.ofNat_toNat]
  rw [fromJson, hid, hlo, hhi]
  exact congrArg Except.ok hnew

lemma Image.fromJson_toJson (i : Image) : fromJson i.toJson = .ok i := rfl

namespace AccessorObject

lemma addAcls_strings (acls : List String) (o : AccessorObject) :
    addAcls (acls.map .string) o = .ok { o with acls := o.acls ∪ acls.toFinset } := by
  induction acls generalizing o with
  | nil => simp [addAcls]
  | cons acl rest ih =>
      have hunion : insert acl o.acls ∪ rest.toFinset = o.acls ∪ (acl :: rest).toFinset := by
        rw [List.toFinset_cons, Finset.insert_union, Finset.union_insert]
      calc addAcls ((acl :: rest).map .string) o
          = addAcls (rest.map .string) (o.addAcl acl) := rfl
        _ = .ok { o with acls := insert acl o.acls ∪ rest.toFinset } := ih (o.addAcl acl)
        _ = .ok { o with acls := o.acls ∪ (acl :: rest).toFinset } := by rw [hunion]

/-- **What is restored from an array is the set of its strings.** -/
lemma fromJson_saved (name : String) (acls : List String) :
    fromJson (saved name acls) = .ok ⟨name, acls.toFinset⟩ := by
  have hadd := addAcls_strings acls (.new name)
  rw [new, Finset.empty_union] at hadd
  exact hadd

lemma fromJson_toJson (o : AccessorObject) (it : Iteration o.acls) :
    fromJson (o.toJson it) = .ok o := by
  have hset : it.elems.toFinset = o.acls := by
    ext acl
    rw [List.mem_toFinset, it.mem_iff]
  rw [toJson, fromJson_saved, hset]

/-- Order and repetition of the strings do not matter. -/
lemma fromJson_acls (name : String) {a b : List String} (h : ∀ acl, acl ∈ a ↔ acl ∈ b) :
    fromJson (saved name a) = fromJson (saved name b) := by
  rw [fromJson_saved, fromJson_saved, List.toFinset.ext h]

end AccessorObject

/-- **Saved objects are restored exactly**, for every iteration over the set of an object, and
from every array with the same strings. -/
theorem restored_exactly :
    (∀ p : Principal, Principal.fromJson p.toJson = .ok p) ∧
    (∀ i : Image, Image.fromJson i.toJson = .ok i) ∧
    (∀ (o : AccessorObject) (it : Iteration o.acls),
      AccessorObject.fromJson (o.toJson it) = .ok o) ∧
    (∀ (name : String) (a b : List String), (∀ acl, acl ∈ a ↔ acl ∈ b) →
      AccessorObject.fromJson (AccessorObject.saved name a)
        = AccessorObject.fromJson (AccessorObject.saved name b)) ∧
    (∀ (base : BaseType) (id : UInt64) (port : UInt32),
      atoi 64 (itoa base id.toNat) = some id.toNat ∧
        atoi 32 (itoa base port.toNat) = some port.toNat) :=
  ⟨Principal.fromJson_toJson, Image.fromJson_toJson, AccessorObject.fromJson_toJson,
    fun name _ _ h => AccessorObject.fromJson_acls name h,
    fun base id port => ⟨atoi_itoa base id.toNat_lt, atoi_itoa base port.toNat_lt⟩⟩

end Latte

end Libport
