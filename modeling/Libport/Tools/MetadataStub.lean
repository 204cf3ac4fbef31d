import Libport.Lib.OrderedMap
import Libport.Lib.Scan
import Mathlib.Data.String.Basic

/-!
# The metadata stub (`tools/metadata_stub.go`)

A server that stands in for the metadata service in tests: principals, images and objects in three
maps of one global store, and a handler for each request.

A Go map is an `OrderedMap`.  Go iterates over a map in any order, so a function that iterates
takes the order, a permutation of the values.  A Go map is also a reference: an image holds the
place of its properties on the `heap`, and a copy of the image holds the same place.  A struct or
a slice is a value.

A handler returns its response and the store it leaves; `none` is a panic (an index out of range),
which the server recovers from without an answer.  No handler writes to the store before it can
panic.

* `parseIP` and `getPrincipal`: the two texts with an address in them.
* `postInstanceSet` to `retractInstanceSet`: the handlers.
* `asks_updateSubjectSet`, `asks_attestAppProperty` and `asks_attestObjectAccess`: the handlers
  that only ask leave the store as it is.
-/

namespace Libport

namespace MetadataStub

/-! ## The store -/

structure Principal where
  imageId : String
  properties : OrderedMap String String
  ip : String
  portMin : ℤ
  portMax : ℤ

structure Image where
  /-- the place of the map on the heap -/
  properties : ℕ

structure Object where
  acls : List String

structure TestStore where
  principals : OrderedMap String Principal
  images : OrderedMap String Image
  objects : OrderedMap String Object
  heap : List (OrderedMap String String)

/-- The store at start. -/
def TestStore.initial : TestStore := ⟨.empty, .empty, .empty, []⟩

/-- The properties of an image. -/
def TestStore.propertiesOf (store : TestStore) (image : Image) : OrderedMap String String :=
  store.heap[image.properties]?.getD .empty

structure MetadataRequest where
  principal : String
  otherValues : List String

/-- A status and what is written behind it. -/
structure Response where
  status : ℕ
  body : String
deriving DecidableEq

def statusOk : ℕ := 200

def statusBadRequest : ℕ := 400

def statusForbidden : ℕ := 403

def statusNotFound : ℕ := 404

def statusConflict : ℕ := 409

/-! ## The library functions -/

/-- A nonempty run of ASCII digits (`\d+`), as long as possible, and what follows it. -/
def digitRun (cs : List Char) : Option (List Char × List Char) :=
  match cs.takeWhile Char.isDigit with
  | [] => none
  | ds => some (ds, cs.dropWhile Char.isDigit)

/-- One given character, and what follows it. -/
def literal (c : Char) : List Char → Option (List Char)
  | d :: rest => if d = c then some rest else none
  | [] => none

/-- `strconv.ParseInt(s, 10, 32)`; `none` is an error. -/
def parseInt (cs : List Char) : Option ℤ :=
  let (negative, digits) := match cs with
    | '-' :: rest => (true, rest)
    | '+' :: rest => (false, rest)
    | _ => (false, cs)
  if digits ≠ [] ∧ digits.all Char.isDigit then
    let magnitude : ℤ := Nat.ofDigitChars 10 digits 0
    let value := if negative then -magnitude else magnitude
    if -2 ^ 31 ≤ value ∧ value < 2 ^ 31 then some value else none
  else none

/-- One field of a dotted address: at most 255, without a leading zero. -/
def isOctet (cs : List Char) : Bool :=
  cs ≠ [] ∧ cs.all Char.isDigit ∧ (cs.head? = some '0' → cs = ['0']) ∧
    Nat.ofDigitChars 10 cs 0 ≤ 255

/-- `net.ParseIP(s) != nil` for a text without a colon, as all texts it is given here are: such a
text can only be an IPv4 address. -/
def isIP (s : String) : Bool :=
  let fields := s.toList.splitOn '.'
  fields.length = 4 ∧ fields.all isOctet

/-- A match of `ipMatch` at the beginning of a text.  Each run of digits is followed by another
character or is the last, so the longest run is the only one to try. -/
def matchHere (cs : List Char) : Option (String × List Char × List Char) := do
  let (a, cs) ← digitRun cs
  let cs ← literal '.' cs
  let (b, cs) ← digitRun cs
  let cs ← literal '.' cs
  let (c, cs) ← digitRun cs
  let cs ← literal '.' cs
  let (d, cs) ← digitRun cs
  let cs ← literal ':' cs
  let (lo, cs) ← digitRun cs
  let cs ← literal '-' cs
  let (hi, _) ← digitRun cs
  some (String.ofList (a ++ '.' :: b ++ '.' :: c ++ '.' :: d), lo, hi)

/-- `ipMatch.FindStringSubmatch`: the leftmost match of
`(\d+\.\d+\.\d+\.\d+):(\d+)-(\d+)`. -/
def findStringSubmatch : List Char → Option (String × List Char × List Char)
  | [] => none
  | c :: rest => (matchHere (c :: rest)).orElse fun _ => findStringSubmatch rest

/-! ## Addresses -/

/-- `ParseIP`: an ip and a range of ports in a text, with a status. -/
def parseIP (msg : String) : String × ℤ × ℤ × ℕ :=
  match findStringSubmatch msg.toList with
  | none => ("", 0, 0, statusBadRequest)
  | some (ip, lo, hi) =>
      match parseInt lo with
      | none => ("", 0, 0, statusBadRequest)
      | some p1 =>
          match parseInt hi with
          | none => ("", 0, 0, statusBadRequest)
          | some p2 => (ip, p1, p2, statusOk)

/-- An `ip:port` as `GetPrincipal` reads it. -/
def parseAddress (address : String) : Option (String × ℤ) :=
  match address.toList.splitOn ':' with
  | [ip, port] =>
      if isIP (String.ofList ip) then (parseInt port).map (String.ofList ip, ·) else none
  | _ => none

/-- A principal that may be found first. -/
def isFirst (ip : String) (port : ℤ) (p : Principal) : Bool :=
  ip = p.ip ∧ port ≥ p.portMin ∧ port ≤ p.portMax

/-- A principal that replaces the one found. -/
def isDeeper (ip : String) (found p : Principal) : Bool :=
  ip = p.ip ∧ found.portMin ≤ p.portMin ∧ found.portMax ≥ p.portMin

/-- `GetPrincipal`, which iterates over the principals in the given order. -/
def getPrincipal (order : List Principal) (address : String) : Option Principal × ℕ :=
  match parseAddress address with
  | none => (none, statusBadRequest)
  | some (ip, port) =>
      match Scan.scan (isFirst ip port) (isDeeper ip) none order with
      | some found => (some found, statusOk)
      | none => (none, statusNotFound)

/-! ## The handlers -/

/-- A response and the store left; none is a panic. -/
abbrev Served := Option (Response × TestStore)

/-- `LoggedWriteHeader` without a body. -/
def answer (status : ℕ) (store : TestStore) : Served := some (⟨status, ""⟩, store)

/-- `ReadRequest`: the body of a request decodes to a `MetadataRequest`, or the answer is a bad
request. -/
def readRequest (body : Option MetadataRequest) (store : TestStore)
    (handler : MetadataRequest → Served) : Served :=
  match body with
  | none => answer statusBadRequest store
  | some m => handler m

def postInstanceSet (store : TestStore) (body : Option MetadataRequest) : Served :=
  readRequest body store fun m => do
    let name ← m.otherValues[0]?
    if (store.principals.find? name).isSome then answer statusConflict store
    else if m.otherValues.length ≠ 5 then answer statusBadRequest store
    else do
      let image ← m.otherValues[1]?
      let address ← m.otherValues[3]?
      let config ← m.otherValues[4]?
      let (ip, p1, p2, status) := parseIP address
      -- the status is the one of `parseIP`, also where a later test fails
      if status ≠ statusOk ∨ p1 > 65535 ∨ p2 > 65535 ∨ p1 > p2 ∨ ¬ isIP ip then
        answer status store
      else
        let p : Principal := ⟨image, OrderedMap.empty.insert "config" config, ip, p1, p2⟩
        some (⟨statusOk, r#"{"message":"['"# ++ name ++ r#"']"}"#⟩,
          { store with principals := store.principals.insert name p })

def updateSubjectSet (store : TestStore) (body : Option MetadataRequest) : Served :=
  readRequest body store fun m => do
    let name ← m.otherValues[0]?
    if (store.principals.find? name).isSome then answer statusOk store
    else answer statusNotFound store

def postAttesterImage (store : TestStore) (body : Option MetadataRequest) : Served :=
  readRequest body store fun m => do
    let name ← m.otherValues[0]?
    if (store.images.find? name).isSome then answer statusConflict store
    else
      answer statusOk
        { store with
          images := store.images.insert name ⟨store.heap.length⟩
          heap := store.heap ++ [.empty] }

def postImageProperty (store : TestStore) (body : Option MetadataRequest) : Served :=
  readRequest body store fun m => do
    let name ← m.otherValues[0]?
    match store.images.find? name with
    | none => answer statusNotFound store
    | some i => do
        let property ← m.otherValues[2]?
        -- the map is written through the copy of the image
        answer statusOk
          { store with heap := store.heap.modify i.properties (·.insert property "set") }

/-- The second requirement for an object is appended to a copy of the object. -/
def postObjectAcl (store : TestStore) (body : Option MetadataRequest) : Served :=
  readRequest body store fun m => do
    let name ← m.otherValues[0]?
    let requirement ← m.otherValues[1]?
    match store.objects.find? name with
    | none => answer statusOk { store with objects := store.objects.insert name ⟨[requirement]⟩ }
    | some o =>
        let _o : Object := { o with acls := o.acls ++ [requirement] }
        answer statusOk store

def attestAppProperty (order : List Principal) (store : TestStore)
    (body : Option MetadataRequest) : Served :=
  readRequest body store fun m => do
    let address ← m.otherValues[0]?
    match getPrincipal order address with
    | (none, status) => answer status store
    | (some p, _) =>
        match store.images.find? p.imageId with
        | none => some (⟨statusNotFound, r#"{"message": "image not found"}"#⟩, store)
        | some i => do
            let property ← m.otherValues[1]?
            if ((store.propertiesOf i).find? property).isSome then
              some (⟨statusOk,
                r#"{"message": "{ 'void':programHasProperty('','') }"}"#⟩, store)
            else some (⟨statusNotFound, r#"{"message": "object not found"}"#⟩, store)

/-- What `attestObjectAccess` writes when it grants access. -/
def approveAccess : Response :=
  ⟨statusOk, r#"{"message":  "{ 'void':approveAccess('','') }"}"#⟩

def attestObjectAccess (order : List Principal) (store : TestStore)
    (body : Option MetadataRequest) : Served :=
  readRequest body store fun m => do
    let address ← m.otherValues[0]?
    match getPrincipal order address with
    | (none, status) => answer status store
    | (some p, _) => do
        let object ← m.otherValues[1]?
        match store.objects.find? object with
        | none => some (⟨statusNotFound, r#"{"message": "object not found"}"#⟩, store)
        | some o =>
            match store.images.find? p.imageId with
            | none => some (⟨statusNotFound, r#"{"message": "image not found"}"#⟩, store)
            | some i =>
                if o.acls.any fun wanted => ((store.propertiesOf i).find? wanted).isSome then
                  some (approveAccess, store)
                else some (⟨statusForbidden, r#"{"message" : "access denied"}"#⟩, store)

/-- Nothing is written, which the server answers with the status of success. -/
def retractInstanceSet (store : TestStore) (body : Option MetadataRequest) : Served :=
  readRequest body store fun m => do
    let name ← m.otherValues[0]?
    answer statusOk { store with principals := store.principals.erase name }

/-! ## Requests that only ask -/

/-- The store is left as it was. -/
def Asks (store : TestStore) (served : Served) : Prop := ∀ r ∈ served, r.2 = store

section
variable {store : TestStore}

lemma asks_some (response : Response) : Asks store (some (response, store)) := by
  intro r hr
  rw [← Option.mem_some_iff.mp hr]

lemma asks_answer (status : ℕ) : Asks store (answer status store) := asks_some _

lemma asks_bind {α : Type} {o : Option α} {f : α → Served} (h : ∀ a, Asks store (f a)) :
    Asks store (o >>= f) := by
  cases o with
  | none => simp [Asks]
  | some a => exact h a

lemma asks_ite {P : Prop} [Decidable P] {served served' : Served} (h : Asks store served)
    (h' : Asks store served') : Asks store (if P then served else served') := by
  split_ifs
  · exact h
  · exact h'

lemma asks_readRequest {body : Option MetadataRequest} {handler : MetadataRequest → Served}
    (h : ∀ m, Asks store (handler m)) : Asks store (readRequest body store handler) := by
  cases body with
  | none => exact asks_answer _
  | some m => exact h m

lemma asks_updateSubjectSet (body : Option MetadataRequest) :
    Asks store (updateSubjectSet store body) :=
  asks_readRequest fun _ => asks_bind fun _ => asks_ite (asks_answer _) (asks_answer _)

lemma asks_attestAppProperty (order : List Principal) (body : Option MetadataRequest) :
    Asks store (attestAppProperty order store body) := by
  refine asks_readRequest fun m => asks_bind fun address => ?_
  rcases getPrincipal order address with ⟨_ | p, status⟩
  · exact asks_answer _
  · simp only
    cases store.images.find? p.imageId with
    | none => exact asks_some _
    | some i => exact asks_bind fun _ => asks_ite (asks_some _) (asks_some _)

lemma asks_attestObjectAccess (order : List Principal) (body : Option MetadataRequest) :
    Asks store (attestObjectAccess order store body) := by
  refine asks_readRequest fun m => asks_bind fun address => ?_
  rcases getPrincipal order address with ⟨_ | p, status⟩
  · exact asks_answer _
  · refine asks_bind fun object => ?_
    cases store.objects.find? object with
    | none => exact asks_some _
    | some o =>
        simp only
        cases store.images.find? p.imageId with
        | none => exact asks_some _
        | some i => exact asks_ite (asks_some _) (asks_some _)

end

end MetadataStub

end Libport
