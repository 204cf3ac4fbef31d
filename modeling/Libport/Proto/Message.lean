import Mathlib.Tactic

/-!
# The messages of `statement.proto`

The protobuf messages that the client library and the attestation guard exchange, as Lean
records.  A missing submessage reads as its default instance, as the generated accessors give
it, so submessages are plain fields with defaults.

* The proto3 enumerations are open: each has the constructors the file names and `unrecognized`
  for any other value on the wire.
* `ConfigMap` is a protobuf `map<string, string>`: its keys are pairwise distinct by construction.
* **`Any`** is `google.protobuf.Any`.  What the code can observe of one is whether `UnpackTo` a
  given message type succeeds, so an `Any` is absent, malformed (a type url no reader of this
  file knows, or a value that does not decode), or packs one of the messages.
* `extract…` are the `CommandWrapper` readers, and `statusInt` is `ResponseWrapper::status_int`:
  each is one `UnpackTo`, with a null pointer (`none`) or `-1` when it fails.
-/

namespace Libport

/-! ## Maps and nested messages -/

/-- A protobuf `map<string, string>`. -/
structure ConfigMap where
  /-- the entries, in the iteration order of the map -/
  entries : List (String × String)
  /-- no key occurs twice -/
  nodup : (entries.map Prod.fst).Nodup
deriving DecidableEq

namespace ConfigMap

/-- The empty map. -/
def empty : ConfigMap := ⟨[], List.nodup_nil⟩

instance : Inhabited ConfigMap := ⟨empty⟩

/-- The map with one entry. -/
def single (key value : String) : ConfigMap := ⟨[(key, value)], List.nodup_singleton key⟩

/-- `m[key] = value`. -/
def set (m : ConfigMap) (key value : String) : ConfigMap where
  entries := (key, value) :: m.entries.filter fun e => e.1 ≠ key
  nodup := by
    rw [List.map_cons, List.nodup_cons]
    refine ⟨by simp, ?_⟩
    exact m.nodup.sublist (List.filter_sublist.map Prod.fst)

/-- The value stored under `key`, if there is one. -/
def find? (m : ConfigMap) (key : String) : Option String := m.entries.lookup key

@[simp] lemma find?_empty (key : String) : empty.find? key = none := rfl

/-- An assignment is seen under its own key and under no other. -/
lemma find?_set (m : ConfigMap) (key value k : String) :
    (m.set key value).find? k = if k = key then some value else m.find? k := by
  by_cases hk : k = key
  · subst hk
    simp [find?, set]
  · have hother : ∀ l : List (String × String),
        (l.filter fun e => e.1 ≠ key).lookup k = l.lookup k := by
      intro l
      induction l with
      | nil => rfl
      | cons e rest ih =>
          obtain ⟨k', v'⟩ := e
          by_cases he : k' = key
          · subst he
            have hne : (k == k') = false := by simpa using hk
            simpa [List.lookup_cons, hne] using ih
          · simp only [ne_eq, decide_not] at ih
            simp [List.lookup_cons, he, ih]
    have hne : (k == key) = false := by simpa using hk
    simp only [find?, set, List.lookup_cons, hne, hk, if_false]
    exact hother m.entries

end ConfigMap

/-- `message AuthID`: the address and port range a principal is recognised by. -/
structure AuthID where
  ip : String := ""
  portLo : UInt32 := 0
  portHi : UInt32 := 0
  misc : UInt64 := 0
  safeId : String := ""
deriving DecidableEq, Inhabited

/-- `message CodeID`: the image a principal runs and its configuration. -/
structure CodeID where
  image : String := ""
  config : ConfigMap := .empty
  wildcard : Bool := false
  imageStore : String := ""
deriving DecidableEq, Inhabited

structure Principal where
  id : UInt64 := 0
  gn : UInt64 := 0
  auth : AuthID := {}
  code : CodeID := {}
  speaker : UInt64 := 0
deriving DecidableEq, Inhabited

inductive EndorsementType
  | membership | attester | builder | source | other
  | unrecognized (value : Int32)
deriving DecidableEq

structure Endorsement where
  type : EndorsementType := .membership
  property : String := ""
  value : String := ""
deriving DecidableEq

inductive EndorseType
  | image | source
  | unrecognized (value : Int32)
deriving DecidableEq

/-! ## Statements and results -/

structure LinkImage where
  host : String := ""
  image : String := ""
deriving DecidableEq

structure EndorsePrincipal where
  principal : Principal := {}
  endorsements : List Endorsement := []
deriving DecidableEq

structure Endorse where
  id : String := ""
  type : EndorseType := .image
  config : ConfigMap := .empty
  endorsements : List Endorsement := []
deriving DecidableEq

structure CheckProperty where
  principal : Principal := {}
  properties : List String := []
deriving DecidableEq

structure CheckAccess where
  principal : Principal := {}
  objects : List String := []
deriving DecidableEq

structure CheckImage where
  image : String := ""
  config : ConfigMap := .empty
  property : List String := []
deriving DecidableEq

structure CheckAttestation where
  principal : Principal := {}
deriving DecidableEq

structure PostACL where
  name : String := ""
  policies : List String := []
deriving DecidableEq

structure FreeCall where
  cmd : String := ""
  otherValues : List String := []
deriving DecidableEq

structure GuardCall where
  cmd : String := ""
  ip : String := ""
  port : UInt32 := 0
  otherValues : List String := []
deriving DecidableEq

structure MetadataConfig where
  ip : String := ""
  port : UInt32 := 0
deriving DecidableEq

structure Status where
  success : Bool := false
  info : String := ""
deriving DecidableEq

structure Attestation where
  principal : Principal := {}
  content : String := ""
deriving DecidableEq

/-- Every message that travels inside an `Any`. -/
inductive Message
  | principal (p : Principal)
  | linkImage (m : LinkImage)
  | endorsePrincipal (m : EndorsePrincipal)
  | endorse (m : Endorse)
  | checkProperty (m : CheckProperty)
  | checkAccess (m : CheckAccess)
  | checkImage (m : CheckImage)
  | checkAttestation (m : CheckAttestation)
  | postACL (m : PostACL)
  | freeCall (m : FreeCall)
  | guardCall (m : GuardCall)
  | empty
  | metadataConfig (m : MetadataConfig)
  | status (m : Status)
  | attestation (m : Attestation)
deriving DecidableEq

/-- `google.protobuf.Any`, up to what `UnpackTo` can tell. -/
inductive Any
  | absent
  | malformed (typeUrl : String)
  | packed (m : Message)
deriving DecidableEq

/-! ## Commands -/

inductive CommandType
  | createPrincipal | deletePrincipal | endorsePrincipal | revokePrincipalEndorsement
  | endorse | revoke | getPrincipal | freeCall | guardCall | linkImage
  | getLocalPrincipal | getMetadataConfig
  | endorseMembership | endorseAttesterImage | endorseImageProperty
  | endorseSourceImage | endorseBuilderImage
  | checkProperty | checkAttestation | checkAccess | postAcl
  | checkWorkerAccess | checkImageProperty
  | unrecognized (value : Int32)
deriving DecidableEq

/-- `Command::Type_Name`: the name in the enumeration, empty for a value it does not name. -/
def CommandType.name : CommandType → String
  | createPrincipal => "CREATE_PRINCIPAL"
  | deletePrincipal => "DELETE_PRINCIPAL"
  | endorsePrincipal => "ENDORSE_PRINCIPAL"
  | revokePrincipalEndorsement => "REVOKE_PRINCIPAL_ENDORSEMENT"
  | endorse => "ENDORSE"
  | revoke => "REVOKE"
  | getPrincipal => "GET_PRINCIPAL"
  | freeCall => "FREE_CALL"
  | guardCall => "GUARD_CALL"
  | linkImage => "LINK_IMAGE"
  | getLocalPrincipal => "GET_LOCAL_PRINCIPAL"
  | getMetadataConfig => "GET_METADATA_CONFIG"
  | endorseMembership => "ENDORSE_MEMBERSHIP"
  | endorseAttesterImage => "ENDORSE_ATTESTER_IMAGE"
  | endorseImageProperty => "ENDORSE_IMAGE_PROPERTY"
  | endorseSourceImage => "ENDORSE_SOURCE_IMAGE"
  | endorseBuilderImage => "ENDORSE_BUILDER_IMAGE"
  | checkProperty => "CHECK_PROPERTY"
  | checkAttestation => "CHECK_ATTESTATION"
  | checkAccess => "CHECK_ACCESS"
  | postAcl => "POST_ACL"
  | checkWorkerAccess => "CHECK_WORKER_ACCESS"
  | checkImageProperty => "CHECK_IMAGE_PROPERTY"
  | unrecognized _ => ""

structure Command where
  id : Int64 := 0
  type : CommandType := .createPrincipal
  auth : String := ""
  pid : UInt64 := 0
  uid : UInt64 := 0
  gid : UInt64 := 0
  statement : Any := .absent
deriving DecidableEq

section Extract

def extractPrincipal (cmd : Command) : Option Principal :=
  match cmd.statement with
  | .packed (.principal p) => some p
  | _ => none

def extractPostAcl (cmd : Command) : Option PostACL :=
  match cmd.statement with
  | .packed (.postACL m) => some m
  | _ => none

def extractEndorse (cmd : Command) : Option Endorse :=
  match cmd.statement with
  | .packed (.endorse m) => some m
  | _ => none

def extractEndorsePrincipal (cmd : Command) : Option EndorsePrincipal :=
  match cmd.statement with
  | .packed (.endorsePrincipal m) => some m
  | _ => none

def extractCheckAccess (cmd : Command) : Option CheckAccess :=
  match cmd.statement with
  | .packed (.checkAccess m) => some m
  | _ => none

def extractCheckProperty (cmd : Command) : Option CheckProperty :=
  match cmd.statement with
  | .packed (.checkProperty m) => some m
  | _ => none

def extractCheckAttestation (cmd : Command) : Option CheckAttestation :=
  match cmd.statement with
  | .packed (.checkAttestation m) => some m
  | _ => none

def extractCheckImage (cmd : Command) : Option CheckImage :=
  match cmd.statement with
  | .packed (.checkImage m) => some m
  | _ => none

def extractFreeCall (cmd : Command) : Option FreeCall :=
  match cmd.statement with
  | .packed (.freeCall m) => some m
  | _ => none

def extractGuardCall (cmd : Command) : Option GuardCall :=
  match cmd.statement with
  | .packed (.guardCall m) => some m
  | _ => none

def extractLinkImage (cmd : Command) : Option LinkImage :=
  match cmd.statement with
  | .packed (.linkImage m) => some m
  | _ => none

end Extract

/-! ## Responses -/

inductive ResponseType
  | principal | metadata | status | attestation
  | unrecognized (value : Int32)
deriving DecidableEq

structure Response where
  id : Int64 := 0
  type : ResponseType := .principal
  result : Any := .absent
deriving DecidableEq

def makeStatusResponse (success : Bool) (msg : String) : Response :=
  { type := .status, result := .packed (.status { success := success, info := msg }) }

def makePrincipalResponse (p : Principal) : Response :=
  { type := .principal, result := .packed (.principal p) }

def makeMetadataConfigResponse (m : MetadataConfig) : Response :=
  { type := .metadata, result := .packed (.metadataConfig m) }

def makeAttestationResponse (a : Attestation) : Response :=
  { type := .attestation, result := .packed (.attestation a) }

def notImplemented : Response := makeStatusResponse false "Not Implemented"

/-- `ResponseWrapper::status_int`: `-1` when the result is not a `Status`. -/
def Response.statusInt (r : Response) : Int :=
  match r.result with
  | .packed (.status s) => if s.success then 1 else 0
  | _ => -1

end Libport
