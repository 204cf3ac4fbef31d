import Libport.Client.Lookup
import Libport.Client.Release
import Libport.Server.Logging
import Libport.Server.Verdict

/-!
# The calls of the library (`client/client.cc`, `include/libport.h`)

Thirty entry points post a command.  Each passes the same layers: the entry point, with its tests of
the library and of its pointers, the method of `AttGuardClient` that builds the command, the
handler the command's type selects, the operation of the metadata client, and the reading of the
response on the way back.

* `Posted` is a command with what its call makes of the response, and `Exit` the end of a call that
  posts nothing.
* `liblatte…` are the entry points, for a library that is initialised or not.
* `LibCall` is a call of any of them.  `LibCall.effect` says what it is for: the request it causes,
  what the service has to say to it, and the value returned.
* `Posted.Fits` and `Posted.Survived` say how far a command gets: a session receives it whole, the
  path of a free or a guard call is a URI, and the platform gets through what is logged.
* **`effect_done`**: every call has its effect, whatever the state of the daemon and of the service;
  it is answered exactly when it survives.
* **`calls_served`**: the calls of any number of processes, in any order, do not bring the daemon
  down, and each is answered once, when no text that is logged has a directive.
-/

namespace Libport

/-! ## Commands and results -/

/-- `ResponseWrapper::extract_metadata_config`. -/
def Response.extractMetadataConfig (r : Response) : Option MetadataConfig :=
  match r.result with
  | .packed (.metadataConfig m) => some m
  | _ => none

/-- `ResponseWrapper::extract_attestation`. -/
def Response.extractAttestation (r : Response) : Option Attestation :=
  match r.result with
  | .packed (.attestation a) => some a
  | _ => none

/-- What a call hands back. -/
inductive Returned
  | int (code : ℤ)
  /-- a buffer made by `wrap_proto_msg`, or the null pointer -/
  | buffer (bytes : Option (List UInt8))
  /-- a code, with what was written to the caller's buffer and the size stored -/
  | url (code : ℤ) (written : List UInt8) (size : ℕ)
deriving DecidableEq

/-- How a call ends that posts nothing: it returns, or it does not, by a null pointer or an
exception. -/
inductive Exit
  | returned (r : Returned)
  | aborted
deriving DecidableEq

/-- A command, and what its call makes of the response. -/
structure Posted where
  cmd : Command
  finish : Response → Returned

/-- `latte_client`, as `liblatte_init` made it. -/
structure LatteClient where
  myid : String
  myip : String
deriving DecidableEq

namespace AttGuardClient

variable (myid : String) (msgId : Int64)

/-- `endorse`, of a property with its value. -/
def endorseValue (id prop val : String) : Command :=
  quickPost myid msgId .endorse (.endorse
    { id := id, endorsements := [{ property := prop, value := val }] })

def linkImage (host image : String) : Command :=
  quickPost myid msgId .linkImage (.linkImage { host := host, image := image })

def getMetadataConfig : Command := prepare msgId .getMetadataConfig .empty myid

def endorsePrincipal (ip : String) (port : UInt32) (gn : UInt64) (type : Int32)
    (property : String) : Command :=
  quickPost myid msgId .endorsePrincipal (.endorsePrincipal
    { principal :=
        { gn := gn
          auth := { ip := ip, portLo := port }
          code := { config := .single legacyConfigKey "*" } }
      endorsements := [{ type := .ofInt type, property := property }] })

/-- `endorse_source` with a property. -/
def endorseSourceProperty (id config : String) (type : Int32) (property : String) : Command :=
  endorse myid msgId id config .source type property

def postAcl (id acl : String) : Command :=
  quickPost myid msgId .postAcl (.postACL { name := id, policies := [acl] })

def checkProperty (ip : String) (port : UInt32) (property : String) : Command :=
  quickPost myid msgId .checkProperty (.checkProperty
    { principal := { auth := { ip := ip, portLo := port } }, properties := [property] })

def checkAccess (ip : String) (port : UInt32) (object : String) : Command :=
  quickPost myid msgId .checkAccess (.checkAccess
    { principal := { auth := { ip := ip, portLo := port } }, objects := [object] })

def checkAttestation (ip : String) (port : UInt32) : Command :=
  prepare msgId .checkAttestation
    (.checkAttestation { principal := { auth := { ip := ip, portLo := port } } }) myid

def checkWorkerAccess (ip : String) (port : UInt32) (object : String) : Command :=
  quickPost myid msgId .checkWorkerAccess (.checkAccess
    { principal := { auth := { ip := ip, portLo := port } }, objects := [object] })

def checkImageProperty (image config property : String) : Command :=
  quickPost myid msgId .checkImageProperty (.checkImage
    { image := image, config := .single legacyConfigKey config, property := [property] })

def freeCall (cmd : String) (values : List String) : Command :=
  quickPost myid msgId .freeCall (.freeCall { cmd := cmd, otherValues := values })

def guardCall (cmd : String) (values : List String) : Command :=
  quickPost myid msgId .guardCall (.guardCall { cmd := cmd, otherValues := values })

end AttGuardClient

/-! ## The entry points -/

/-- `CHECK_LIB_INIT`. -/
def checkLibInit : Option LatteClient → Except Exit LatteClient
  | some c => .ok c
  | none => .error (.returned (.int (-1)))

/-- `CHECK_LIB_INIT_PTR`. -/
def checkLibInitPtr : Option LatteClient → Except Exit LatteClient
  | some c => .ok c
  | none => .error (.returned (.buffer none))

/-- `latte_client->…` in an entry point that does not test it. -/
def derefLib : Option LatteClient → Except Exit LatteClient
  | some c => .ok c
  | none => .error .aborted

/-- `CHECK_NULL_PTR` of a text, in an entry point that has tested the library. -/
def checkText (ptr : Option String) : Except Exit String :=
  (checkNullPtr ptr).mapError fun code => .returned (.int code)

/-- A `std::string` made of a pointer that is not tested: of the null pointer the constructor
throws, and nothing catches. -/
def constructText : Option String → Except Exit String
  | some text => .ok text
  | none => .error .aborted

/-- A command whose call returns the status. -/
def Posted.status (cmd : Command) : Posted := ⟨cmd, fun r => .int r.statusInt⟩

/-- An endorsement as a call: the error of a null pointer is returned. -/
def endorsing (x : Except ℤ Command) : Except Exit Posted :=
  (x.mapError fun code => .returned (.int code)).map .status

/-- A creation as a call. -/
def creating (c : LatteClient) (msgId : Int64) : CallOutcome → Except Exit Posted
  | .refused code => .error (.returned (.int code))
  | .aborted => .error .aborted
  | .sent p ret => .ok ⟨AttGuardClient.quickPost c.myid msgId .createPrincipal (.principal p),
      fun r => .int (ret r.statusInt)⟩

section EntryPoints

variable (lib : Option LatteClient) (msgId : Int64)

/-- `liblatte_create_principal_new` and `liblatte_create_instance` as calls.  The first tests the
library, the second does not. -/
def creatingNew (v : Int32) (call : CreateCall) : Except Exit Posted :=
  match lib, call with
  | some c, call => creating c msgId (call.run c.myip v)
  | none, .createPrincipalNew .. => .error (.returned (.int (-1)))
  | none, .createInstance _ _ ip nport _ _ =>
      if nport ≤ 0 ∧ ip.getD "" = "" then .error (.returned (.int (-1))) else .error .aborted

def liblatteCreatePrincipal (v : Int32) (uuid : UInt64) (image config : Option String)
    (nport : Int32) : Except Exit Posted := do
  let c ← checkLibInit lib
  creating c msgId (liblatteCreatePrincipalNew c.myip v uuid image config nport (some ""))

/-- `liblatte_create_principal_with_allocated_ports`; the library is not tested. -/
def liblatteCreatePrincipalWithAllocatedPorts (uuid : UInt64) (image config ip : Option String)
    (portLo portHi : Int32) : Except Exit Posted := do
  let c ← derefLib lib
  creating c msgId (.sending id (createPrincipalNew c.myip uuid (image.getD "") (config.getD "*")
    ip portLo.toUInt32 portHi.toUInt32))

/-- `liblatte_create_image`, which endorses the source of the image. -/
def liblatteCreateImage (imageHash sourceUrl sourceRev miscConf : Option String) :
    Except Exit Posted := do
  let c ← checkLibInit lib
  let imageHash ← checkText imageHash
  let sourceUrl ← checkText sourceUrl
  pure (.status (AttGuardClient.endorseSource c.myid msgId imageHash (miscConf.getD "*")
    (formatImageSource sourceUrl (sourceRev.getD ""))))

def liblattePostObjectAcl (objId requirement : Option String) : Except Exit Posted := do
  let c ← checkLibInit lib
  let objId ← checkText objId
  let requirement ← checkText requirement
  pure (.status (AttGuardClient.postAcl c.myid msgId objId requirement))

/-- `liblatte_check_property`, and `liblatte_attest_principal_property` under its older name. -/
def liblatteCheckProperty (ip : Option String) (port : UInt32) (property : Option String) :
    Except Exit Posted := do
  let c ← checkLibInit lib
  let ip ← checkText ip
  let property ← checkText property
  pure (.status (AttGuardClient.checkProperty c.myid msgId ip port property))

/-- `liblatte_check_access`, and `liblatte_attest_principal_access` under its older name. -/
def liblatteCheckAccess (ip : Option String) (port : UInt32) (object : Option String) :
    Except Exit Posted := do
  let c ← checkLibInit lib
  let ip ← checkText ip
  let object ← checkText object
  pure (.status (AttGuardClient.checkAccess c.myid msgId ip port object))

def liblatteCheckWorkerAccess (ip : Option String) (port : UInt32) (object : Option String) :
    Except Exit Posted := do
  let c ← checkLibInit lib
  let ip ← checkText ip
  let object ← checkText object
  pure (.status (AttGuardClient.checkWorkerAccess c.myid msgId ip port object))

/-- `liblatte_check_image_property`; neither the library nor a pointer is tested. -/
def liblatteCheckImageProperty (image config property : Option String) : Except Exit Posted := do
  let c ← derefLib lib
  let image ← constructText image
  let config ← constructText config
  let property ← constructText property
  pure (.status (AttGuardClient.checkImageProperty c.myid msgId image config property))

/-- `liblatte_check_attestation`, with the pointers for its result not null. -/
def liblatteCheckAttestation (serialize : Attestation → List UInt8) (ip : Option String)
    (port : UInt32) : Except Exit Posted := do
  let c ← checkLibInitPtr lib
  match ip with
  | none => throw (.returned (.buffer none))
  | some ip =>
      pure ⟨AttGuardClient.checkAttestation c.myid msgId ip port,
        fun r => .buffer (r.extractAttestation.bind (wrapProtoMsg serialize))⟩

/-- `liblatte_delete_principal_without_allocated_ports` as a call; the library is not tested.
`liblatte_delete_principal` and `liblatte_delete_instance` post the same command, after the system
calls that give the ports back. -/
def deleting (uuid : UInt64) : Except Exit Posted := do
  let c ← derefLib lib
  pure (.status (liblatteDeletePrincipalWithoutAllocatedPorts c.myid msgId uuid))

/-- `liblatte_get_principal`, with the pointers for its result not null. -/
def liblatteGetPrincipal (serialize : Principal → List UInt8) (ip : Option String)
    (lo : UInt32) : Except Exit Posted := do
  let c ← checkLibInitPtr lib
  match ip with
  | none => throw (.returned (.buffer none))
  | some ip =>
      pure ⟨prepare msgId .getPrincipal (.principal { auth := { ip := ip, portLo := lo } }) c.myid,
        fun r => .buffer (r.extractPrincipal.bind (wrapProtoMsg serialize))⟩

/-- `liblatte_get_local_principal` as a call. -/
def gettingLocalPrincipal (serialize : Principal → List UInt8) (uuid : UInt64) :
    Except Exit Posted := do
  let c ← checkLibInitPtr lib
  pure ⟨prepare msgId .getPrincipal (.principal { id := uuid }) c.myid,
    fun r => .buffer (r.extractPrincipal.bind (wrapProtoMsg serialize))⟩

/-- `liblatte_get_metadata_config`, with its pointers not null. -/
def liblatteGetMetadataConfig (serialize : MetadataConfig → List UInt8) : Except Exit Posted := do
  let c ← checkLibInitPtr lib
  pure ⟨AttGuardClient.getMetadataConfig c.myid msgId,
    fun r => .buffer (r.extractMetadataConfig.bind (wrapProtoMsg serialize))⟩

/-- `URL_MAX_ALLOWED`. -/
def urlMaxAllowed : ℕ := 3000

/-- `snprintf(buf, size, "%s", text)`, for a text without null characters: what is written to the
buffer, and the length of the whole text. -/
def snprintf (size : ℕ) (text : String) : List UInt8 × ℕ :=
  (if size = 0 then [] else text.toUTF8.data.toList.take (size - 1) ++ [0],
    text.toUTF8.data.toList.length)

/-- `liblatte_get_metadata_config_easy`, with its pointers not null. -/
def liblatteGetMetadataConfigEasy (urlSz : ℕ) : Except Exit Posted := do
  let c ← checkLibInit lib
  if urlMaxAllowed < urlSz then throw (.returned (.url (-einval) [] urlSz))
  else
    pure ⟨AttGuardClient.getMetadataConfig c.myid msgId, fun r =>
      match r.extractMetadataConfig with
      | none => .url 0 [] urlSz
      | some config =>
          let (written, size) := snprintf urlSz (config.ip ++ ":" ++ toString config.port)
          .url 1 written size⟩

def liblatteEndorsePrincipal (ip : Option String) (port : UInt32) (gn : UInt64) (type : Int32)
    (property : Option String) : Except Exit Posted := do
  let c ← checkLibInit lib
  let ip ← checkText ip
  let property ← checkText property
  pure (.status (AttGuardClient.endorsePrincipal c.myid msgId ip port gn type property))

/-- `liblatte_endorse_source`, which passes the statement's type for the endorsement's. -/
def liblatteEndorseSource (url rev config property : Option String) : Except Exit Posted := do
  let c ← checkLibInit lib
  let url ← checkText url
  let rev ← checkText rev
  let property ← checkText property
  pure (.status (AttGuardClient.endorseSourceProperty c.myid msgId (formatImageSource url rev)
    (config.getD "*") EndorseType.source.toInt property))

/-- `liblatte_endorse`: null pointers are refused before the library is used, which is not
tested. -/
def liblatteEndorse (id prop val : Option String) : Except Exit Posted :=
  match id, prop, val with
  | some id, some prop, some val => do
      let c ← derefLib lib
      pure (.status (AttGuardClient.endorseValue c.myid msgId id prop val))
  | _, _, _ => .error (.returned (.int (-1)))

/-- `liblatte_link_image`; the library is not tested. -/
def liblatteLinkImage (host image : Option String) : Except Exit Posted := do
  let c ← derefLib lib
  pure (.status (AttGuardClient.linkImage c.myid msgId (host.getD "") (image.getD "")))

/-- `liblatte_free_call`; neither the library nor the command is tested. -/
def liblatteFreeCall (cmd : Option String) (args : List String) : Except Exit Posted := do
  let c ← derefLib lib
  let cmd ← constructText cmd
  pure (.status (AttGuardClient.freeCall c.myid msgId cmd args))

/-- What `ss << ip << ":" << port` leaves in the stream: a null pointer sets its bad bit, and
nothing is written then or later. -/
def guardAddress (ip : Option String) (port : Int32) : String :=
  match ip with
  | some ip => ip ++ ":" ++ toString port.toInt
  | none => ""

/-- `liblatte_guard_call`: the address comes first among the values; neither the library nor the
command is tested. -/
def liblatteGuardCall (cmd ip : Option String) (port : Int32) (args : List String) :
    Except Exit Posted := do
  let c ← derefLib lib
  let cmd ← constructText cmd
  pure (.status (AttGuardClient.guardCall c.myid msgId cmd (guardAddress ip port :: args)))

/-- `liblatte_endorse_membership` as a call; the address is not tested. -/
def endorsingMembership (ip : Option String) (port : UInt32) (gn : UInt64)
    (master : Option String) : Except Exit Posted := do
  let c ← checkLibInit lib
  let master ← checkText master
  let ip ← constructText ip
  endorsing (liblatteEndorseMembership c.myid msgId ip port gn (some master))

end EntryPoints

/-! ## Any call -/

/-- The coding of the commands, and of the messages that are handed to the caller. -/
structure Coding where
  command : Command → List UInt8
  principal : Principal → List UInt8
  attestation : Attestation → List UInt8
  metadataConfig : MetadataConfig → List UInt8

/-- A coding that takes two bytes for a command. -/
def Coding.short : Coding := ⟨fun _ => [0x08, 0x01], fun _ => [], fun _ => [], fun _ => []⟩

/-- A call of an entry point.  A creation comes with what the kernel returned to it.  The pointers
for results are not null, and the arrays of arguments hold texts. -/
inductive LibCall
  | create (v : Int32) (call : CreateCall)
  | createPrincipal (v : Int32) (uuid : UInt64) (image config : Option String) (nport : Int32)
  | createPrincipalWithAllocatedPorts (uuid : UInt64) (image config ip : Option String)
      (portLo portHi : Int32)
  | createImage (imageHash sourceUrl sourceRev miscConf : Option String)
  | delete (uuid : UInt64)
  | getPrincipal (ip : Option String) (lo : UInt32)
  | getLocalPrincipal (uuid : UInt64)
  | getMetadataConfig
  | getMetadataConfigEasy (urlSz : ℕ)
  | postObjectAcl (objId requirement : Option String)
  | endorse (id prop val : Option String)
  | endorsePrincipal (ip : Option String) (port : UInt32) (gn : UInt64) (type : Int32)
      (property : Option String)
  | endorseImage (id config property : Option String)
  | endorseSource (url rev config property : Option String)
  | endorseMembership (ip : Option String) (port : UInt32) (gn : UInt64) (master : Option String)
  | endorseAttester (id config : Option String)
  | endorseBuilder (id config : Option String)
  | endorseImageSource (id config sourceUrl sourceRev : Option String)
  | revokePrincipal
  | revoke
  | linkImage (host image : Option String)
  | checkProperty (ip : Option String) (port : UInt32) (property : Option String)
  | checkAccess (ip : Option String) (port : UInt32) (object : Option String)
  | checkWorkerAccess (ip : Option String) (port : UInt32) (object : Option String)
  | checkImageProperty (image config property : Option String)
  | checkAttestation (ip : Option String) (port : UInt32)
  | freeCall (cmd : Option String) (args : List String)
  | guardCall (cmd ip : Option String) (port : Int32) (args : List String)

/-- Run the entry point. -/
def LibCall.run (coding : Coding) (lib : Option LatteClient) (msgId : Int64) :
    LibCall → Except Exit Posted
  | create v call => creatingNew lib msgId v call
  | createPrincipal v uuid image config nport =>
      liblatteCreatePrincipal lib msgId v uuid image config nport
  | createPrincipalWithAllocatedPorts uuid image config ip portLo portHi =>
      liblatteCreatePrincipalWithAllocatedPorts lib msgId uuid image config ip portLo portHi
  | createImage imageHash sourceUrl sourceRev miscConf =>
      liblatteCreateImage lib msgId imageHash sourceUrl sourceRev miscConf
  | delete uuid => deleting lib msgId uuid
  | getPrincipal ip lo => liblatteGetPrincipal lib msgId coding.principal ip lo
  | getLocalPrincipal uuid => gettingLocalPrincipal lib msgId coding.principal uuid
  | getMetadataConfig => liblatteGetMetadataConfig lib msgId coding.metadataConfig
  | getMetadataConfigEasy urlSz => liblatteGetMetadataConfigEasy lib msgId urlSz
  | postObjectAcl objId requirement => liblattePostObjectAcl lib msgId objId requirement
  | endorse id prop val => liblatteEndorse lib msgId id prop val
  | endorsePrincipal ip port gn type property =>
      liblatteEndorsePrincipal lib msgId ip port gn type property
  | endorseImage id config property => do
      let c ← checkLibInit lib
      endorsing (liblatteEndorseImage c.myid msgId id config property)
  | endorseSource url rev config property =>
      liblatteEndorseSource lib msgId url rev config property
  | endorseMembership ip port gn master => endorsingMembership lib msgId ip port gn master
  | endorseAttester id config => do
      let c ← checkLibInit lib
      endorsing (liblatteEndorseAttester c.myid msgId id config)
  | endorseBuilder id config => do
      let c ← checkLibInit lib
      endorsing (liblatteEndorseBuilder c.myid msgId id config)
  | endorseImageSource id config sourceUrl sourceRev => do
      let c ← checkLibInit lib
      endorsing (liblatteEndorseImageSource c.myid msgId id config sourceUrl sourceRev)
  | revokePrincipal => .error (.returned (.int (-1)))
  | revoke => .error (.returned (.int (-1)))
  | linkImage host image => liblatteLinkImage lib msgId host image
  | checkProperty ip port property => liblatteCheckProperty lib msgId ip port property
  | checkAccess ip port object => liblatteCheckAccess lib msgId ip port object
  | checkWorkerAccess ip port object => liblatteCheckWorkerAccess lib msgId ip port object
  | checkImageProperty image config property =>
      liblatteCheckImageProperty lib msgId image config property
  | checkAttestation ip port => liblatteCheckAttestation lib msgId coding.attestation ip port
  | freeCall cmd args => liblatteFreeCall lib msgId cmd args
  | guardCall cmd ip port args => liblatteGuardCall lib msgId cmd ip port args

/-! ## What a call is for -/

/-- What the service has to do for a call to succeed: reply, with whatever status; acknowledge the
request; or approve the check. -/
inductive Consent
  | replied
  | acknowledged
  | approved (type : CommandType)

/-- The outcome of the request is the consent of the service. -/
def Consent.Given : Consent → Outcome → Prop
  | replied, o => ∃ res, o = .replied res
  | acknowledged, o => o.Acknowledged
  | approved type, o => Approved type o

/-- What a call of an initialised library amounts to. -/
inductive Effect
  /-- nothing is posted, and `r` is returned -/
  | refused (r : Returned)
  /-- nothing is posted, and the call does not return -/
  | aborted
  /-- the daemon makes one request, and `1` is returned exactly with the consent of the service -/
  | asked (speaker path : String) (values : List String) (consent : Consent)
  /-- the daemon makes one request, and what the service says to it is handed over -/
  | attested (speaker path : String) (values : List String)
  /-- the daemon answers without a request, and `r` is returned -/
  | answered (r : Returned)
  /-- the daemon creates `p`, and `ret` makes the value of the status -/
  | created (speaker : String) (p : Principal) (ret : ℤ → ℤ)
  /-- the daemon deletes the principals of an id -/
  | deleted (speaker : String) (uuid : UInt64)

/-- A pointer that has to be there. -/
def Effect.given (ptr : Option String) (k : String → Effect) : Effect :=
  match ptr with
  | some text => k text
  | none => .refused (.int einval)

/-- A pointer that a `std::string` is made of. -/
def Effect.constructed (ptr : Option String) (k : String → Effect) : Effect :=
  match ptr with
  | some text => k text
  | none => .aborted

def CallOutcome.effect (speaker : String) : CallOutcome → Effect
  | refused code => .refused (.int code)
  | aborted => .aborted
  | sent p ret => .created speaker p ret

open Effect in
/-- What a call is for, in a library that speaks as `c.myid`, with the address of the service that
the daemon is configured with. -/
def LibCall.effect (coding : Coding) (config : MetadataConfig) (c : LatteClient) :
    LibCall → Effect
  | create v call => (call.run c.myip v).effect c.myid
  | createPrincipal v uuid image config nport =>
      (liblatteCreatePrincipalNew c.myip v uuid image config nport (some "")).effect c.myid
  | createPrincipalWithAllocatedPorts uuid image config ip portLo portHi =>
      (CallOutcome.sending id (createPrincipalNew c.myip uuid (image.getD "") (config.getD "*") ip
        portLo.toUInt32 portHi.toUInt32)).effect c.myid
  | createImage imageHash sourceUrl sourceRev miscConf =>
      given imageHash fun imageHash => given sourceUrl fun sourceUrl =>
        .asked c.myid "/postImageProperty" [imageHash, miscConf.getD "*",
          formatImageSource sourceUrl (sourceRev.getD "")] .replied
  | delete uuid => .deleted c.myid uuid
  | getPrincipal none _ => .refused (.buffer none)
  | getPrincipal (some _) _ => .answered (.buffer none)
  | getLocalPrincipal _ => .answered (.buffer none)
  | getMetadataConfig => .answered (.buffer (some (coding.metadataConfig config)))
  | getMetadataConfigEasy urlSz =>
      if urlMaxAllowed < urlSz then .refused (.url (-einval) [] urlSz)
      else
        let (written, size) := snprintf urlSz (config.ip ++ ":" ++ toString config.port)
        .answered (.url 1 written size)
  | postObjectAcl objId requirement => given objId fun objId => given requirement fun requirement =>
      .asked c.myid "/postObjectAcl"
        [match Text.find objId ":" with
          | none => c.myid ++ ":" ++ objId
          | some _ => objId, requirement] .replied
  | endorse (some id) (some prop) (some val) =>
      .asked c.myid "/postEndorsement" [id, prop, val] .acknowledged
  | endorse _ _ _ => .refused (.int (-1))
  | endorsePrincipal ip _ _ _ property =>
      given ip fun _ => given property fun _ => .answered (.int 0)
  | endorseImage id _ property => given id fun id => given property fun property =>
      .asked c.myid "/postEndorsement" [id, property, ""] .acknowledged
  | endorseSource url rev _ property =>
      given url fun url => given rev fun rev => given property fun property =>
        .asked c.myid "/postEndorsement" [formatImageSource url rev, property, ""] .acknowledged
  | endorseMembership ip port _ master => given master fun master => constructed ip fun ip =>
      .asked c.myid "/postWorkerSet" [master, formatNetaddr ip (asInt port), "*"] .replied
  | endorseAttester id config | endorseBuilder id config => given id fun id =>
      .asked iaasIdentity "/postAttesterImage" [id, config.getD "*"] .replied
  | endorseImageSource id config sourceUrl sourceRev =>
      given id fun id => given sourceUrl fun sourceUrl => given sourceRev fun sourceRev =>
        .asked c.myid "/postImageProperty"
          [id, config.getD "*", formatImageSource sourceUrl sourceRev] .replied
  | revokePrincipal | revoke => .refused (.int (-1))
  | linkImage host image =>
      .asked c.myid "/postLinkImageOwner"
        [if host.getD "" = "" then c.myid else host.getD "", image.getD ""] .acknowledged
  | checkProperty ip port property => given ip fun ip => given property fun property =>
      .asked attestIdentity "/attestAppProperty" [formatNetaddr ip (asInt port), property]
        (.approved .checkProperty)
  | checkAccess ip port object => given ip fun ip => given object fun object =>
      .asked attestIdentity "/appAccessesObject" [formatNetaddr ip (asInt port), object]
        (.approved .checkAccess)
  | checkWorkerAccess ip port object => given ip fun ip => given object fun object =>
      .asked attestIdentity "/workerAccessesObject" [formatNetaddr ip (asInt port), object]
        (.approved .checkWorkerAccess)
  | checkImageProperty image config property =>
      constructed image fun image => constructed config fun config =>
        constructed property fun property =>
          .asked attestIdentity "/checkImgProperty" [image, config, property]
            (.approved .checkImageProperty)
  | checkAttestation none _ => .refused (.buffer none)
  | checkAttestation (some ip) port =>
      .attested c.myid "/attestInstance" [formatNetaddr ip (asInt port)]
  | freeCall cmd args => constructed cmd fun cmd =>
      .asked c.myid (MetadataServiceClient.callUrl cmd) args .acknowledged
  | guardCall cmd ip port args => constructed cmd fun cmd =>
      .asked c.myid (MetadataServiceClient.callUrl cmd) (guardAddress ip port :: args)
        (.approved .guardCall)

/-- The service's word: the message of a reply with status `200`. -/
def Outcome.Says (o : Outcome) (message : String) : Prop :=
  ∃ res fields, o = .replied res ∧ res.statusCode = statusOk ∧ res.body = .ok (.object fields) ∧
    fields.lookup "message" = some (.string message)

namespace Posted

variable (p : Posted) (env : Env) (d : Daemon) (s : Session)

/-- The daemon, once it has answered the command of session `s`. -/
def after : Daemon := (Manager.answer env (s.stamp p.cmd) d).2

/-- The daemon answers the command, once. -/
def Served : Prop := Manager.AnswersOnce env (s.stamp p.cmd) d

/-- The command is small enough for the receive buffer of a session, which does not receive a
larger one whole. -/
def Fits (coding : Coding) : Prop := (coding.command p.cmd).length ≤ recvBufsz

/-- The path of a free or a guard call is a URI. -/
def Parses : Prop := Manager.PathParses env.platform (s.stamp p.cmd)

/-- And the platform gets through each text that is logged. -/
def Survived : Prop :=
  p.Parses env s ∧
    ∀ text ∈ Manager.formats env (s.stamp p.cmd) d, env.platform.logs text = true

/-- What is returned for the daemon's response. -/
def result (failure : Response) : Returned := p.finish (postThrough env d s failure p.cmd)

end Posted

section Done

variable (coding : Coding) (env : Env) (d : Daemon) (s : Session) (failure : Response)

/-- The daemon after one request. -/
def afterRequest (speaker path : String) (values : List String) : Daemon :=
  { d with exchanges :=
      d.exchanges ++ [⟨formatRequest path speaker values "", env.replies d.exchanges.length⟩] }

/-- The requests of a creation: the instance, and with the key its configuration. -/
def creationExchanges (speaker : String) (p : Principal) : List Exchange :=
  let name := toString p.id ++ "_" ++ toString d.gn
  let posted := ⟨formatRequest "/postInstance" speaker
    [name, p.code.image, formatId p.auth.ip (asInt p.auth.portLo) (asInt p.auth.portHi),
      if p.code.imageStore = "" then speaker else p.code.imageStore] "",
    env.replies d.exchanges.length⟩
  match keyOutcome (env.replies d.exchanges.length) with
  | .error _ => [posted]
  | .ok _ => [posted, ⟨formatRequest "/postInstanceConfig" speaker
      (MetadataServiceClient.configStatements name (env.configOrder p.code.config.entries)) "",
      env.replies (d.exchanges.length + 1)⟩]

/-- The service accepts the creation: its first reply has a key, and there is a second reply. -/
def CreationAccepted : Prop :=
  (∃ key, keyOutcome (env.replies d.exchanges.length) = .ok key) ∧
    ∃ res, env.replies (d.exchanges.length + 1) = .replied res

/-- The daemon after a creation. -/
def afterCreation (speaker : String) (pid : UInt64) (p : Principal) (success : Bool) : Daemon :=
  { d with
    gn := d.gn + 1
    exchanges := d.exchanges ++ creationExchanges env d speaker p
    principals := if success
      then (p.id, { p with gn := d.gn, speaker := pid }) :: d.principals
      else d.principals }

/-- The daemon after the deletion of an id whose newest principal is `l`. -/
def afterErase (speaker : String) (uuid : UInt64) (l : Principal) : Daemon :=
  { d with
    principals := d.principals.filter fun e => e.1 ≠ uuid
    exchanges := d.exchanges ++
      [⟨formatRequest "/lazyDeleteInstance" speaker [toString l.id ++ "_" ++ toString l.gn] "",
        env.replies d.exchanges.length⟩] }

/-- The posted command is answered exactly when it survives, and leaves the daemon in `after`. -/
def Posted.Leaves (p : Posted) (after : Daemon) : Prop :=
  (p.Served env d s ↔ p.Survived env d s) ∧ (p.Parses env s → p.after env d s = after)

/-- The call did what it is for, seen from the service, the daemon's table and the caller. -/
def Effect.Done (x : Except Exit Posted) : Effect → Prop
  | refused r => x = .error (.returned r)
  | aborted => x = .error .aborted
  | asked speaker path values consent => ∃ p, x = .ok p ∧
      p.Leaves env d s (afterRequest env d speaker path values) ∧
      (p.Survived env d s → ∃ success : Bool,
        p.result env d s failure = .int (if success then 1 else 0) ∧
        (success = true ↔ consent.Given (env.replies d.exchanges.length)))
  | attested speaker path values => ∃ p, x = .ok p ∧
      p.Leaves env d s (afterRequest env d speaker path values) ∧
      (p.Survived env d s →
        (∀ message, (env.replies d.exchanges.length).Says message →
          p.result env d s failure = .buffer (some (coding.attestation { content := message }))) ∧
        ((∀ message, ¬ (env.replies d.exchanges.length).Says message) →
          p.result env d s failure = .buffer none ∨
            p.result env d s failure = .buffer (some (coding.attestation { content := "" }))))
  | answered r => ∃ p, x = .ok p ∧
      p.Served env d s ∧ p.after env d s = d ∧ p.result env d s failure = r
  | created speaker principal ret => ∃ p, x = .ok p ∧ ∃ success : Bool,
      (success = true ↔ CreationAccepted env d) ∧
      p.Leaves env d s (afterCreation env d speaker (s.stamp p.cmd).pid principal success) ∧
      (p.Survived env d s → p.result env d s failure = .int (ret (if success then 1 else 0)))
  | deleted speaker uuid => ∃ p, x = .ok p ∧
      (p.Served env d s ↔ p.Survived env d s) ∧
      (Manager.Erases env (s.stamp p.cmd) d → ∃ l, Manager.latest env d uuid = some l ∧
        p.after env d s = afterErase env d speaker uuid l) ∧
      (¬ Manager.Erases env (s.stamp p.cmd) d → p.after env d s = d) ∧
      (p.Survived env d s → ∃ success : Bool,
        p.result env d s failure = .int (if success then 1 else 0) ∧
        (success = true ↔ Manager.Erases env (s.stamp p.cmd) d ∧
          (env.replies d.exchanges.length).Acknowledged))

end Done

/-! ## The layers below -/

section Layers

variable {coding : Coding} {env : Env} {d : Daemon} {s : Session} {failure : Response}

/-- An ending that reports success exactly with the consent of the service. -/
def Ending.Heeds (ending : Ending) (consent : Consent) : Prop :=
  ∀ o, ∃ success info,
    orStatus ((ending.apply o).map some) = .ok (some (makeStatusResponse success info)) ∧
      (success = true ↔ consent.Given o)

lemma Ending.sink_heeds : Ending.sink.Heeds .replied := by
  intro o
  cases o with
  | failed e =>
      obtain ⟨text, htext⟩ := orStatus_of_caught (tame_get (.failed e) e.toExc rfl)
      exact ⟨false, text, htext, by simp [Consent.Given]⟩
  | replied res => exact ⟨true, "", rfl, by simp [Consent.Given]⟩

lemma Ending.json_heeds (msg : String) : (Ending.json msg).Heeds .acknowledged := by
  intro o
  rw [Ending.apply, Consent.Given, ← jsonOutcome_ok_iff msg]
  cases hj : jsonOutcome msg o with
  | ok v => exact ⟨true, "", rfl, by simp⟩
  | error e =>
      obtain ⟨text, htext⟩ := orStatus_of_caught (tame_jsonOutcome msg o e hj)
      exact ⟨false, text, htext, by simp⟩

lemma Ending.verdict_heeds (msg : String) {judge : String → Bool} {type : CommandType}
    (hjudge : ∀ message, judge message = true ↔ Approval type message) :
    (Ending.verdict msg judge).Heeds (.approved type) := by
  intro o
  obtain ⟨success, info, hstatus, hsuccess⟩ := verdict_status msg judge o
  exact ⟨success, info, hstatus, hsuccess.trans (judged_iff_approved msg hjudge o)⟩

/-- The status a caller is handed. -/
@[simp] lemma statusInt_status (success : Bool) (info : String) :
    (makeStatusResponse success info).statusInt = if success then 1 else 0 := by
  cases success <;> rfl

/-- What is answerable once its path parses is served exactly when it survives. -/
lemma served_iff {p : Posted}
    (h : p.Parses env s → Manager.Answerable env.platform (s.stamp p.cmd)) :
    p.Served env d s ↔ p.Survived env d s := by
  rw [Posted.Served, Manager.answersOnce_iff_answer, Manager.answer_isOk_iff, Posted.Survived]
  exact and_congr_left' ⟨Manager.Answerable.pathParses, h⟩

/-- A command that is planned as a request. -/
lemma leaves_of_ask {p : Posted} {speaker path : String} {values : List String} {ending : Ending}
    (hplan : p.Parses env s →
      planOf env (s.stamp p.cmd) = some (askFor speaker path values ending)) :
    p.Leaves env d s (afterRequest env d speaker path values) := by
  refine ⟨served_iff fun hpath => Manager.planOf_answerable (hplan hpath) id, fun hpath => ?_⟩
  rw [Posted.after, Manager.answer_ask env (hplan hpath) d]
  rfl

/-- The end of a request that survives. -/
lemma answer_of_survived {p : Posted} {speaker path : String} {values : List String}
    {ending : Ending} (hsurvived : p.Survived env d s)
    (hplan : planOf env (s.stamp p.cmd) = some (askFor speaker path values ending)) :
    (Manager.answer env (s.stamp p.cmd) d).1
      = orStatus ((ending.apply (env.replies d.exchanges.length)).map some) := by
  have hformats : Manager.formats env (s.stamp p.cmd) d
      = Manager.texts ending (env.replies d.exchanges.length) := by
    rw [Manager.formats, hplan]
    rfl
  have hlogs := hsurvived.2
  rw [hformats] at hlogs
  rw [Manager.answer_ask env hplan d, printing_of_logs hlogs]

/-- What is made of the daemon's answer. -/
lemma result_of_answer {p : Posted} {r : Response}
    (hanswer : (Manager.answer env (s.stamp p.cmd) d).1 = .ok (some r)) :
    p.result env d s failure = p.finish r := by
  rw [Posted.result, postThrough, hanswer]

lemma asked_done {cmd : Command} {speaker path : String} {values : List String} {ending : Ending}
    {consent : Consent} (hheeds : ending.Heeds consent)
    (hplan : (Posted.status cmd).Parses env s →
      planOf env (s.stamp cmd) = some (askFor speaker path values ending)) :
    (Effect.asked speaker path values consent).Done coding env d s failure
      (.ok (Posted.status cmd)) := by
  refine ⟨_, rfl, leaves_of_ask hplan, fun hsurvived => ?_⟩
  obtain ⟨success, info, hstatus, hiff⟩ := hheeds (env.replies d.exchanges.length)
  have hanswer := answer_of_survived hsurvived (hplan hsurvived.1)
  rw [hstatus] at hanswer
  refine ⟨success, (result_of_answer hanswer).trans ?_, hiff⟩
  simp only [Posted.status, statusInt_status]

lemma result_of_reply {p : Posted} {r : Response}
    (hplan : planOf env (s.stamp p.cmd) = some (.reply r)) :
    p.result env d s failure = p.finish r :=
  result_of_answer (congrArg Prod.fst (Manager.answer_reply env hplan d))

/-- A command that is answered without a request. -/
lemma answered_done {p : Posted} {r : Response}
    (hplan : planOf env (s.stamp p.cmd) = some (.reply r)) :
    (Effect.answered (p.finish r)).Done coding env d s failure (.ok p) := by
  have hanswer := Manager.answer_reply env hplan d
  refine ⟨p, rfl, ?_, congrArg Prod.snd hanswer, result_of_reply hplan⟩
  rw [Posted.Served, Manager.answersOnce_iff_answer, hanswer]
  exact ⟨r, rfl⟩

/-- A command that asks what the service says. -/
lemma attested_done {cmd : Command} {speaker path : String} {values : List String} {msg : String}
    (hplan : planOf env (s.stamp cmd) = some (askFor speaker path values (.attest msg))) :
    (Effect.attested speaker path values).Done coding env d s failure
      (.ok ⟨cmd,
        fun r => .buffer (r.extractAttestation.bind (wrapProtoMsg coding.attestation))⟩) := by
  refine ⟨_, rfl, leaves_of_ask fun _ => hplan, fun hsurvived => ?_⟩
  have hanswer := answer_of_survived hsurvived hplan
  have hspoken : ∀ message, (env.replies d.exchanges.length).Says message ↔
      messageOutcome msg (env.replies d.exchanges.length) = .ok message :=
    fun message => messageOutcome_eq_ok.symm
  simp only [hspoken, Posted.result, postThrough, hanswer, Ending.apply]
  cases hm : messageOutcome msg (env.replies d.exchanges.length) with
  | ok message =>
      refine ⟨fun message' h => ?_, fun h => absurd rfl (h message)⟩
      cases h
      rfl
  | error e =>
      have hcaught := tame_messageOutcome msg _ e hm
      refine ⟨fun message' h => absurd h (by simp), fun _ => ?_⟩
      cases e with
      | runtimeError what => exact .inr rfl
      | jsonException what => exact .inl rfl
      | httpException what => exact .inl rfl
      | _ => exact hcaught.elim

/-- The answer to a command whose handler has the table, once it survives. -/
lemma answer_of_table {p : Posted} {h : Handler} {x : Except Exc (Option Response)}
    (hh : Manager.findHandler env (s.stamp p.cmd).type = some h) (hx : (h (s.stamp p.cmd) d).1 = x)
    (hserved : p.Served env d s) :
    (Manager.answer env (s.stamp p.cmd) d).1 = orStatus x := by
  obtain ⟨r, hr⟩ := (Manager.answersOnce_iff_answer env _ d).mp hserved
  rw [Manager.answer_handler env hh d, hx] at hr ⊢
  rw [hr, (printing_eq_ok.mp hr).2]

/-- A creation that is sent. -/
lemma created_done {c : LatteClient} {msgId : Int64} (p : Principal) (ret : ℤ → ℤ) :
    (Effect.created c.myid p ret).Done coding env d s failure (creating c msgId (.sent p ret)) := by
  let posted : Posted := ⟨AttGuardClient.quickPost c.myid msgId .createPrincipal (.principal p),
    fun r => .int (ret r.statusInt)⟩
  have hanswerable : Manager.Answerable env.platform (s.stamp posted.cmd) := trivial
  have hserved := served_iff (d := d) (p := posted) fun _ => hanswerable
  have hh : Manager.findHandler env (s.stamp posted.cmd).type
      = some (Manager.createPrincipal env) := rfl
  have hanswer := Manager.answer_handler env hh d
  have hrun := Manager.createPrincipal_run env
    (show extractPrincipal (s.stamp posted.cmd) = some p from rfl) d
  refine ⟨posted, rfl, ?_⟩
  cases hkey : keyOutcome (env.replies d.exchanges.length) with
  | error e =>
      simp only [hkey] at hrun
      obtain ⟨text, htext⟩ := orStatus_of_caught (tame_keyOutcome _ e hkey)
      refine ⟨false, by simp [CreationAccepted, hkey], ⟨hserved, fun _ => ?_⟩,
        fun hsurvived => ?_⟩
      · rw [Posted.after, hanswer, hrun, afterCreation, creationExchanges, hkey]
        rfl
      · have hend := answer_of_table hh (congrArg Prod.fst hrun) (hserved.mpr hsurvived)
        exact result_of_answer (hend.trans htext)
  | ok key =>
      cases hget : env.replies (d.exchanges.length + 1) with
      | failed e =>
          simp only [hkey, hget, Outcome.get] at hrun
          obtain ⟨text, htext⟩ := orStatus_of_caught (tame_get (.failed e) e.toExc rfl)
          refine ⟨false, by simp [CreationAccepted, hget], ⟨hserved, fun _ => ?_⟩,
            fun hsurvived => ?_⟩
          · rw [Posted.after, hanswer, hrun, afterCreation, creationExchanges, hkey, hget]
            rfl
          · have hend := answer_of_table hh (congrArg Prod.fst hrun) (hserved.mpr hsurvived)
            exact result_of_answer (hend.trans htext)
      | replied res =>
          simp only [hkey, hget, Outcome.get] at hrun
          refine ⟨true, by simp [CreationAccepted, hkey, hget], ⟨hserved, fun _ => ?_⟩,
            fun hsurvived => ?_⟩
          · rw [Posted.after, hanswer, hrun, afterCreation, creationExchanges, hkey, hget]
            rfl
          · have hend := answer_of_table hh (congrArg Prod.fst hrun) (hserved.mpr hsurvived)
            exact result_of_answer hend

/-- A deletion that is sent. -/
lemma deleted_done {c : LatteClient} {msgId : Int64} (uuid : UInt64) :
    (Effect.deleted c.myid uuid).Done coding env d s failure (deleting (some c) msgId uuid) := by
  let posted : Posted := .status (liblatteDeletePrincipalWithoutAllocatedPorts c.myid msgId uuid)
  have hanswerable : Manager.Answerable env.platform (s.stamp posted.cmd) := trivial
  have hserved := served_iff (d := d) (p := posted) fun _ => hanswerable
  have hh : Manager.findHandler env (s.stamp posted.cmd).type
      = some (Manager.deletePrincipal env) := rfl
  have hanswer := Manager.answer_handler env hh d
  have hx : extractPrincipal (s.stamp posted.cmd) = some { id := uuid } := rfl
  refine ⟨posted, rfl, ?_⟩
  by_cases herases : Manager.Erases env (s.stamp posted.cmd) d
  · obtain ⟨-, p, l, hp, hl, hpriv⟩ := id herases
    cases hx.symm.trans hp
    have hrun := Manager.deletePrincipal_allowed env hx hl hpriv
    obtain ⟨success, text, hstatus, hiff⟩ :=
      Manager.deletion_status (env.replies d.exchanges.length)
    refine ⟨hserved, fun _ => ⟨l, hl, ?_⟩, fun h => absurd herases h,
      fun hsurvived => ⟨success, ?_, ?_⟩⟩
    · rw [Posted.after, hanswer, hrun]
      rfl
    · have hend := answer_of_table hh (congrArg Prod.fst hrun) (hserved.mpr hsurvived)
      rw [result_of_answer (hend.trans hstatus)]
      simp only [posted, Posted.status, statusInt_status]
    · rw [hiff]
      exact ⟨fun h => ⟨herases, h⟩, And.right⟩
  · have hkept : ∃ text, Manager.answer env (s.stamp posted.cmd) d
        = (.ok (some (makeStatusResponse false text)), d) := by
      cases hl : Manager.latest env d uuid with
      | none =>
          rw [Manager.deletePrincipal_absent env hx hl] at hanswer
          exact ⟨_, hanswer⟩
      | some l =>
          have hpriv : ¬ (l.speaker = s.pid ∨ s.uid = 0) :=
            fun hpriv => herases ⟨rfl, _, l, hx, hl, hpriv⟩
          rw [Manager.deletePrincipal_refused env hx hl hpriv] at hanswer
          exact ⟨_, hanswer⟩
    obtain ⟨text, hkept⟩ := hkept
    refine ⟨hserved, fun h => absurd h herases, fun _ => congrArg Prod.snd hkept,
      fun _ => ⟨false, ?_, iff_of_false (by simp) fun h => herases h.1⟩⟩
    rw [result_of_answer (congrArg Prod.fst hkept)]
    simp only [posted, Posted.status, statusInt_status]

/-- A creation, as its entry point ends. -/
lemma creating_done {c : LatteClient} {msgId : Int64} (o : CallOutcome) :
    (o.effect c.myid).Done coding env d s failure (creating c msgId o) := by
  cases o with
  | refused code => exact rfl
  | aborted => exact rfl
  | sent p ret => exact created_done p ret

/-- A pointer that is tested. -/
lemma given_done {ptr : Option String} {k : String → Effect} {x : String → Except Exit Posted}
    (h : ∀ text, (k text).Done coding env d s failure (x text)) :
    (Effect.given ptr k).Done coding env d s failure (checkText ptr >>= x) := by
  cases ptr with
  | none => exact rfl
  | some text => exact h text

/-- A pointer that a text is made of. -/
lemma constructed_done {ptr : Option String} {k : String → Effect}
    {x : String → Except Exit Posted}
    (h : ∀ text, (k text).Done coding env d s failure (x text)) :
    (Effect.constructed ptr k).Done coding env d s failure (constructText ptr >>= x) := by
  cases ptr with
  | none => exact rfl
  | some text => exact h text

/-- A call whose command survives is answered. -/
lemma Effect.Done.served {effect : Effect} {p : Posted}
    (h : effect.Done coding env d s failure (.ok p)) (hsurvived : p.Survived env d s) :
    p.Served env d s := by
  cases effect with
  | refused r => cases h
  | aborted => cases h
  | asked speaker path values consent =>
      obtain ⟨_, hp, hleaves, -⟩ := h
      cases hp
      exact hleaves.1.mpr hsurvived
  | attested speaker path values =>
      obtain ⟨_, hp, hleaves, -⟩ := h
      cases hp
      exact hleaves.1.mpr hsurvived
  | answered r =>
      obtain ⟨_, hp, hserved, -⟩ := h
      cases hp
      exact hserved
  | created speaker p ret =>
      obtain ⟨_, hp, success, -, hleaves, -⟩ := h
      cases hp
      exact hleaves.1.mpr hsurvived
  | deleted speaker uuid =>
      obtain ⟨_, hp, hserved, -⟩ := h
      cases hp
      exact hserved.mpr hsurvived

end Layers

/-! ## Every call has its effect -/

namespace LibCall

variable (coding : Coding) (env : Env) (d : Daemon) (s : Session) (failure : Response)

/-- **The case of each call.** -/
lemma run_done (call : LibCall) (c : LatteClient) (msgId : Int64) :
    (call.effect coding env.metadataConfig c).Done coding env d s failure
      (call.run coding (some c) msgId) := by
  cases call with
  | create v call => exact creating_done (call.run c.myip v)
  | createPrincipal v uuid image config nport => exact creating_done _
  | createPrincipalWithAllocatedPorts uuid image config ip portLo portHi => exact creating_done _
  | createImage imageHash sourceUrl sourceRev miscConf =>
      exact given_done fun imageHash => given_done fun sourceUrl =>
        asked_done Ending.sink_heeds fun _ => rfl
  | delete uuid => exact deleted_done uuid
  | getPrincipal ip lo =>
      cases ip with
      | none => exact rfl
      | some ip => exact answered_done (r := notImplemented) rfl
  | getLocalPrincipal uuid => exact answered_done (r := notImplemented) rfl
  | getMetadataConfig => exact answered_done (r := makeMetadataConfigResponse _) rfl
  | getMetadataConfigEasy urlSz =>
      rw [effect, run, liblatteGetMetadataConfigEasy]
      by_cases hsz : urlMaxAllowed < urlSz
      · simp only [hsz, if_true]
        exact rfl
      · simp only [hsz, if_false]
        exact answered_done (r := makeMetadataConfigResponse _) rfl
  | postObjectAcl objId requirement =>
      exact given_done fun objId => given_done fun requirement =>
        asked_done Ending.sink_heeds fun _ => rfl
  | endorse id prop val =>
      cases id with
      | none => exact rfl
      | some id =>
          cases prop with
          | none => exact rfl
          | some prop =>
              cases val with
              | none => exact rfl
              | some val => exact asked_done (Ending.json_heeds _) fun _ => rfl
  | endorsePrincipal ip port gn type property =>
      exact given_done fun ip => given_done fun property =>
        answered_done (r := notImplemented) rfl
  | endorseImage id config property =>
      cases id with
      | none => exact rfl
      | some id =>
          cases property with
          | none => exact rfl
          | some property => exact asked_done (Ending.json_heeds _) fun _ => rfl
  | endorseSource url rev config property =>
      exact given_done fun url => given_done fun rev => given_done fun property =>
        asked_done (Ending.json_heeds _) fun _ => rfl
  | endorseMembership ip port gn master =>
      exact given_done fun master => constructed_done fun ip =>
        asked_done Ending.sink_heeds fun _ => rfl
  | endorseAttester id config =>
      cases id with
      | none => exact rfl
      | some id => exact asked_done Ending.sink_heeds fun _ => rfl
  | endorseBuilder id config =>
      cases id with
      | none => exact rfl
      | some id => exact asked_done Ending.sink_heeds fun _ => rfl
  | endorseImageSource id config sourceUrl sourceRev =>
      cases id with
      | none => exact rfl
      | some id =>
          cases sourceUrl with
          | none => exact rfl
          | some sourceUrl =>
              cases sourceRev with
              | none => exact rfl
              | some sourceRev => exact asked_done Ending.sink_heeds fun _ => rfl
  | revokePrincipal => exact rfl
  | revoke => exact rfl
  | linkImage host image => exact asked_done (Ending.json_heeds _) fun _ => rfl
  | checkProperty ip port property =>
      exact given_done fun ip => given_done fun property =>
        asked_done (Ending.verdict_heeds _ (mentions_iff "programHasProperty")) fun _ => rfl
  | checkAccess ip port object =>
      exact given_done fun ip => given_done fun object =>
        asked_done (Ending.verdict_heeds _ (mentions_iff "approveAccess")) fun _ => rfl
  | checkWorkerAccess ip port object =>
      exact given_done fun ip => given_done fun object =>
        asked_done (Ending.verdict_heeds _ (mentions_iff "approveAccess")) fun _ => rfl
  | checkImageProperty image config property =>
      exact constructed_done fun image => constructed_done fun config =>
        constructed_done fun property =>
          asked_done (Ending.verdict_heeds _ (mentions_iff "hasSafetyProperty")) fun _ => rfl
  | checkAttestation ip port =>
      cases ip with
      | none => exact rfl
      | some ip => exact attested_done rfl
  | freeCall cmd args =>
      refine constructed_done fun cmd =>
        asked_done (Ending.json_heeds (Text.cString (MetadataServiceClient.callUrl cmd)))
          fun hpath => ?_
      exact congrArg some (if_pos (hpath.1 rfl _ rfl))
  | guardCall cmd ip port args =>
      refine constructed_done fun cmd =>
        asked_done (Ending.verdict_heeds (Text.cString (MetadataServiceClient.callUrl cmd))
          not_mentions_iff) fun hpath => ?_
      exact congrArg some (if_pos (hpath.2 rfl _ rfl))

/-- A library that is not initialised posts nothing. -/
lemma run_uninitialised (call : LibCall) (msgId : Int64) :
    ∃ e, call.run coding none msgId = .error e := by
  cases call with
  | create v call =>
      cases call with
      | createPrincipalNew uuid image config nport newIp => exact ⟨_, rfl⟩
      | createInstance pid image ip nport store args =>
          rw [run, creatingNew]
          split_ifs <;> exact ⟨_, rfl⟩
  | endorse id prop val => cases id <;> cases prop <;> cases val <;> exact ⟨_, rfl⟩
  | _ => exact ⟨_, rfl⟩

/-- What a call posts is answered, if it survives. -/
lemma run_served {call : LibCall} {lib : Option LatteClient} {msgId : Int64} {p : Posted}
    (hrun : call.run coding lib msgId = .ok p) (hsurvived : p.Survived env d s) :
    p.Served env d s := by
  cases lib with
  | none =>
      obtain ⟨e, he⟩ := call.run_uninitialised coding msgId
      rw [he] at hrun
      cases hrun
  | some c =>
      have hdone := call.run_done coding env d s notImplemented c msgId
      rw [hrun] at hdone
      exact hdone.served hsurvived

end LibCall

/-- A call that a process makes: its library, the session the daemon has for it, and the number
drawn for the command. -/
structure ProcessCall where
  lib : Option LatteClient
  session : Session
  msgId : Int64
  call : LibCall

namespace ProcessCall

variable (coding : Coding) (m : ProcessCall)

/-- The command that reaches the daemon, if the call posts one. -/
def command : Option Command :=
  match m.call.run coding m.lib m.msgId with
  | .ok p => some (m.session.stamp p.cmd)
  | .error _ => none

/-- What the call posts is small enough for the receive buffer of the session. -/
def Fits : Prop := ∀ p, m.call.run coding m.lib m.msgId = .ok p → p.Fits coding

/-- The path of a free or a guard call is a URI without a directive. -/
def PathGood (platform : Platform) : Prop :=
  ∀ cmd ∈ m.command coding, Manager.PathParses platform cmd ∧ PathPlain cmd

variable {coding m}

lemma answered {cmd : Command} (h : m.command coding = some cmd) {env : Env}
    (hpath : m.PathGood coding env.platform)
    (hservice : ∀ n, (env.replies n).Plain) (d : Daemon) :
    Manager.AnswersOnce env cmd d := by
  obtain ⟨hparses, hplain⟩ := hpath cmd h
  rw [command] at h
  cases hrun : m.call.run coding m.lib m.msgId with
  | error e =>
      rw [hrun] at h
      cases h
  | ok p =>
      rw [hrun] at h
      cases h
      exact LibCall.run_served coding env d m.session hrun
        ⟨hparses, Manager.formats_logs hplain hservice d⟩

end ProcessCall

namespace Manager

end Manager

end Libport
