import Libport.Proto.Message
import Libport.Server.Metadata

/-!
# The attestation manager (`server/manager.cc`)

`LatteAttestationManager` answers the commands of the guard daemon.  Its state is the table of
local principals, the generation counter, the exchanges with the metadata service and the
responses handed to the writer.

* `Env` collects what the manager is run with and does not control: the platform, the outcomes of
  the HTTP requests, the configured metadata address, and the iteration orders of the two unordered
  containers, which are permutations of their contents and nothing more.
* Each handler is a member function of the class, under the same name; a pointer that may be null
  is an `Option` and is read through `deref`.
* **`dispatch`** selects the handler, runs it under the three `catch` clauses and calls the
  writer.
-/

namespace Libport

/-- The environment a manager runs in. -/
structure Env where
  /-- what `log` and `web::uri` do with a text -/
  platform : Platform
  /-- what becomes of the `n`-th HTTP request -/
  replies : ℕ → Outcome
  /-- the order in which `principals_` is iterated -/
  bucketOrder : List (UInt64 × Principal) → List (UInt64 × Principal)
  bucketOrder_perm : ∀ l, (bucketOrder l).Perm l
  /-- the order in which the copied configuration map is iterated -/
  configOrder : List (String × String) → List (String × String)
  configOrder_perm : ∀ l, (configOrder l).Perm l
  /-- `config::metadata_service_ip` and `config::metadata_service_port` -/
  metadataConfig : MetadataConfig

/-- The environment in which both containers iterate in the order they are listed in, on the
strict platform. -/
def Env.inOrder (replies : ℕ → Outcome) : Env where
  platform := .strict
  replies := replies
  bucketOrder := id
  bucketOrder_perm := fun _ => List.Perm.refl _
  configOrder := id
  configOrder_perm := fun _ => List.Perm.refl _
  metadataConfig := {}

/-- The state of the daemon. -/
structure Daemon where
  /-- `principals_`, an `unordered_multimap` from ids to principals -/
  principals : List (UInt64 × Principal) := []
  /-- `gn_`, the next generation number -/
  gn : UInt64 := 0
  /-- the HTTP requests made so far, with their outcomes -/
  exchanges : List Exchange := []
  /-- the pointers the writer was called with -/
  written : List (Option Response) := []

def legacyConfigKey : String := "LEGACY_CONFIG_STRING"

/-- `config().at(key)`: protobuf's `Map::at` raises a fatal error on a missing key. -/
def ConfigMap.at {σ : Type} (m : ConfigMap) (key : String) : Action Exc σ String :=
  match m.find? key with
  | some value => pure value
  | none => Action.throw (.fatalException ("key not found: " ++ key))

/-- A member function of the manager that answers one command. -/
abbrev Handler : Type := Command → Action Exc Daemon (Option Response)

/-- Return a freshly made response, as a non-null pointer. -/
def respond {σ : Type} (r : Response) : Action Exc σ (Option Response) := pure (some r)

/-- `return make_shared_status_response(success, msg)`. -/
def status {σ : Type} (success : Bool) (msg : String) : Action Exc σ (Option Response) :=
  respond (makeStatusResponse success msg)

/-- A call of `metadata_service_`. -/
def service {α : Type} (op : Action Exc (List Exchange) α) : Action Exc Daemon α :=
  Action.zoom Daemon.exchanges (fun log d => { d with exchanges := log }) op

/-- The text that the `catch` clause for an exception makes of it, where there is one. -/
def Exc.errmsg : Exc → Option String
  | .runtimeError what => some ("runtime error " ++ what)
  | .jsonException what => some ("json error " ++ what)
  | .httpException what => some ("http error " ++ what)
  | .fatalException _ => none
  | .uriException => none
  | .nullPointer => none
  | .undefined => none

namespace Manager

def principalName (p : Principal) : String := toString p.id ++ "_" ++ toString p.gn

/-- `gn()`: return the counter and step it. -/
def nextGn : Action Exc Daemon UInt64 := do
  let d ← Action.get
  Action.modify fun d => { d with gn := d.gn + 1 }
  pure d.gn

def addPrincipal (id : UInt64) (p : Principal) : Action Exc Daemon Unit :=
  Action.modify fun d => { d with principals := (id, p) :: d.principals }

/-- `principals_.erase(matched.first, matched.second)`. -/
def erasePrincipals (id : UInt64) : Action Exc Daemon Unit :=
  Action.modify fun d => { d with principals := d.principals.filter fun e => e.1 ≠ id }

/-- The loop that looks for the latest generation: `(maxgn, latest)` after the entries. -/
def scanLatest : List (UInt64 × Principal) → UInt64 → Option Principal → Option Principal
  | [], _, latest => latest
  | (_, p) :: rest, maxgn, latest =>
      if maxgn ≤ p.gn then scanLatest rest p.gn (some p) else scanLatest rest maxgn latest

variable (env : Env)

/-- `principals_.equal_range(id)`, in iteration order. -/
def equalRange (principals : List (UInt64 × Principal)) (id : UInt64) :
    List (UInt64 × Principal) :=
  env.bucketOrder (principals.filter fun e => e.1 = id)

/-- The principal the two lookup loops select for `id`. -/
def latest (d : Daemon) (id : UInt64) : Option Principal :=
  scanLatest (equalRange env d.principals id) 0 none

/-! ## The handlers -/

def freeCall : Handler := fun cmd => do
  let freecall ← deref (extractFreeCall cmd)
  let res ← service (MetadataServiceClient.freeCall env.platform env.replies cmd.auth freecall.cmd
    freecall.otherValues)
  status res ""

def guardCall : Handler := fun cmd => do
  let guardcall ← deref (extractGuardCall cmd)
  let res ← service (MetadataServiceClient.guardCall env.platform env.replies cmd.auth guardcall.cmd
    guardcall.otherValues)
  status res ""

/-- `link_image`: an empty host means the speaker. -/
def linkImage : Handler := fun cmd => do
  let linkimage ← deref (extractLinkImage cmd)
  let host := if linkimage.host = "" then cmd.auth else linkimage.host
  let res ← service (MetadataServiceClient.linkImage env.platform env.replies cmd.auth host
    linkimage.image)
  status res ""

def createPrincipal : Handler := fun cmd =>
  match extractPrincipal cmd with
  | none => status false "principal not found or mal-formed"
  | some p => do
      let gn ← nextGn
      let p := { p with gn := gn }
      let imageStore := if p.code.imageStore = "" then cmd.auth else p.code.imageStore
      let _ ← service (MetadataServiceClient.createInstance env.platform env.replies cmd.auth
        (principalName p) p.code.image p.auth.ip p.auth.portLo p.auth.portHi imageStore
        (env.configOrder p.code.config.entries))
      let p := { p with speaker := cmd.pid }
      addPrincipal p.id p
      status true ""

/-- `delete_principal`.  The privilege test looks at the latest generation, the erase removes
every generation. -/
def deletePrincipal : Handler := fun cmd =>
  match extractPrincipal cmd with
  | none => status false "principal not found or mal-formed"
  | some p => do
      let d ← Action.get
      let newest := latest env d p.id
      if newest.any (fun l => l.speaker ≠ cmd.pid ∧ cmd.uid ≠ 0) then
        status false "privilege not matching"
      else
        erasePrincipals p.id
        match newest with
        | some l =>
            let _ ← service (MetadataServiceClient.deleteInstance env.platform env.replies cmd.auth
              (principalName l))
            status true ""
        | none => status false "latest principal not found"

/-- `get_principal`, `endorse_principal`, `revoke_principal` and `revoke` are one body. -/
def unimplemented : Handler := fun _ => respond notImplemented

def getPrincipal : Handler := unimplemented

def endorsePrincipal : Handler := unimplemented

def revokePrincipal : Handler := unimplemented

def revoke : Handler := unimplemented

/-- `endorse`: only the first endorsement counts. -/
def endorse : Handler := fun cmd => do
  let endorse ← deref (extractEndorse cmd)
  match endorse.endorsements with
  | [] => status false "must provide at least one property"
  | e :: _ =>
      let _ ← service (MetadataServiceClient.endorse env.platform env.replies cmd.auth endorse.id
        e.property e.value)
      status true ""

def getLocalPrincipal : Handler := fun cmd =>
  match extractPrincipal cmd with
  | none => status false "principal not found or mal-formed"
  | some p => do
      let d ← Action.get
      match latest env d p.id with
      | some l => respond (makePrincipalResponse l)
      | none => status false "not found"

def getMetadataConfig : Handler := fun _ => respond (makeMetadataConfigResponse env.metadataConfig)

/-- `post_acl`: only the first policy counts. -/
def postAcl : Handler := fun cmd => do
  let acl ← deref (extractPostAcl cmd)
  match acl.policies with
  | [] => status false "must provide one policy"
  | policy :: _ =>
      service (MetadataServiceClient.postObjectAcl env.platform env.replies cmd.auth acl.name
        policy)
      status true ""

def endorseMembership : Handler := fun cmd => do
  let endorseP ← deref (extractEndorsePrincipal cmd)
  match endorseP.endorsements with
  | [] => status false "must provide one endorsement"
  | statement :: _ =>
      let target := endorseP.principal
      let targetConfig ← target.code.config.at legacyConfigKey
      service (MetadataServiceClient.endorseMembership env.platform env.replies cmd.auth
        target.auth.ip target.auth.portLo target.gn statement.property targetConfig)
      status true ""

def endorseAttester : Handler := fun cmd => do
  let endorse ← deref (extractEndorse cmd)
  let config ← endorse.config.at legacyConfigKey
  if endorse.type = .source then
    service (MetadataServiceClient.endorseAttesterOnSource env.platform env.replies cmd.auth
      endorse.id config)
  else
    service (MetadataServiceClient.endorseAttester env.platform env.replies cmd.auth endorse.id
      config)
  status true ""

def endorseBuilder : Handler := fun cmd => do
  let endorse ← deref (extractEndorse cmd)
  match endorse.endorsements with
  | [] => status false "must provide one endorsement"
  | _ :: _ =>
      let config ← endorse.config.at legacyConfigKey
      if endorse.type = .source then
        service (MetadataServiceClient.endorseBuilderOnSource env.platform env.replies cmd.auth
          endorse.id config)
      else
        service (MetadataServiceClient.endorseBuilder env.platform env.replies cmd.auth endorse.id
          config)
      status true ""

def endorseSource : Handler := fun cmd => do
  let endorse ← deref (extractEndorse cmd)
  match endorse.endorsements with
  | [] => status false "must provide one endorsement"
  | statement :: _ =>
      let config ← endorse.config.at legacyConfigKey
      if endorse.type = .source then
        status false "source endorse this is image only"
      else
        service (MetadataServiceClient.endorseImage env.platform env.replies cmd.auth endorse.id
          statement.property config)
        status true ""

def checkProperty : Handler := fun cmd => do
  let check ← deref (extractCheckProperty cmd)
  match check.properties with
  | [] => status false "must provide one property"
  | prop :: _ =>
      let res ← service (MetadataServiceClient.hasProperty env.platform env.replies cmd.auth
        check.principal.auth.ip check.principal.auth.portLo prop "")
      status res ""

def checkAttestation : Handler := fun cmd => do
  let attest ← deref (extractCheckAttestation cmd)
  let content ← service (MetadataServiceClient.attest env.platform env.replies cmd.auth
    attest.principal.auth.ip attest.principal.auth.portLo "")
  respond (makeAttestationResponse { content := content })

def checkAccess : Handler := fun cmd => do
  let check ← deref (extractCheckAccess cmd)
  match check.objects with
  | [] => status false "must provide one object"
  | object :: _ =>
      let res ← service (MetadataServiceClient.canAccess env.platform env.replies cmd.auth
        check.principal.auth.ip check.principal.auth.portLo object "")
      status res ""

def checkWorkerAccess : Handler := fun cmd => do
  let check ← deref (extractCheckAccess cmd)
  match check.objects with
  | [] => status false "must provide one object"
  | object :: _ =>
      let res ← service (MetadataServiceClient.canWorkerAccess env.platform env.replies cmd.auth
        check.principal.auth.ip check.principal.auth.portLo object "")
      status res ""

def checkImageProperty : Handler := fun cmd => do
  let check ← deref (extractCheckImage cmd)
  match check.property with
  | [] => status false "must provide one property"
  | property :: _ =>
      let config ← check.config.at legacyConfigKey
      let res ← service (MetadataServiceClient.imageHasProperty env.platform env.replies cmd.auth
        check.image config property)
      status res ""

/-! ## Dispatch -/

/-- `find_handler` on the table that `init` registers.  `ENDORSE_IMAGE_PROPERTY` is a named
command type without a handler. -/
def findHandler : CommandType → Option Handler
  | .createPrincipal => some (createPrincipal env)
  | .deletePrincipal => some (deletePrincipal env)
  | .getPrincipal => some getPrincipal
  | .endorsePrincipal => some endorsePrincipal
  | .revokePrincipalEndorsement => some revokePrincipal
  | .endorse => some (endorse env)
  | .revoke => some revoke
  | .getLocalPrincipal => some (getLocalPrincipal env)
  | .getMetadataConfig => some (getMetadataConfig env)
  | .postAcl => some (postAcl env)
  | .endorseMembership => some (endorseMembership env)
  | .endorseAttesterImage => some (endorseAttester env)
  | .endorseBuilderImage => some (endorseBuilder env)
  | .endorseSourceImage => some (endorseSource env)
  | .checkProperty => some (checkProperty env)
  | .checkAttestation => some (checkAttestation env)
  | .checkAccess => some (checkAccess env)
  | .checkWorkerAccess => some (checkWorkerAccess env)
  | .checkImageProperty => some (checkImageProperty env)
  | .freeCall => some (freeCall env)
  | .guardCall => some (guardCall env)
  | .linkImage => some (linkImage env)
  | .endorseImageProperty => none
  | .unrecognized _ => none

/-- The three `catch` clauses of `dispatch`: the text is logged, as the format, and answered. -/
def catchClauses (e : Exc) : Option (Action Exc Daemon (Option Response)) :=
  e.errmsg.map fun errmsg => do
    Action.ofExcept (env.platform.log errmsg)
    status false errmsg

/-- `dispatch` up to the call of the writer. -/
def answer : Handler := fun cmd =>
  match findHandler env cmd.type with
  | some handler => (handler cmd).catching (catchClauses env)
  | none => status false ("not handler found for type " ++ cmd.type.name)

def dispatch (cmd : Command) (w : Option Response → Action Exc Daemon Unit) :
    Action Exc Daemon Bool := do
  let result ← answer env cmd
  w result
  pure true

/-- The writer of a session, as far as the daemon can tell: the pointer is recorded. -/
def record (r : Option Response) : Action Exc Daemon Unit :=
  Action.modify fun d => { d with written := d.written ++ [r] }

/-- Answer one command and record the response. -/
def serve (cmd : Command) : Action Exc Daemon Unit := do
  let _ ← dispatch env cmd record
  pure ()

end Manager

end Libport
