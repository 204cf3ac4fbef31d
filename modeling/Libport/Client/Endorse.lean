import Libport.Server.Session
import Libport.Server.Speaker

/-!
# Endorsements, from the library call to the statement (`client/client.cc`)

An endorsement passes four layers: the entry point of the library, the method of
`AttGuardClient` that builds the command, the handler that the command type selects, and the
operation of the metadata client.  Each layer names the role of the endorsement again.

* `prepare` and the methods of `AttGuardClient` build the commands; `liblatteEndorse…` are the
  entry points.
* `Role.path` is where the metadata service takes the statement of a role, and
  `EndorseCall.arguments` is the statement a call asks for.
* `EndorseCall.statement` is the statement that is posted for a call, and `posted_eq` follows the
  four layers to it.
* **`endorsement_iff`**: the statement posted is the one asked for, if and only if the role is
  attester; it is the statement of another role for a builder and for an image source.
* `builder_posts_attester`: an image endorsed as a builder, granted as an attester.
-/

namespace Libport

/-! ## The commands of the client -/

def einval : ℤ := 22

/-- `prepare`, with the random number it draws for the command. -/
def prepare (id : Int64) (type : CommandType) (statement : Message) (auth : String) : Command :=
  { id := id, type := type, auth := auth, statement := .packed statement }

/-- `set_type`, a `static_cast` of an `int`. -/
def EndorsementType.ofInt (value : Int32) : EndorsementType :=
  if value = 0 then .membership
  else if value = 1 then .attester
  else if value = 2 then .builder
  else if value = 3 then .source
  else if value = 4 then .other
  else .unrecognized value

/-- An `Endorse::Type` passed as an `int`. -/
def EndorseType.toInt : EndorseType → Int32
  | image => 0
  | source => 1
  | unrecognized value => value

namespace AttGuardClient

variable (myid : String) (msgId : Int64)

/-- The command that `quick_post` posts. -/
def quickPost (type : CommandType) (statement : Message) : Command :=
  prepare msgId type statement myid

/-- `_endorse`. -/
def endorse (id config : String) (stmtType : EndorseType) (endorseType : Int32)
    (property : String) : Command :=
  quickPost myid msgId .endorse (.endorse
    { id := id
      type := stmtType
      endorsements := [{ type := .ofInt endorseType, property := property }]
      config := .single legacyConfigKey config })

def endorseImage (id config : String) (type : Int32) (property : String) : Command :=
  endorse myid msgId id config .image type property

def endorseMembership (ip : String) (port : UInt32) (gn : UInt64) (property : String) : Command :=
  quickPost myid msgId .endorseMembership (.endorsePrincipal
    { principal :=
        { gn := gn
          auth := { ip := ip, portLo := port }
          code := { config := .single legacyConfigKey "*" } }
      endorsements := [{ type := .membership, property := property }] })

def endorseAttester (id config : String) : Command :=
  quickPost myid msgId .endorseAttesterImage (.endorse
    { id := id
      endorsements := [{ type := .attester }]
      config := .single legacyConfigKey config })

def endorseBuilder (id config : String) : Command :=
  quickPost myid msgId .endorseBuilderImage (.endorse
    { id := id
      endorsements := [{ type := .builder }]
      config := .single legacyConfigKey config })

def endorseSource (id config source : String) : Command :=
  quickPost myid msgId .endorseSourceImage (.endorse
    { id := id
      endorsements := [{ type := .source, property := source }]
      config := .single legacyConfigKey config })

end AttGuardClient

/-! ## The entry points -/

/-- `CHECK_NULL_PTR`. -/
def checkNullPtr : Option String → Except ℤ String
  | some s => .ok s
  | none => .error einval

section EntryPoints

variable (myid : String) (msgId : Int64)

def liblatteEndorseImage (id config property : Option String) : Except ℤ Command := do
  let id ← checkNullPtr id
  let property ← checkNullPtr property
  pure (AttGuardClient.endorseImage myid msgId id (config.getD "*") EndorseType.image.toInt
    property)

/-- `liblatte_endorse_membership`; the address is not tested for null. -/
def liblatteEndorseMembership (ip : String) (port : UInt32) (gn : UInt64)
    (master : Option String) : Except ℤ Command := do
  let master ← checkNullPtr master
  pure (AttGuardClient.endorseMembership myid msgId ip port gn master)

def liblatteEndorseAttester (id config : Option String) : Except ℤ Command := do
  let id ← checkNullPtr id
  pure (AttGuardClient.endorseAttester myid msgId id (config.getD "*"))

/-- `liblatte_endorse_builder`, which calls `endorse_attester`. -/
def liblatteEndorseBuilder (id config : Option String) : Except ℤ Command := do
  let id ← checkNullPtr id
  pure (AttGuardClient.endorseAttester myid msgId id (config.getD "*"))

def liblatteEndorseImageSource (id config sourceUrl sourceRev : Option String) :
    Except ℤ Command := do
  let id ← checkNullPtr id
  let sourceUrl ← checkNullPtr sourceUrl
  let sourceRev ← checkNullPtr sourceRev
  pure (AttGuardClient.endorseSource myid msgId id (config.getD "*")
    (formatImageSource sourceUrl sourceRev))

end EntryPoints

/-! ## Roles -/

inductive Role
  | attester | builder | membership | imageProperty | imageSource
deriving DecidableEq

/-- The path of the metadata client's own operation for a role. -/
def Role.path : Role → String
  | attester => "/postAttesterImage"
  | builder => "/postBuilderImage"
  | membership => "/postWorkerSet"
  | imageProperty => "/postImageProperty"
  | imageSource => "/postImageSource"

/-- A call that endorses, without null pointers. -/
inductive EndorseCall
  | attester (id config : String)
  | builder (id config : String)
  | membership (ip : String) (port : UInt32) (gn : UInt64) (master : String)
  | imageProperty (id config property : String)
  | imageSource (id config sourceUrl sourceRev : String)

namespace EndorseCall

/-- The role the entry point is named after. -/
def role : EndorseCall → Role
  | attester .. => .attester
  | builder .. => .builder
  | membership .. => .membership
  | imageProperty .. => .imageProperty
  | imageSource .. => .imageSource

/-- What the statement has to say: the arguments of the call, in the order of the metadata
client's operation. -/
def arguments : EndorseCall → List String
  | attester id config => [id, config]
  | builder id config => [id, config]
  | membership ip port gn master => [master, formatNetaddr ip (asInt port), toString gn, "*"]
  | imageProperty id config property => [id, config, property]
  | imageSource id config sourceUrl sourceRev =>
      [id, config, formatImageSource sourceUrl sourceRev]

/-- Run the entry point, in a library initialised as `myid`. -/
def run (myid : String) (msgId : Int64) : EndorseCall → Except ℤ Command
  | attester id config => liblatteEndorseAttester myid msgId id config
  | builder id config => liblatteEndorseBuilder myid msgId id config
  | membership ip port gn master => liblatteEndorseMembership myid msgId ip port gn master
  | imageProperty id config property => liblatteEndorseImage myid msgId id config property
  | imageSource id config sourceUrl sourceRev =>
      liblatteEndorseImageSource myid msgId id config sourceUrl sourceRev

end EndorseCall

/-- What a request states: the operation of the service and its arguments. -/
def Request.statement (req : Request) : String × List String := (req.path, req.otherValues)

namespace EndorseCall

variable (call : EndorseCall) (myid : String) (msgId : Int64) (s : Session) (env : Env)
  (d : Daemon)

/-- The statements posted for a call that reaches the daemon through session `s`. -/
def posted : List (String × List String) :=
  match call.run myid msgId with
  | .ok cmd => (Manager.posted env (s.stamp cmd) d).map fun e => e.request.statement
  | .error _ => []

/-- Every statement posted is the one of the call's role with the call's arguments. -/
def Survives : Prop := call.posted myid msgId s env d = [(call.role.path, call.arguments)]

/-- What is posted is a statement of the call's role. -/
def KeepsRole : Prop := ∃ values, call.posted myid msgId s env d = [(call.role.path, values)]

/-- A statement of another role is posted. -/
def GrantsAnother : Prop :=
  ∃ statement ∈ call.posted myid msgId s env d, ∃ r ≠ call.role, statement.1 = r.path

/-! ## The statement that is posted -/

/-- The statement posted for a call. -/
def statement : EndorseCall → String × List String
  | attester id config => ("/postAttesterImage", [id, config])
  | builder id config => ("/postAttesterImage", [id, config])
  | membership ip port _ master =>
      ("/postWorkerSet", [master, formatNetaddr ip (asInt port), "*"])
  | imageProperty id _ property => ("/postEndorsement", [id, property, ""])
  | imageSource id config sourceUrl sourceRev =>
      ("/postImageProperty", [id, config, formatImageSource sourceUrl sourceRev])

end EndorseCall

/-- A plan that asks posts its request and nothing else. -/
lemma Manager.posted_ask {env : Env} {cmd : Command} {req : Request} {ending : Ending}
    (hp : planOf env cmd = some (.ask req ending)) (d : Daemon) :
    (Manager.posted env cmd d).map (fun e => e.request.statement) = [req.statement] := by
  rw [Manager.posted_eq, Manager.answer_ask env hp]
  simp

namespace EndorseCall

variable (call : EndorseCall) (myid : String) (msgId : Int64) (s : Session) (env : Env)
  (d : Daemon)

/-- The command of a call, stamped by its session, is planned as one request, with the statement
of the call. -/
lemma run_plan :
    ∃ cmd req ending, call.run myid msgId = .ok cmd ∧
      planOf env (s.stamp cmd) = some (.ask req ending) ∧ req.statement = call.statement := by
  cases call with
  | attester id config => exact ⟨_, _, .sink, rfl, rfl, rfl⟩
  | builder id config => exact ⟨_, _, .sink, rfl, rfl, rfl⟩
  | membership ip port gn master => exact ⟨_, _, .sink, rfl, rfl, rfl⟩
  | imageProperty id config property => exact ⟨_, _, .json "New Endorsements", rfl, rfl, rfl⟩
  | imageSource id config sourceUrl sourceRev => exact ⟨_, _, .sink, rfl, rfl, rfl⟩

/-- **One statement is posted for a call**, whoever makes it and whatever the state of the
daemon and of the service. -/
lemma posted_eq : call.posted myid msgId s env d = [call.statement] := by
  obtain ⟨cmd, req, ending, hrun, hplan, hreq⟩ := call.run_plan myid msgId s env
  rw [posted, hrun]
  simp only
  rw [Manager.posted_ask hplan, hreq]

/-- Which statement is the one asked for. -/
lemma statement_eq_iff :
    call.statement = (call.role.path, call.arguments) ↔ call.role = .attester := by
  cases call with
  | attester id config => exact iff_of_true rfl rfl
  | _ => simp [statement, role, Role.path, arguments]

/-- Which statement belongs to the role of its call. -/
lemma statement_own_iff :
    (∃ values, call.statement = (call.role.path, values)) ↔
      call.role = .attester ∨ call.role = .membership := by
  cases call <;> simp [statement, role, Role.path]

/-- Which statement belongs to another role. -/
lemma statement_foreign_iff :
    (∃ r ≠ call.role, call.statement.1 = r.path) ↔
      call.role = .builder ∨ call.role = .imageSource := by
  constructor
  · rintro ⟨r, hr, hpath⟩
    cases call <;> cases r <;> simp [statement, role, Role.path] at hr hpath ⊢
  · intro h
    cases call with
    | builder id config => exact ⟨.attester, by simp [role], rfl⟩
    | imageSource id config sourceUrl sourceRev => exact ⟨.imageProperty, by simp [role], rfl⟩
    | _ => simp [role] at h

/-- **The statement asked for is posted exactly for an attester.**  A membership keeps its role
and loses its generation.  A builder and an image source are granted another role, and an image
property is posted as a plain endorsement, without its configuration. -/
theorem endorsement_iff :
    (call.Survives myid msgId s env d ↔ call.role = .attester) ∧
      (call.KeepsRole myid msgId s env d ↔
        call.role = .attester ∨ call.role = .membership) ∧
      (call.GrantsAnother myid msgId s env d ↔
        call.role = .builder ∨ call.role = .imageSource) := by
  refine ⟨?_, ?_, ?_⟩
  · rw [Survives, posted_eq, List.singleton_inj]
    exact call.statement_eq_iff
  · simp only [KeepsRole, posted_eq, List.singleton_inj]
    exact call.statement_own_iff
  · rw [GrantsAnother, posted_eq]
    simpa using call.statement_foreign_iff

/-- An image endorsed as a builder is granted as an attester. -/
theorem builder_posts_attester :
    ¬ (builder "img" "*").Survives "10.0.0.1:4144" 7 { pid := 42 }
        (.inOrder fun _ => .failed (.http "timeout")) {} ∧
      (builder "img" "*").posted "10.0.0.1:4144" 7 { pid := 42 }
        (.inOrder fun _ => .failed (.http "timeout")) {}
        = [("/postAttesterImage", ["img", "*"])] := by
  have hposted := (builder "img" "*").posted_eq "10.0.0.1:4144" 7 { pid := 42 }
    (.inOrder fun _ => .failed (.http "timeout")) {}
  refine ⟨?_, hposted⟩
  rw [Survives, hposted]
  decide

end EndorseCall

/-- The method that no entry point calls: its command is posted as a builder's statement. -/
lemma AttGuardClient.endorseBuilder_posted (myid : String) (msgId : Int64) (id config : String)
    (s : Session) (env : Env) (d : Daemon) :
    (Manager.posted env (s.stamp (endorseBuilder myid msgId id config)) d).map
        (fun e => e.request.statement) = [(Role.builder.path, [id, config])] := by
  have hplan : planOf env (s.stamp (endorseBuilder myid msgId id config)) =
      some (askFor iaasIdentity "/postBuilderImage" [id, config] .sink) := rfl
  exact Manager.posted_ask hplan d

end Libport
