import Libport.Client.Call
import Libport.Tools.Client

/-!
# The library, the daemon and the stub together

A process calls the library, the library posts a command to the daemon, and the daemon asks the
service, for which the stub stands here.  What a check returns in the end depends on nothing but
the commands that the daemon has served before, of whatever process.

* `posted`: the calls of the stub that a command causes, read off its plan.
* `serve_calls` and `run_calls`: one command, and a run of them, in whatever state of the daemon
  and whatever the outcomes.
* `approved_iff`: the approval that the daemon looks for in a reply is the decision of the stub.
* `checkProperty_result` and `checkAccess_result`: what comes back from each check.
* **`checks_end_to_end`**: the two checks of the library.
-/

namespace Libport

namespace MetadataStub

/-! ## What commands cause -/

section Calls

variable (wire : Wire) (env : Env)

/-- The calls that the stub serves for a command. -/
def posted (cmd : Command) : List Call :=
  match planOf env cmd with
  | some (.ask req _) => (callOf wire req).toList
  | _ => []

lemma callsOf_singleton (r : Request) (outcome : Outcome) :
    callsOf wire [⟨r, outcome⟩] = (callOf wire r).toList := by
  rw [callsOf, List.filterMap_cons]
  cases callOf wire r <;> rfl

/-- The handlers that use the table of principals have no plan. -/
lemma posted_of_table {cmd : Command}
    (h : cmd.type = .createPrincipal ∨ cmd.type = .deletePrincipal ∨
      cmd.type = .getLocalPrincipal) : posted wire env cmd = [] := by
  rcases h with h | h | h <;> simp [posted, planOf, h]

/-- Their requests reach no route of the stub. -/
@[simp] lemma callOf_instanceRequest (cmd : Command) (p : Libport.Principal) :
    callOf wire (Manager.instanceRequest cmd p) = none := callOf_elsewhere rfl rfl

@[simp] lemma callOf_configRequest (cmd : Command) (p : Libport.Principal) :
    callOf wire (Manager.configRequest env cmd p) = none := callOf_elsewhere rfl rfl

@[simp] lemma callOf_deleteRequest (cmd : Command) (p : Libport.Principal) :
    callOf wire (Manager.deleteRequest cmd p) = none := callOf_elsewhere rfl rfl

/-- **One command.** -/
lemma answer_calls (cmd : Command) (d : Daemon) :
    callsOf wire (Manager.answer env cmd d).2.exchanges
      = callsOf wire d.exchanges ++ posted wire env cmd := by
  have h := Manager.answered env cmd d
  generalize (Manager.answer env cmd d).1 = x at h
  generalize (Manager.answer env cmd d).2 = d' at h ⊢
  cases h with
  | crash hp => simp [posted, hp]
  | reply hp => simp [posted, hp]
  | ask hp => simp [posted, hp, callsOf_append, callsOf_singleton]
  | malformed hp => simp [posted, hp]
  | noKey ht =>
      rw [posted_of_table wire env (Or.inl ht), callsOf_append]
      simp [callsOf]
  | noConfig ht =>
      rw [posted_of_table wire env (Or.inl ht), callsOf_append]
      simp [callsOf]
  | created ht =>
      rw [posted_of_table wire env (Or.inl ht), callsOf_append]
      simp [callsOf]
  | refused ht => rw [posted_of_table wire env (Or.inr (Or.inl ht)), List.append_nil]
  | notFound ht => rw [posted_of_table wire env (Or.inr (Or.inl ht)), List.append_nil]
  | deleted ht =>
      rw [posted_of_table wire env (Or.inr (Or.inl ht)), callsOf_append]
      simp [callsOf]
  | looked ht => rw [posted_of_table wire env (Or.inr (Or.inr ht)), List.append_nil]

variable {wire env}

lemma serve_calls {cmd : Command} {d d' : Daemon}
    (h : Manager.serve env cmd d = (.ok (), d')) :
    callsOf wire d'.exchanges = callsOf wire d.exchanges ++ posted wire env cmd := by
  rw [← answer_calls]
  rw [Manager.serve, Action.bind_run, Manager.dispatch_run] at h
  rcases hanswer : Manager.answer env cmd d with ⟨x, d₁⟩
  rw [hanswer] at h
  cases x with
  | error e => cases h
  | ok r =>
      cases h
      rfl

/-- **A run of commands.** -/
lemma run_calls {cmds : List Command} {d d' : Daemon}
    (h : Action.forEach (Manager.serve env) cmds d = (.ok (), d')) :
    callsOf wire d'.exchanges = callsOf wire d.exchanges ++ cmds.flatMap (posted wire env) := by
  induction cmds generalizing d with
  | nil =>
      cases h
      simp
  | cons cmd rest ih =>
      obtain ⟨d₁, hserve, hrest⟩ := Action.forEach_cons_ok.mp h
      rw [ih hrest, serve_calls hserve, List.flatMap_cons, List.append_assoc]

end Calls

/-! ## What the daemon makes of a decision -/

lemma approved_iff {wire : Wire} {type : CommandType} {text message : String} {served : Served}
    (hjudges : Judges text served)
    (hread : wire.extractJson text = .ok (.object [("message", .string message)]))
    (hmessage : Approval type message) : Approved type (wire.outcome served) ↔ Granted served := by
  rcases hjudges with ⟨store', hserved⟩ | ⟨status, body, store', hstatus, hserved⟩
  · refine iff_of_true ?_ ⟨text, store', hserved⟩
    rw [hserved]
    exact ⟨_, _, message, rfl, rfl, hread, rfl, hmessage⟩
  · rw [hserved]
    refine iff_of_false ?_ (not_granted_answer hstatus body)
    rintro ⟨res, fields, message', hres, hok, -⟩
    cases hres
    exact hstatus hok

lemma approval_hasProperty :
    Approval .checkProperty r#"{ 'void':programHasProperty('','') }"# :=
  (mentions_iff "programHasProperty" _).mp (by decide)

lemma approval_access : Approval .checkAccess r#"{ 'void':approveAccess('','') }"# :=
  (mentions_iff "approveAccess" _).mp (by decide)

/-- The address that a call of the library asks about. -/
def asksAbout : LibCall → Option (String × UInt32)
  | .checkProperty (some ip) port (some _) | .checkAccess (some ip) port (some _) => some (ip, port)
  | _ => none

/-- The principal passes the check, going by the promises made. -/
def Passes (updates : List Update) (q : Principal) : LibCall → Prop
  | .checkProperty _ _ (some property) => .property q.imageId property ∈ updates
  | .checkAccess _ _ (some object) => ∃ requirement,
      requirementOf updates object = some requirement ∧ .property q.imageId requirement ∈ updates
  | _ => False

/-- The reply that comes of a decision is read as a status, whatever the ending makes of it. -/
lemma apply_judged {wire : Wire} {text message : String} {served : Served}
    (hjudges : Judges text served)
    (hread : wire.extractJson text = .ok (.object [("message", .string message)])) (msg : String)
    (judge : String → Bool) :
    ∃ r, (Ending.verdict msg judge).apply (wire.outcome served) = .ok r := by
  rcases hjudges with ⟨store', hserved⟩ | ⟨status, body, store', hstatus, hserved⟩
  · have hok : messageOutcome msg (wire.outcome served) = .ok message :=
      messageOutcome_eq_ok.mpr ⟨_, _, by rw [hserved]; rfl, rfl, hread, rfl⟩
    rw [Ending.apply, hok]
    exact ⟨_, rfl⟩
  · have hbad : ¬ status = Libport.statusOk := hstatus
    rw [hserved, Wire.outcome]
    simp [Ending.apply, messageOutcome, jsonOutcome, hbad, Except.map, orOnRuntime]

/-- A check whose reply is read as a status survives. -/
lemma survived_of_apply {env : Env} {d : Daemon} {s : Session} {p : Posted} {req : Request}
    {msg : String} {judge : String → Bool} {r : Libport.Response}
    (hplan : planOf env (s.stamp p.cmd) = some (.ask req (.verdict msg judge)))
    (hmsg : IsPlain msg) (hparses : p.Parses env s)
    (happly : (Ending.verdict msg judge).apply (env.replies d.exchanges.length) = .ok r) :
    p.Survived env d s := by
  refine ⟨hparses, fun text htext => ?_⟩
  rw [Manager.formats, hplan] at htext
  simp only [Manager.texts, happly, errmsgs, List.append_nil] at htext
  exact statusTexts_logs hmsg env.platform _ text htext

section
variable (coding : Coding) (env : Env) {wire : Wire} {cmds : List Command} {d : Daemon}
  (c : LatteClient) (msgId : Int64) (s : Session) (failure : Libport.Response) {ip : String}
  {port : UInt32} {p : Posted}

/-- **A check** is planned as one request, and its value is the decision of the stub. -/
lemma check_result {cmd : Command} {path msg text message : String} {values : List String}
    {judge : String → Bool} {type : CommandType} {route : Route}
    (hdone : (Effect.asked attestIdentity path values (.approved type)).Done coding env d s failure
      (.ok (.status cmd)))
    (hplan : planOf env (s.stamp cmd)
      = some (askFor attestIdentity path values (.verdict msg judge)))
    (hmsg : IsPlain msg) (hparses : (Posted.status cmd).Parses env s)
    (hpath : isPlainPath path = true) (hroute : routeOf path = some route)
    (hjudges : ∀ order, Judges text
      (route.handler order (storeOf wire d.exchanges) (some ⟨attestIdentity, values⟩)))
    (hread : wire.extractJson text = .ok (.object [("message", .string message)]))
    (hmessage : Approval type message)
    (hbacked : Backed wire ((Posted.status cmd).after env d s).exchanges) :
    ∃ order granted, order.Perm (storeOf wire d.exchanges).stored ∧
      (Posted.status cmd).result env d s failure = .int (if granted then 1 else 0) ∧
      (granted = true ↔ Granted
        (route.handler order (storeOf wire d.exchanges) (some ⟨attestIdentity, values⟩))) := by
  obtain ⟨_, hp, ⟨-, hafter⟩, hvalue⟩ := hdone
  cases hp
  rw [hafter hparses] at hbacked
  obtain ⟨-, order, horder, houtcome⟩ := hbacked.last (wire.route_eq hpath hroute)
  obtain ⟨r, hr⟩ := apply_judged (hjudges order) hread msg judge
  have hreply : env.replies d.exchanges.length = wire.outcome
    (route.handler order (storeOf wire d.exchanges) (some ⟨attestIdentity, values⟩)) := houtcome
  rw [← hreply] at hr
  obtain ⟨granted, hresult, hgranted⟩ := hvalue (survived_of_apply hplan hmsg hparses hr)
  refine ⟨order, granted, horder, hresult, hgranted.trans ?_⟩
  rw [Consent.Given, hreply]
  exact approved_iff (hjudges order) hread hmessage

lemma checkProperty_result (hwire : wire.Reads)
    (hrun : Action.forEach (Manager.serve env) cmds {} = (.ok (), d)) {property : String}
    (hp : (LibCall.checkProperty (some ip) port (some property)).run coding (some c) msgId = .ok p)
    (hbacked : Backed wire (p.after env d s).exchanges) :
    ∃ found granted, p.result env d s failure = .int (if granted then 1 else 0) ∧
      (history (cmds.flatMap (posted wire env))).1.policy.Resolves ip (asInt port) found ∧
      (granted = true ↔ ∃ q ∈ found,
        .property q.imageId property ∈ (history (cmds.flatMap (posted wire env))).2) := by
  have hcalls : callsOf wire d.exchanges = cmds.flatMap (posted wire env) := run_calls hrun
  rw [← hcalls]
  obtain rfl := Except.ok.inj hp
  obtain ⟨order, granted, horder, hresult, hgranted⟩ := check_result coding env s failure
    ((LibCall.checkProperty (some ip) port (some property)).run_done coding env d s failure c msgId)
    rfl (by decide) ⟨nofun, nofun⟩ rfl rfl (fun order => judges_attestAppProperty _ _ _)
    hwire.hasProperty approval_hasProperty hbacked
  refine ⟨_, granted, hresult, resolves_getPrincipal horder ip port, hgranted.trans ?_⟩
  rw [Route.handler, attestAppProperty_granted]
  simp only [getPrincipal_found_iff, (exact_storeOf wire d.exchanges).properties, Option.mem_def]

lemma checkAccess_result (hwire : wire.Reads)
    (hrun : Action.forEach (Manager.serve env) cmds {} = (.ok (), d)) {object : String}
    (hp : (LibCall.checkAccess (some ip) port (some object)).run coding (some c) msgId = .ok p)
    (hbacked : Backed wire (p.after env d s).exchanges) :
    ∃ found granted, p.result env d s failure = .int (if granted then 1 else 0) ∧
      (history (cmds.flatMap (posted wire env))).1.policy.Resolves ip (asInt port) found ∧
      (granted = true ↔ ∃ q ∈ found, ∃ requirement,
        requirementOf (history (cmds.flatMap (posted wire env))).2 object = some requirement ∧
          .property q.imageId requirement ∈ (history (cmds.flatMap (posted wire env))).2) := by
  have hcalls : callsOf wire d.exchanges = cmds.flatMap (posted wire env) := run_calls hrun
  have hexact := exact_storeOf wire d.exchanges
  rw [← hcalls]
  obtain rfl := Except.ok.inj hp
  obtain ⟨order, granted, horder, hresult, hgranted⟩ := check_result coding env s failure
    ((LibCall.checkAccess (some ip) port (some object)).run_done coding env d s failure c msgId)
    rfl (by decide) ⟨nofun, nofun⟩ rfl rfl (fun order => judges_attestObjectAccess _ _ _)
    hwire.access approval_access hbacked
  refine ⟨_, granted, hresult, resolves_getPrincipal horder ip port, hgranted.trans ?_⟩
  rw [Route.handler, attestObjectAccess_granted]
  simp only [getPrincipal_found_iff, hexact.requires_iff, hexact.requirement,
    hexact.properties, Option.mem_def, exists_and_left]

end

/-- **The checks, end to end.**  After any commands of any processes, a check of the library
returns `1` exactly when the principal that the address leads to passes it: a property, when it was
posted for its image; an access, when the first requirement posted for the object was.  Nothing
else that the daemon has done plays a part. -/
theorem checks_end_to_end (coding : Coding) (env : Env) {wire : Wire} (hwire : wire.Reads)
    (cmds : List Command) {d : Daemon}
    (hrun : Action.forEach (Manager.serve env) cmds {} = (.ok (), d)) (c : LatteClient)
    (msgId : Int64) (s : Session) (failure : Libport.Response) (check : LibCall) {ip : String}
    {port : UInt32} (hcheck : asksAbout check = some (ip, port)) {p : Posted}
    (hp : check.run coding (some c) msgId = .ok p ∧ p.Fits coding)
    (hbacked : Backed wire (p.after env d s).exchanges) :
    ∃ found granted, p.result env d s failure = .int (if granted then 1 else 0) ∧
      (history (cmds.flatMap (posted wire env))).1.policy.Resolves ip (asInt port) found ∧
      (granted = true ↔
        ∃ q ∈ found, Passes (history (cmds.flatMap (posted wire env))).2 q check) := by
  cases check with
  | checkProperty ip' port' property =>
      rcases ip' with _ | ip'
      · cases hcheck
      rcases property with _ | property
      · cases hcheck
      cases hcheck
      exact checkProperty_result coding env c msgId s failure hwire hrun hp.1 hbacked
  | checkAccess ip' port' object =>
      rcases ip' with _ | ip'
      · cases hcheck
      rcases object with _ | object
      · cases hcheck
      cases hcheck
      exact checkAccess_result coding env c msgId s failure hwire hrun hp.1 hbacked
  | _ => cases hcheck

/-! ## A run -/

/-- The policy of the test of the stub, posted through the daemon: the principal and its image by
free calls, which reach any route. -/
def happyCommands : List Command :=
  [AttGuardClient.freeCall "iaas" 0 "postInstanceSet"
      ["p1", "image1", "image", "192.168.0.1:1000-2000", "no_config"],
    AttGuardClient.freeCall "iaas" 1 "postAttesterImage" ["image1", "no_config"],
    AttGuardClient.freeCall "iaas" 2 "postImageProperty" ["image1", "no_config", "happy"],
    AttGuardClient.postAcl "alice" 3 "object1" "happy"]

/-- The service in a run that asks for an access after `n` requests. -/
def happyService (n : ℕ) : Env := .inOrder fun k =>
  if k = 0 then .replied ⟨200, readMessage r#"{"message":"['p1']"}"#⟩
  else if k = n then .replied ⟨200, readMessage approveAccess.body⟩
  else .replied ⟨200, readMessage ""⟩

/-- The exchanges of the run, and of the check at its end. -/
def happyExchanges : List Exchange :=
  [⟨formatRequest "/postInstanceSet" "iaas"
      ["p1", "image1", "image", "192.168.0.1:1000-2000", "no_config"] "",
      (happyService 4).replies 0⟩,
    ⟨formatRequest "/postAttesterImage" "iaas" ["image1", "no_config"] "",
      (happyService 4).replies 1⟩,
    ⟨formatRequest "/postImageProperty" "iaas" ["image1", "no_config", "happy"] "",
      (happyService 4).replies 2⟩,
    ⟨formatRequest "/postObjectAcl" "alice" ["alice:object1", "happy"] "",
      (happyService 4).replies 3⟩,
    ⟨formatRequest "/appAccessesObject" attestIdentity ["192.168.0.1:1005", "alice:object1"] "",
      (happyService 4).replies 4⟩]

/-- The daemon behind the commands. -/
def happyDaemon : Daemon := (Action.forEach (Manager.serve (happyService 4)) happyCommands {}).2

lemma serve_happy :
    Action.forEach (Manager.serve (happyService 4)) happyCommands {} = (.ok (), happyDaemon) := rfl

/-- The question that is asked in the end. -/
def happyCheck : Posted :=
  .status (AttGuardClient.checkAccess "alice" 4 "192.168.0.1" 1005 "alice:object1")

lemma exchanges_happyCheck :
    (happyCheck.after (happyService 4) happyDaemon {}).exchanges = happyExchanges := by
  have haddress : formatNetaddr "192.168.0.1" (asInt 1005) = "192.168.0.1:1005" := by decide
  rw [happyExchanges, ← haddress]
  rfl

lemma backed_happyExchanges : Backed testWire happyExchanges := by
  have h₁ : Backed testWire (happyExchanges.take 1) :=
    @Backed.served _ [] _ _ _ .start .initial rfl rfl rfl
  have h₂ : Backed testWire (happyExchanges.take 2) := h₁.served
    (show _ = { happyStore with images := .empty, objects := .empty, heap := [] } from rfl) rfl rfl
  have h₃ : Backed testWire (happyExchanges.take 3) := h₂.served
    (show _ = { happyStore with objects := .empty, heap := [.empty] } from rfl) rfl rfl
  have h₄ : Backed testWire (happyExchanges.take 4) := h₃.served
    (show _ = { happyStore with objects := .empty } from rfl) rfl rfl
  exact h₄.served (show _ = happyStore from rfl) rfl rfl

/-- The address leads to the one principal there is. -/
lemma resolves_happy {store : TestStore} (hstore : store.principals = happyStore.principals)
    {found : Option Principal} (h : store.policy.Resolves "192.168.0.1" (asInt 1005) found) :
    found = some (postedPrincipal "image1" "192.168.0.1:1000-2000" "no_config") := by
  cases found with
  | none =>
      rcases h with hip | hnone
      · cases hip
      · refine absurd (isFirst_iff.mp rfl) (hnone
          (postedPrincipal "image1" "192.168.0.1:1000-2000" "no_config") ⟨"p1", ?_⟩)
        rw [TestStore.policy, hstore]
        rfl
  | some p =>
      have hp := registered_policy.mp h.2.registered
      rw [TestStore.stored, hstore] at hp
      rw [List.mem_singleton.mp hp]

/-- The principal that was posted by free calls gets the access. -/
theorem checks_end_to_end_happy :
    happyCheck.result (happyService 4) happyDaemon {} notImplemented = .int 1 := by
  obtain ⟨found, granted, hresult, hresolves, hgranted⟩ := checks_end_to_end
    .short (happyService 4) reads_testWire happyCommands
    serve_happy ⟨"alice", "192.168.0.1"⟩ 4 {} notImplemented
    (.checkAccess (some "192.168.0.1") 1005 (some "alice:object1")) rfl
    ⟨rfl, (by decide : 2 ≤ recvBufsz)⟩
    (exchanges_happyCheck ▸ backed_happyExchanges)
  rw [hgranted.mpr ?_] at hresult
  · exact hresult
  · rw [resolves_happy rfl hresolves]
    refine ⟨_, rfl, "happy", rfl, ?_⟩
    exact List.mem_cons_of_mem _ (List.mem_cons_of_mem _ List.mem_cons_self)

end MetadataStub

end Libport
