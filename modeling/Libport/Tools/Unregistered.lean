import Libport.Tools.EndToEnd

/-!
# Principals that the daemon does not post (`server/manager.cc`, `tools/metadata_stub.go`)

The stub decides by its principals, which it takes at `/postInstanceSet`.  The daemon posts a new
principal to another path, and that path stands in no handler but in those of the free calls.

* `not_asks_instanceSet`: the requests of any other command.
* `stored_history`: a run of the stub without that path has no principals.
* **`unregistered_denied`**: without free calls, no check is ever granted.
-/

namespace Libport

namespace MetadataStub

/-- **One command**: no handler but those of the free calls posts a principal of the stub, or to a
path that is not one of letters. -/
lemma not_asks_instanceSet {env : Env} {cmd : Command} {pl : Plan}
    (hplan : planOf env cmd = some pl) (hfree : cmd.type ≠ .freeCall)
    (hguard : cmd.type ≠ .guardCall) :
    ¬ pl.Asks fun req _ => ¬ isPlainPath req.path = true ∨ req.path = "/postInstanceSet" := by
  unfold planOf at hplan
  cases htype : cmd.type <;> rw [htype] at hplan hfree hguard <;> cases hplan <;>
    simp +decide [formatRequest] at hfree hguard ⊢
  case endorseAttesterImage =>
    intro m hm config hconfig
    split_ifs <;> decide

lemma routeOf_instanceSet {path : String} (h : routeOf path = some (.post .postInstanceSet)) :
    path = "/postInstanceSet" := by
  unfold routeOf at h
  split_ifs at h with hpath <;> first | exact hpath | cases h

lemma posted_not_instanceSet {wire : Wire} {env : Env} {cmd : Command}
    (hfree : cmd.type ≠ .freeCall) (hguard : cmd.type ≠ .guardCall) :
    ∀ call ∈ posted wire env cmd, call.op ≠ .postInstanceSet := by
  intro call hcall hop
  unfold posted at hcall
  split at hcall
  · rename_i req ending hplan
    rw [Option.mem_toList, callOf] at hcall
    split at hcall
    · rename_i op hroute
      cases hcall
      obtain rfl : op = .postInstanceSet := hop
      refine not_asks_instanceSet hplan hfree hguard (or_iff_not_imp_left.mpr fun hplain => ?_)
      rw [wire.route_plain _ (not_not.mp hplain)] at hroute
      exact routeOf_instanceSet hroute
    · cases hcall
  · cases hcall

/-! ## Runs of the stub -/

lemma op_of_promise {call : Call} {name : String} {p : Principal}
    (h : call.promise = some (.principal name p)) : call.op = .postInstanceSet := by
  unfold Call.promise at h
  split at h <;> first | assumption | cases h

/-- A call on a store without principals. -/
lemma stored_serve {store : TestStore} {call : Call} (hop : call.op ≠ .postInstanceSet)
    (hstored : store.stored = []) : (call.serve store).2.stored = [] := by
  rcases serve_cases store call with hloses | ⟨-, hsame⟩ | ⟨-, u, hu, heffect⟩
  · cases hloses with
    | badRange hfresh hparse hbad => exact absurd rfl hop
    | @laterRequirement speaker object requirement rest o ho hnew =>
        have hserved : (Call.serve store
            ⟨.postObjectAcl, some ⟨speaker, object :: requirement :: rest⟩⟩).2 = store := by
          simp [Call.serve, Op.handler, postObjectAcl, readRequest, ho, answer]
        rw [hserved, hstored]
  · rw [hsame, hstored]
  · generalize (call.serve store).2 = store' at heffect ⊢
    cases heffect with
    | principal hfresh => exact absurd (op_of_promise hu) hop
    | @retract name =>
        have hentries : store.principals.entries = [] := List.map_eq_nil_iff.mp hstored
        simp [TestStore.stored, OrderedMap.erase, hentries]
    | _ => exact hstored

/-- **A run without principals.** -/
lemma stored_history {calls : List Call} (h : ∀ call ∈ calls, call.op ≠ .postInstanceSet) :
    (history calls).1.stored = [] := by
  induction calls using List.reverseRecOn with
  | nil => rfl
  | append_singleton calls call ih =>
      rw [history_concat, record]
      refine stored_serve (h call (by simp)) (ih fun c hc => h c ?_)
      exact List.mem_append_left _ hc

/-! ## The checks -/

/-- Where there are no principals, nothing is found and nobody passes. -/
lemma denied_of_stored {store : TestStore} (hstored : store.stored = []) {ip : String} {port : ℤ}
    {found : Option Principal} (hresolves : store.policy.Resolves ip port found)
    {granted : Bool} {P : Principal → Prop} (hgranted : granted = true ↔ ∃ q ∈ found, P q) :
    granted = false := by
  refine Bool.eq_false_iff.mpr fun htrue => ?_
  obtain ⟨q, hq, -⟩ := hgranted.mp htrue
  obtain rfl := Option.mem_def.mp hq
  have hmem := registered_policy.mp hresolves.2.registered
  rw [hstored] at hmem
  cases hmem

/-- **Without free calls no check is granted**: whatever commands of whatever processes the daemon
has served, among them creations of principals that it reports as accepted. -/
theorem unregistered_denied (coding : Coding) (env : Env) {wire : Wire} (hwire : wire.Reads)
    {cmds : List Command} (hfree : ∀ cmd ∈ cmds, cmd.type ≠ .freeCall ∧ cmd.type ≠ .guardCall)
    {d : Daemon} (hrun : Action.forEach (Manager.serve env) cmds {} = (.ok (), d))
    (c : LatteClient) (msgId : Int64) (s : Session) (failure : Libport.Response)
    (check : LibCall) {ip : String} {port : UInt32} (hcheck : asksAbout check = some (ip, port))
    {p : Posted} (hp : check.run coding (some c) msgId = .ok p)
    (hbacked : Backed wire (p.after env d s).exchanges) :
    p.result env d s failure = .int 0 := by
  have hstored : (history (cmds.flatMap (posted wire env))).1.stored = [] := by
    refine stored_history fun call hcall => ?_
    obtain ⟨cmd, hcmd, hposted⟩ := List.mem_flatMap.mp hcall
    exact posted_not_instanceSet (hfree cmd hcmd).1 (hfree cmd hcmd).2 call hposted
  cases check with
  | checkProperty ip' port' property =>
      rcases ip' with _ | ip'
      · cases hcheck
      rcases property with _ | property
      · cases hcheck
      obtain ⟨found, granted, hresult, hresolves, hgranted⟩ :=
        checkProperty_result coding env c msgId s failure hwire hrun hp hbacked
      rw [hresult, denied_of_stored hstored hresolves hgranted]
      rfl
  | checkAccess ip' port' object =>
      rcases ip' with _ | ip'
      · cases hcheck
      rcases object with _ | object
      · cases hcheck
      obtain ⟨found, granted, hresult, hresolves, hgranted⟩ :=
        checkAccess_result coding env c msgId s failure hwire hrun hp hbacked
      rw [hresult, denied_of_stored hstored hresolves hgranted]
      rfl
  | _ => cases hcheck

/-! ## A creation -/

/-- A process that runs behind the ports from 1000 to 2000. -/
def createdCommand : Command :=
  { type := .createPrincipal
    auth := "iaas"
    statement := .packed (.principal
      { id := 7
        auth := { ip := "192.168.0.1", portLo := 1000, portHi := 2000 }
        code := { image := "image1" } }) }

def createdService : Env := .inOrder fun k =>
  if k = 2 then .replied ⟨404, readMessage ""⟩
  else .replied ⟨200, readMessage r#"{"message":"['p1']"}"#⟩

/-- The daemon behind the creation. -/
def createdDaemon : Daemon :=
  (Action.forEach (Manager.serve createdService) [createdCommand] {}).2

lemma serve_created :
    Action.forEach (Manager.serve createdService) [createdCommand] {} = (.ok (), createdDaemon) :=
  rfl

/-- The question about one of its ports. -/
def createdCheck : Posted :=
  .status (AttGuardClient.checkProperty "alice" 1 "192.168.0.1" 1005 "happy")

def createdExchanges : List Exchange :=
  [⟨formatRequest "/postInstance" "iaas"
      ["7_0", "image1", formatId "192.168.0.1" (asInt 1000) (asInt 2000), "iaas"] "",
      createdService.replies 0⟩,
    ⟨formatRequest "/postInstanceConfig" "iaas" ["7_0"] "", createdService.replies 1⟩,
    ⟨formatRequest "/attestAppProperty" attestIdentity ["192.168.0.1:1005", "happy"] "",
      createdService.replies 2⟩]

lemma exchanges_createdCheck :
    (createdCheck.after createdService createdDaemon {}).exchanges = createdExchanges := by
  have haddress : formatNetaddr "192.168.0.1" (asInt 1005) = "192.168.0.1:1005" := by decide
  rw [createdExchanges, ← haddress]
  rfl

lemma backed_createdExchanges : Backed testWire createdExchanges := by
  have h₁ : Backed testWire (createdExchanges.take 1) := @Backed.elsewhere _ [] _ .start rfl
  have h₂ : Backed testWire (createdExchanges.take 2) := h₁.elsewhere rfl
  exact h₂.served (show _ = TestStore.initial from rfl) rfl rfl

/-- The daemon has accepted the principal and lists it, and the stub does not know it. -/
theorem unregistered_denied_created :
    createdDaemon.principals.map (fun e => e.1) = [7] ∧
      createdCheck.result createdService createdDaemon {} notImplemented = .int 0 :=
  ⟨rfl, unregistered_denied .short createdService reads_testWire
    (by simp [createdCommand]) serve_created ⟨"alice", "192.168.0.1"⟩ 1
    {} notImplemented (.checkProperty (some "192.168.0.1") 1005 (some "happy")) rfl rfl
    (exchanges_createdCheck ▸ backed_createdExchanges)⟩

end MetadataStub

end Libport
