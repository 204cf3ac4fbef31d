import Libport.Client.Init
import Libport.Tools.EndToEnd

/-!
# Who decides on an object (`client/client.cc`, `server/metadata.cc`)

A process names an object of its own without a colon, and the policy for it is posted under the
name of the process.  What the stub requires for such an object is what the process itself has
posted first, whatever the others post for objects of the same name.

* `requirementOf_history`: the requirement of an object, read off a run of the stub.
* `Spares`: the effects of calls that post no policy for an object.
* `ProcessCall.Requires`: what a process posts for its own object; `NamesInFull` are the calls that
  name it in full.
* **`own_object_access`**: who may access the object of a process.
-/

namespace Libport

namespace MetadataStub

/-! ## Runs of the stub -/

/-- The requirement that a call posts for an object. -/
def Call.requires (object : String) (call : Call) : Option String :=
  requirementOf call.promise.toList object

/-- Policies are always acknowledged. -/
lemma requires_of_refused {store : TestStore} {call : Call}
    (h : acknowledged (call.serve store).1 = false) (object : String) :
    call.requires object = none := by
  obtain ⟨op, body⟩ := call
  rcases body with _ | ⟨speaker, values⟩
  · cases op <;> rfl
  cases op with
  | postObjectAcl =>
      rcases values with _ | ⟨name, _ | ⟨requirement, rest⟩⟩
      · rfl
      · rfl
      · exfalso
        simp only [Call.serve, Op.handler, postObjectAcl, readRequest, List.getElem?_cons_zero,
          List.getElem?_cons_succ, Option.bind_eq_bind, Option.bind_some] at h
        cases hobject : store.objects.find? name with
        | none =>
            rw [hobject] at h
            cases h
        | some o =>
            rw [hobject] at h
            cases h
  | _ =>
      unfold Call.requires Call.promise
      split <;> first | rfl | contradiction

/-- **The requirement of an object** is the first that a call posts for it. -/
lemma requirementOf_history (calls : List Call) (object : String) :
    requirementOf (history calls).2 object = calls.findSome? (Call.requires object) := by
  induction calls using List.reverseRecOn with
  | nil => rfl
  | append_singleton calls call ih =>
      have hrecord : requirementOf (if acknowledged (call.serve (history calls).1).1
          then call.promise.toList else []) object = call.requires object := by
        split_ifs with hack
        · rfl
        · exact (requires_of_refused (Bool.eq_false_iff.mpr hack) object).symm
      rw [history_concat, record, requirementOf_append, hrecord, ih, List.findSome?_append,
        List.findSome?_singleton]

lemma path_of_postObjectAcl {path : String} (h : routeOf path = some (.post .postObjectAcl)) :
    path = "/postObjectAcl" := by
  unfold routeOf at h
  split_ifs at h with _ _ _ _ _ hpath <;> first | exact hpath | cases h

/-- Another path of letters, or another object. -/
lemma requires_of_other {wire : Wire} {r : Request} {object : String}
    (h : (isPlainPath r.path = true ∧ r.path ≠ "/postObjectAcl") ∨
      r.otherValues.head? ≠ some object) :
    (callOf wire r).toList.findSome? (Call.requires object) = none := by
  rw [callOf]
  split
  · rename_i op hroute
    rw [Option.toList_some, List.findSome?_singleton]
    cases op with
    | postObjectAcl =>
        have hhead := h.resolve_left fun hother =>
          hother.2 (path_of_postObjectAcl ((wire.route_plain _ hother.1).symm.trans hroute))
        rcases hvalues : r.otherValues with _ | ⟨name, _ | ⟨requirement, rest⟩⟩
        · simp [Call.requires, Call.promise, decoded, hvalues, requirementOf]
        · simp [Call.requires, Call.promise, decoded, hvalues, requirementOf]
        · have hname : name ≠ object := by
            rintro rfl
            rw [hvalues] at hhead
            exact hhead rfl
          simp [Call.requires, Call.promise, decoded, hvalues, requirementOf, hname]
    | _ =>
        unfold Call.requires Call.promise
        split <;> first | rfl | contradiction
  · rfl

/-! ## Calls of the library -/

/-- The entry points that use the table of principals. -/
def UsesTable : LibCall → Prop
  | .create .. | .createPrincipal .. | .createPrincipalWithAllocatedPorts .. | .delete _ => True
  | _ => False

/-- The call names the object in full. -/
def NamesInFull (object : String) : LibCall → Prop
  | .postObjectAcl (some name) _ => name = object
  | .freeCall _ args => args.head? = some object
  | .guardCall _ ip port _ => guardAddress ip port = object
  | _ => False

/-- The effect is no policy for the object. -/
def Spares (object : String) : Libport.Effect → Prop
  | .asked _ path values _ | .attested _ path values =>
      (isPlainPath path = true ∧ path ≠ "/postObjectAcl") ∨ values.head? ≠ some object
  | .created .. | .deleted .. => False
  | _ => True

lemma spares_given {object : String} {ptr : Option String} {k : String → Libport.Effect}
    (h : ∀ text, Spares object (k text)) : Spares object (.given ptr k) := by
  cases ptr with
  | none => exact trivial
  | some text => exact h text

lemma spares_constructed {object : String} {ptr : Option String} {k : String → Libport.Effect}
    (h : ∀ text, Spares object (k text)) : Spares object (.constructed ptr k) := by
  cases ptr with
  | none => exact trivial
  | some text => exact h text

section
variable {coding : Coding} {env : Env} {wire : Wire} {c : LatteClient} {msgId : Int64}
  {s : Session} {failure : Libport.Response} {p : Posted} {object : String}

/-- One call after the other: only policies are posted to that path, or what a process likes. -/
lemma spares_effect {call : LibCall} (config : MetadataConfig) (htable : ¬ UsesTable call)
    (hacl : ∀ name requirement, call ≠ .postObjectAcl (some name) (some requirement))
    (hnames : ¬ NamesInFull object call) : Spares object (call.effect coding config c) := by
  cases call with
  | create v call => exact absurd trivial htable
  | createPrincipal v uuid image config nport => exact absurd trivial htable
  | createPrincipalWithAllocatedPorts uuid image config ip portLo portHi =>
      exact absurd trivial htable
  | delete uuid => exact absurd trivial htable
  | createImage imageHash sourceUrl sourceRev miscConf =>
      exact spares_given fun _ => spares_given fun _ => Or.inl ⟨rfl, by decide⟩
  | getPrincipal ip lo => cases ip <;> trivial
  | getMetadataConfigEasy urlSz =>
      rw [LibCall.effect]
      split_ifs <;> trivial
  | postObjectAcl objId requirement =>
      cases objId with
      | none => exact trivial
      | some name =>
          cases requirement with
          | none => exact trivial
          | some requirement => exact absurd rfl (hacl name requirement)
  | endorse id prop val =>
      cases id <;> cases prop <;> cases val <;> first | trivial | exact Or.inl ⟨rfl, by decide⟩
  | endorsePrincipal ip port gn type property =>
      exact spares_given fun _ => spares_given fun _ => trivial
  | endorseImage id config property =>
      exact spares_given fun _ => spares_given fun _ => Or.inl ⟨rfl, by decide⟩
  | endorseSource url rev config property =>
      exact spares_given fun _ => spares_given fun _ => spares_given fun _ =>
        Or.inl ⟨rfl, by decide⟩
  | endorseMembership ip port gn master =>
      exact spares_given fun _ => spares_constructed fun _ => Or.inl ⟨rfl, by decide⟩
  | endorseAttester id config => exact spares_given fun _ => Or.inl ⟨rfl, by decide⟩
  | endorseBuilder id config => exact spares_given fun _ => Or.inl ⟨rfl, by decide⟩
  | endorseImageSource id config sourceUrl sourceRev =>
      exact spares_given fun _ => spares_given fun _ => spares_given fun _ =>
        Or.inl ⟨rfl, by decide⟩
  | linkImage host image => exact Or.inl ⟨rfl, by decide⟩
  | checkProperty ip port property =>
      exact spares_given fun _ => spares_given fun _ => Or.inl ⟨rfl, by decide⟩
  | checkAccess ip port object =>
      exact spares_given fun _ => spares_given fun _ => Or.inl ⟨rfl, by decide⟩
  | checkWorkerAccess ip port object =>
      exact spares_given fun _ => spares_given fun _ => Or.inl ⟨rfl, by decide⟩
  | checkImageProperty image config property =>
      exact spares_constructed fun _ => spares_constructed fun _ => spares_constructed fun _ =>
        Or.inl ⟨rfl, by decide⟩
  | checkAttestation ip port =>
      cases ip with
      | none => exact trivial
      | some ip => exact Or.inl ⟨rfl, by decide⟩
  | freeCall cmd args => exact spares_constructed fun _ => Or.inr hnames
  | guardCall cmd ip port args =>
      exact spares_constructed fun _ => Or.inr fun h => hnames (Option.some.inj h)
  | getLocalPrincipal uuid => exact trivial
  | getMetadataConfig => exact trivial
  | revokePrincipal => exact trivial
  | revoke => exact trivial

/-- A path that is no URI is posted nowhere. -/
lemma posted_of_not_parses {cmd : Command} (h : ¬ Manager.PathParses env.platform cmd) :
    posted wire env cmd = [] := by
  have hbad : ∀ path, ¬ env.platform.parsesUri path = true → env.platform.parsesUri path = false :=
    fun path => Bool.eq_false_iff.mpr
  simp only [Manager.PathParses, not_and_or, Classical.not_imp, not_forall] at h
  rcases h with ⟨ht, m, hx, hpath⟩ | ⟨ht, m, hx, hpath⟩ <;>
    simp [posted, planOf, ht, hx, Plan.needs, Plan.parsed, hbad _ hpath]

/-- What a command leaves tells what is posted for it; the state in which the daemon answers plays
no part. -/
lemma posted_of_leaves {after : Daemon} (h : p.Leaves env {} s after)
    (hparses : p.Parses env s) :
    posted wire env (s.stamp p.cmd) = callsOf wire after.exchanges := by
  rw [← h.2 hparses]
  exact (answer_calls wire env (s.stamp p.cmd) {}).symm

lemma posted_asked {speaker path : String} {values : List String}
    (h : p.Leaves env {} s (afterRequest env {} speaker path values))
    (hparses : p.Parses env s) :
    posted wire env (s.stamp p.cmd) = (callOf wire (formatRequest path speaker values "")).toList :=
  (posted_of_leaves h hparses).trans (callsOf_singleton wire _ _)

/-- A call that spares the object requires nothing for it. -/
lemma posted_spared {effect : Libport.Effect} (h : effect.Done coding env {} s failure (.ok p))
    (hspares : Spares object effect) :
    (posted wire env (s.stamp p.cmd)).findSome? (Call.requires object) = none := by
  by_cases hparses : p.Parses env s
  · cases effect with
    | refused r => cases h
    | aborted => cases h
    | asked speaker path values consent =>
        obtain ⟨_, hp, hleaves, -⟩ := h
        cases hp
        rw [posted_asked hleaves hparses]
        exact requires_of_other hspares
    | attested speaker path values =>
        obtain ⟨_, hp, hleaves, -⟩ := h
        cases hp
        rw [posted_asked hleaves hparses]
        exact requires_of_other hspares
    | answered r =>
        obtain ⟨_, hp, -, hafter, -⟩ := h
        cases hp
        rw [show posted wire env (s.stamp p.cmd) = callsOf wire (p.after env {} s).exchanges from
          (answer_calls wire env (s.stamp p.cmd) {}).symm, hafter]
        rfl
    | created speaker principal ret => exact hspares.elim
    | deleted speaker uuid => exact hspares.elim
  · rw [posted_of_not_parses hparses]
    rfl

lemma type_of_creating {o : CallOutcome} (h : creating c msgId o = .ok p) :
    p.cmd.type = .createPrincipal := by
  cases o with
  | refused code => cases h
  | aborted => cases h
  | sent principal ret =>
      cases h
      rfl

lemma type_of_usesTable {call : LibCall} (htable : UsesTable call)
    (h : call.run coding (some c) msgId = .ok p) :
    p.cmd.type = .createPrincipal ∨ p.cmd.type = .deletePrincipal := by
  cases call with
  | create v call => exact Or.inl (type_of_creating h)
  | createPrincipal v uuid image config nport => exact Or.inl (type_of_creating h)
  | createPrincipalWithAllocatedPorts uuid image config ip portLo portHi =>
      exact Or.inl (type_of_creating h)
  | delete uuid =>
      cases h
      exact Or.inr rfl
  | _ => cases htable

end

/-! ## Processes and their objects -/

/-- What a call of a process that speaks as `myid` requires for an object that it names `object`. -/
def OwnRequirement (myid object : String) (m : ProcessCall) : Option String :=
  match m.lib, m.call with
  | some c, .postObjectAcl (some name) (some requirement) =>
      if c.myid = myid ∧ name = object then some requirement else none
  | _, _ => none

lemma ownRequirement_eq_none {m : ProcessCall}
    (hacl : ∀ name requirement, m.call ≠ .postObjectAcl (some name) (some requirement))
    (myid object : String) : OwnRequirement myid object m = none := by
  unfold OwnRequirement
  split
  · rename_i hcall
    exact absurd hcall (hacl _ _)
  · rfl

/-- The last colon of the name that is posted stands behind the name of the process. -/
lemma actualId_eq_own_iff {speaker name myid object : String} (hbare : ':' ∉ object.toList)
    (hname : name ≠ myid ++ ":" ++ object) :
    MetadataServiceClient.actualId speaker name = myid ++ ":" ++ object ↔
      speaker = myid ∧ name = object := by
  unfold MetadataServiceClient.actualId
  cases hfind : Text.find name ":" with
  | none =>
      have hclean := MetadataServiceClient.find_colon_eq_none.mp hfind
      constructor
      · intro h
        have hlists : speaker.toList ++ ':' :: name.toList
            = myid.toList ++ ':' :: object.toList := by
          simpa using congrArg String.toList h
        obtain ⟨hspeaker, hrest⟩ := Text.split_last hlists hclean hbare
        exact ⟨String.toList_inj.mp hspeaker, String.toList_inj.mp hrest⟩
      · rintro ⟨rfl, rfl⟩
        rfl
  | some i =>
      refine iff_of_false hname ?_
      rintro ⟨-, rfl⟩
      rw [MetadataServiceClient.find_colon_eq_none.mpr hbare] at hfind
      cases hfind

/-- A policy that is posted by the library. -/
lemma requires_postObjectAcl {wire : Wire} {speaker name requirement myid object : String}
    (hbare : ':' ∉ object.toList) (hname : name ≠ myid ++ ":" ++ object) :
    (callOf wire (formatRequest "/postObjectAcl" speaker
        [MetadataServiceClient.actualId speaker name, requirement] "")).toList.findSome?
      (Call.requires (myid ++ ":" ++ object))
      = if speaker = myid ∧ name = object then some requirement else none := by
  have hcall : ∀ id, Call.requires (myid ++ ":" ++ object)
      ⟨.postObjectAcl, some ⟨speaker, [id, requirement]⟩⟩
        = if id = myid ++ ":" ++ object then some requirement else none := by
    intro id
    by_cases hid : id = myid ++ ":" ++ object <;>
      simp [Call.requires, Call.promise, requirementOf, hid]
  have hposted : callOf wire (formatRequest "/postObjectAcl" speaker
      [MetadataServiceClient.actualId speaker name, requirement] "")
    = some ⟨.postObjectAcl, some ⟨speaker, [MetadataServiceClient.actualId speaker name,
        requirement]⟩⟩ := by
    unfold callOf
    rw [wire.route_eq rfl rfl]
    rfl
  rw [hposted, Option.toList_some, List.findSome?_singleton, hcall]
  simp only [actualId_eq_own_iff hbare hname]

/-- **One command.** -/
lemma requires_command {coding : Coding} {env : Env} {wire : Wire} {m : ProcessCall} {cmd : Command}
    {myid object : String} (hcmd : m.command coding = some cmd) (hbare : ':' ∉ object.toList)
    (hnames : ¬ NamesInFull (myid ++ ":" ++ object) m.call) :
    (posted wire env cmd).findSome? (Call.requires (myid ++ ":" ++ object))
      = OwnRequirement myid object m := by
  obtain ⟨lib, s, msgId, call⟩ := m
  rw [ProcessCall.command] at hcmd
  cases lib with
  | none =>
      obtain ⟨e, he⟩ := @LibCall.run_uninitialised coding call msgId
      rw [he] at hcmd
      cases hcmd
  | some c =>
      cases hrun : call.run coding (some c) msgId with
      | error e =>
          rw [hrun] at hcmd
          cases hcmd
      | ok p =>
          rw [hrun] at hcmd
          cases hcmd
          have hdone := call.run_done coding env {} s notImplemented c msgId
          rw [hrun] at hdone
          by_cases htable : UsesTable call
          · have htype : (s.stamp p.cmd).type = .createPrincipal ∨
                (s.stamp p.cmd).type = .deletePrincipal := type_of_usesTable htable hrun
            have hnone : posted wire env (s.stamp p.cmd) = [] :=
              posted_of_table wire env (htype.imp_right Or.inl)
            rw [ownRequirement_eq_none (by rintro name requirement rfl; exact htable)]
            exact congrArg (List.findSome? _) hnone
          by_cases hacl : ∃ name requirement,
              call = .postObjectAcl (some name) (some requirement)
          · obtain ⟨name, requirement, rfl⟩ := hacl
            obtain ⟨_, hp, hleaves, -⟩ := hdone
            cases hp
            cases hrun
            rw [posted_asked hleaves ⟨fun h => (by cases h), fun h => (by cases h)⟩]
            exact requires_postObjectAcl hbare hnames
          · have hother : ∀ name requirement,
                call ≠ .postObjectAcl (some name) (some requirement) :=
              fun name requirement h => hacl ⟨name, requirement, h⟩
            rw [posted_spared hdone (spares_effect _ htable hother hnames),
              ownRequirement_eq_none hother]

/-- A policy is posted wherever the library is initialised. -/
lemma ownRequirement_of_command {coding : Coding} {m : ProcessCall}
    (hcmd : m.command coding = none) (myid object : String) :
    OwnRequirement myid object m = none := by
  obtain ⟨lib, s, msgId, call⟩ := m
  cases lib with
  | none => rfl
  | some c =>
      refine ownRequirement_eq_none ?_ myid object
      rintro name requirement rfl
      cases hcmd

/-- **A run.** -/
lemma requires_run {coding : Coding} {env : Env} {wire : Wire} {calls : List ProcessCall}
    {myid object : String} (hbare : ':' ∉ object.toList)
    (hnames : ∀ m ∈ calls, ¬ NamesInFull (myid ++ ":" ++ object) m.call) :
    ((calls.filterMap (ProcessCall.command coding)).flatMap (posted wire env)).findSome?
      (Call.requires (myid ++ ":" ++ object)) = calls.findSome? (OwnRequirement myid object) := by
  induction calls with
  | nil => rfl
  | cons m rest ih =>
      have hrest := ih fun m' hm' => hnames m' (List.mem_cons_of_mem _ hm')
      cases hcmd : m.command coding with
      | none =>
          rw [List.filterMap_cons_none hcmd, hrest, List.findSome?_cons,
            ownRequirement_of_command hcmd]
      | some cmd =>
          rw [List.filterMap_cons_some hcmd, List.flatMap_cons, List.findSome?_append, hrest,
            requires_command hcmd hbare (hnames m List.mem_cons_self), List.findSome?_cons]
          cases OwnRequirement myid object m <;> rfl

/-- **Who may access the object of a process.**  After any calls of any processes that do not name
it in full, an access to the object is granted exactly to the principals that have what its process
required first; what processes of other names require for objects of theirs plays no part.  An
unnamed process has the name of no other role, and shares it only with the unnamed ones of its
address and its local ports. -/
theorem own_object_access (coding : Coding) (env : Env) {wire : Wire} (hwire : wire.Reads)
    (owner : LatteClient) {object : String} (hbare : ':' ∉ object.toList)
    (calls : List ProcessCall)
    (hcalls : ∀ m ∈ calls, m.Fits coding ∧ ¬ NamesInFull (owner.myid ++ ":" ++ object) m.call)
    {d : Daemon}
    (hrun : Action.forEach (Manager.serve env) (calls.filterMap (ProcessCall.command coding)) {}
      = (.ok (), d))
    (c : LatteClient) (msgId : Int64) (s : Session) (failure : Libport.Response) (ip : String)
    (port : UInt32) {p : Posted}
    (hp : (LibCall.checkAccess (some ip) port (some (owner.myid ++ ":" ++ object))).run coding
      (some c) msgId = .ok p ∧ p.Fits coding)
    (hbacked : Backed wire (p.after env d s).exchanges) :
    (∃ found granted, p.result env d s failure = .int (if granted then 1 else 0) ∧
      (storeOf wire d.exchanges).policy.Resolves ip (asInt port) found ∧
      (granted = true ↔ ∃ q ∈ found, ∃ requirement,
        calls.findSome? (OwnRequirement owner.myid object) = some requirement ∧
          (storeOf wire d.exchanges).policy.Has q.imageId requirement)) ∧
      ∀ machine, Unnamed machine owner →
        (owner.myid ≠ iaasIdentity ∧ owner.myid ≠ attestIdentity) ∧
        ∀ machine' other, Unnamed machine' other → (other.myid = owner.myid ↔
          other.myip = owner.myip ∧ ownPorts machine' = ownPorts machine) := by
  refine ⟨?_, fun machine howner => ⟨unnamed_speaker_ne howner,
    fun machine' other hother => unnamed_speaker_iff howner hother⟩⟩
  have hposted : callsOf wire d.exchanges = (calls.filterMap (ProcessCall.command coding)).flatMap
      (posted wire env) := run_calls hrun
  have hown := requirementOf_history
    ((calls.filterMap (ProcessCall.command coding)).flatMap (posted wire env))
    (owner.myid ++ ":" ++ object)
  rw [requires_run hbare fun m hm => (hcalls m hm).2] at hown
  obtain ⟨found, granted, hresult, hresolves, hgranted⟩ :=
    checkAccess_result coding env c msgId s failure hwire hrun hp.1 hbacked
  have hstore : storeOf wire d.exchanges = (history ((calls.filterMap
      (ProcessCall.command coding)).flatMap (posted wire env))).1 := by rw [storeOf, hposted]
  rw [hstore]
  refine ⟨found, granted, hresult, hresolves, ?_⟩
  rw [hgranted, hown]
  simp only [has_policy, (exact_history _).properties]

/-! ## A run -/

/-- A machine, with the range of ports of one of its processes. -/
def happyMachine (lo hi : Int32) : Machine where
  interfaces := .ok [⟨"lo", some (.inet 127 0 0 1)⟩, ⟨"eth0", some (.inet 192 168 0 7)⟩]
  localPorts := some (lo, hi)
  systemPorts := (1024, 65535)
  listens := fun _ => true

/-- Two processes on that machine. -/
def happyOwner : LatteClient := ⟨"192.168.0.7:3000-3999", "192.168.0.7"⟩

def happyNeighbour : LatteClient := ⟨"192.168.0.7:4000-4999", "192.168.0.7"⟩

lemma unnamed_happyOwner : Unnamed (happyMachine 3000 3999) happyOwner :=
  ⟨none, none, rfl, by decide⟩

lemma unnamed_happyNeighbour : Unnamed (happyMachine 4000 4999) happyNeighbour :=
  ⟨none, none, rfl, by decide⟩

def happyProvider : LatteClient := ⟨iaasIdentity, "must_provide_ip_in_creation_as_iaas"⟩

/-- The neighbour requires something else, earlier, for an object of the same name. -/
def ownedCalls : List ProcessCall :=
  [⟨some happyProvider, {}, 0, .freeCall (some "postInstanceSet")
      ["p1", "image1", "image", "192.168.0.1:1000-2000", "no_config"]⟩,
    ⟨some happyProvider, {}, 1, .freeCall (some "postAttesterImage") ["image1", "no_config"]⟩,
    ⟨some happyProvider, {}, 2,
      .freeCall (some "postImageProperty") ["image1", "no_config", "happy"]⟩,
    ⟨some happyNeighbour, {}, 3, .postObjectAcl (some "object1") (some "unhappy")⟩,
    ⟨some happyOwner, {}, 4, .postObjectAcl (some "object1") (some "happy")⟩]

def ownedCommands (coding : Coding) : List Command :=
  ownedCalls.filterMap (ProcessCall.command coding)

/-- The daemon behind the calls. -/
def ownedDaemon (coding : Coding) : Daemon :=
  (Action.forEach (Manager.serve (happyService 5)) (ownedCommands coding) {}).2

def ownedCheck : Posted :=
  .status (AttGuardClient.checkAccess "192.168.0.1" 5 "192.168.0.1" 1005
    "192.168.0.7:3000-3999:object1")

def ownedExchanges : List Exchange :=
  [⟨formatRequest "/postInstanceSet" iaasIdentity
      ["p1", "image1", "image", "192.168.0.1:1000-2000", "no_config"] "",
      (happyService 5).replies 0⟩,
    ⟨formatRequest "/postAttesterImage" iaasIdentity ["image1", "no_config"] "",
      (happyService 5).replies 1⟩,
    ⟨formatRequest "/postImageProperty" iaasIdentity ["image1", "no_config", "happy"] "",
      (happyService 5).replies 2⟩,
    ⟨formatRequest "/postObjectAcl" happyNeighbour.myid
      ["192.168.0.7:4000-4999:object1", "unhappy"] "", (happyService 5).replies 3⟩,
    ⟨formatRequest "/postObjectAcl" happyOwner.myid
      ["192.168.0.7:3000-3999:object1", "happy"] "", (happyService 5).replies 4⟩,
    ⟨formatRequest "/appAccessesObject" attestIdentity
      ["192.168.0.1:1005", "192.168.0.7:3000-3999:object1"] "", (happyService 5).replies 5⟩]

/-- The store at the end, with both objects. -/
def ownedStore : TestStore :=
  { happyStore with
    objects := (OrderedMap.empty.insert "192.168.0.7:4000-4999:object1" ⟨["unhappy"]⟩).insert
      "192.168.0.7:3000-3999:object1" ⟨["happy"]⟩ }

lemma exchanges_ownedCheck (coding : Coding) :
    (ownedCheck.after (happyService 5) (ownedDaemon coding) {}).exchanges = ownedExchanges := by
  have haddress : formatNetaddr "192.168.0.1" (asInt 1005) = "192.168.0.1:1005" := by decide
  rw [ownedExchanges, ← haddress]
  rfl

lemma backed_ownedExchanges : Backed testWire ownedExchanges := by
  have h₁ : Backed testWire (ownedExchanges.take 1) :=
    @Backed.served _ [] _ _ _ .start .initial rfl rfl rfl
  have h₂ : Backed testWire (ownedExchanges.take 2) := h₁.served
    (show _ = { happyStore with images := .empty, objects := .empty, heap := [] } from rfl) rfl rfl
  have h₃ : Backed testWire (ownedExchanges.take 3) := h₂.served
    (show _ = { happyStore with objects := .empty, heap := [.empty] } from rfl) rfl rfl
  have h₄ : Backed testWire (ownedExchanges.take 4) := h₃.served
    (show _ = { happyStore with objects := .empty } from rfl) rfl rfl
  have h₅ : Backed testWire (ownedExchanges.take 5) := h₄.served
    (show _ = { happyStore with
      objects := OrderedMap.empty.insert "192.168.0.7:4000-4999:object1" ⟨["unhappy"]⟩ } from rfl)
    rfl rfl
  exact h₅.served (show _ = ownedStore from rfl) rfl rfl

lemma unnamed_ownedCalls :
    ∀ m ∈ ownedCalls, ¬ NamesInFull (happyOwner.myid ++ ":" ++ "object1") m.call := by
  simp [ownedCalls, NamesInFull, happyOwner]

lemma serve_owned (coding : Coding) :
    Action.forEach (Manager.serve (happyService 5)) (ownedCommands coding) {}
      = (.ok (), ownedDaemon coding) := rfl

lemma storeOf_owned (coding : Coding) :
    storeOf testWire (ownedDaemon coding).exchanges = ownedStore := rfl

/-- The principal has what the owner of the object asks for, and not what the neighbour does, who
has another name. -/
theorem own_object_access_happy :
    ownedCheck.result (happyService 5) (ownedDaemon .short) {} notImplemented = .int 1 ∧
      happyNeighbour.myid ≠ happyOwner.myid := by
  obtain ⟨⟨found, granted, hresult, hresolves, hgranted⟩, hnames⟩ := own_object_access .short
    (happyService 5) reads_testWire happyOwner (show ':' ∉ "object1".toList by decide) ownedCalls
    (fun m hm => ⟨fun p _ => (by decide : 2 ≤ recvBufsz), unnamed_ownedCalls m hm⟩)
    (serve_owned _) ⟨"192.168.0.1", "192.168.0.1"⟩ 5 {} notImplemented "192.168.0.1" 1005
    ⟨rfl, (by decide : 2 ≤ recvBufsz)⟩ (exchanges_ownedCheck _ ▸ backed_ownedExchanges)
  refine ⟨?_, fun hname => ?_⟩
  swap
  · have hports := (((hnames _ unnamed_happyOwner).2 _ _ unnamed_happyNeighbour).mp hname).2
    exact absurd hports (by decide)
  rw [storeOf_owned] at hresolves hgranted
  rw [hgranted.mpr ?_] at hresult
  · exact hresult
  · rw [@resolves_happy ownedStore rfl _ hresolves]
    exact ⟨_, rfl, "happy", rfl, _, rfl, rfl⟩

end MetadataStub

end Libport
