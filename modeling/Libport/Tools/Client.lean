import Libport.Lib.Run
import Libport.Server.Identity
import Libport.Server.ObjectAcl
import Libport.Server.Registry
import Libport.Tools.Backed
import Libport.Tools.Policy

/-!
# The metadata service client and the stub (`server/metadata.cc`, `tests/test_metadata.cc`)

The test of the client runs its operations against the stub and asserts what they return.  This
module says what they return in any such run, in terms of the policy that the stub keeps.

* `Operation.run`: the operations of the client that reach a route of the stub, and `runAll` a
  program of them.
* `Policy.after` and `Policy.Answers`: what an operation does to the policy and what it returns.
* `Backed.posted` and `Backed.judged`: what comes back over the wire from the handlers that change
  the store and from those that decide.
* `Refines`: an operation is a step of the policy; one lemma for each operation.
* **`client_refines_policy`**: every run of operations against the stub is a run of the policy.
-/

namespace Libport

namespace MetadataStub

/-! ## Operations -/

inductive Operation
  | postNewPrincipal (speaker name ip : String) (portMin portMax : ℤ) (image configs : String)
  | postNewImage (speaker image sourceUrl sourceRev miscConf : String)
  | endorseImage (speaker image endorsement config : String)
  | endorseAttester (speaker image config : String)
  | postObjectAcl (speaker object requirement : String)
  | hasProperty (speaker ip : String) (port : UInt32) (property bearer : String)
  | canAccess (speaker ip : String) (port : UInt32) (object bearer : String)
  | removePrincipal (speaker name ip : String) (portMin portMax : ℤ) (image configs : String)

/-- What an operation returns. -/
inductive Value
  | unit
  | key (identity : String)
  | verdict (granted : Bool)
deriving DecidableEq

/-- Return the value as one of an operation. -/
def returning {α : Type} (wrap : α → Value) (act : Action Exc (List Exchange) α) :
    Action Exc (List Exchange) Value := do
  let a ← act
  pure (wrap a)

def Operation.run (platform : Platform) (replies : ℕ → Outcome) :
    Operation → Action Exc (List Exchange) Value
  | postNewPrincipal speaker name ip portMin portMax image configs =>
      returning .key (MetadataServiceClient.postNewPrincipal platform replies speaker name ip
        portMin portMax image configs)
  | postNewImage speaker image sourceUrl sourceRev miscConf =>
      returning (fun _ => .unit) (MetadataServiceClient.postNewImage platform replies speaker image
        sourceUrl sourceRev miscConf)
  | endorseImage speaker image endorsement config =>
      returning (fun _ => .unit) (MetadataServiceClient.endorseImage platform replies speaker image
        endorsement config)
  | endorseAttester speaker image config =>
      returning (fun _ => .unit) (MetadataServiceClient.endorseAttester platform replies speaker
        image config)
  | postObjectAcl speaker object requirement =>
      returning (fun _ => .unit) (MetadataServiceClient.postObjectAcl platform replies speaker
        object requirement)
  | hasProperty speaker ip port property bearer =>
      returning .verdict (MetadataServiceClient.hasProperty platform replies speaker ip port
        property bearer)
  | canAccess speaker ip port object bearer =>
      returning .verdict (MetadataServiceClient.canAccess platform replies speaker ip port object
        bearer)
  | removePrincipal speaker name ip portMin portMax image configs =>
      returning (fun _ => .unit) (MetadataServiceClient.removePrincipal platform replies speaker
        name ip portMin portMax image configs)

/-- One operation after another, whatever they return or throw. -/
def runAll (platform : Platform) (replies : ℕ → Outcome) (ops : List Operation) :
    List (Operation × Except Exc Value) × List Exchange :=
  ops.foldl (fun (results, log) op =>
    (results ++ [(op, (op.run platform replies log).1)], (op.run platform replies log).2)) ([], [])

/-! ## What the operations come to -/

namespace Policy

/-- The state after an operation. -/
def after (policy : Policy) : Operation → Policy
  | .postNewPrincipal _ name ip portMin portMax image configs =>
      let p := postedPrincipal image (formatNetaddrRange ip portMin portMax) configs
      if policy.Takes name p then policy.apply (.principal name p) else policy
  -- the configuration becomes a property, the source does not
  | .postNewImage _ image _ _ miscConf =>
      if (policy.properties image).isNone then
        (policy.apply (.image image)).apply (.property image miscConf)
      else policy
  | .endorseImage _ image endorsement _ => policy.apply (.property image endorsement)
  -- the path is the one that makes an image known
  | .endorseAttester _ image _ =>
      if (policy.properties image).isNone then policy.apply (.image image) else policy
  | .postObjectAcl speaker object requirement =>
      policy.apply (.requirement (MetadataServiceClient.actualId speaker object) requirement)
  | .removePrincipal _ name _ _ _ _ _ => policy.apply (.retract name)
  | .hasProperty .. | .canAccess .. => policy

/-- What an operation may return or throw. -/
def Answers (wire : Wire) (policy : Policy) : Operation → Except Exc Value → Prop
  | .postNewPrincipal _ name ip portMin portMax image configs, r =>
      if policy.Takes name (postedPrincipal image (formatNetaddrRange ip portMin portMax) configs)
      then Plain name → r = .ok (.key name)
      else ∃ e, r = .error e
  | .postNewImage _ image _ _ _, r =>
      if (policy.properties image).isNone then r = .ok .unit else ∃ e, r = .error e
  | .endorseImage .., r | .endorseAttester .., r | .postObjectAcl .., r => r = .ok .unit
  | .hasProperty _ ip port property _, r =>
      ∃ found granted, policy.Resolves ip (asInt port) found ∧ r = .ok (.verdict granted) ∧
        (granted = true ↔ ∃ p ∈ found, policy.Has p.imageId property)
  | .canAccess _ ip port object _, r =>
      ∃ found granted, policy.Resolves ip (asInt port) found ∧ r = .ok (.verdict granted) ∧
        (granted = true ↔ ∃ p ∈ found, ∃ requirement,
          policy.requirement object = some requirement ∧ policy.Has p.imageId requirement)
  -- the stub answers with an empty body
  | .removePrincipal .., r => r = .ok .unit ↔ ∃ v, wire.extractJson "" = .ok v

/-- An operation, with what it returned or threw, as a step of the policy. -/
def Step (wire : Wire) (policy : Policy) (e : Operation × Except Exc Value) (policy' : Policy) :
    Prop :=
  policy.Answers wire e.1 e.2 ∧ policy' = policy.after e.1

end Policy

/-! ## What comes back over the wire -/

/-- The policy after a log. -/
def policyOf (wire : Wire) (log : List Exchange) : Policy := (storeOf wire log).policy

lemma stringField_message (message : String) :
    (Json.object [("message", .string message)]).stringField "message" = .ok message := rfl

section
variable {wire : Wire} {log : List Exchange} {r : Request} {outcome : Outcome}

lemma Backed.posted (h : Backed wire (log ++ [⟨r, outcome⟩])) {op : Op}
    (hroute : wire.route r.path = some (.post op)) {status : ℕ} {body : String} {policy : Policy}
    (hserves : Serves (storeOf wire log) op r.otherValues status body policy) :
    outcome = .replied ⟨status, wire.extractJson body⟩ ∧
      policyOf wire (log ++ [⟨r, outcome⟩]) = policy := by
  obtain ⟨-, order, -, houtcome⟩ := h.last hroute
  obtain ⟨store', hserved, hpolicy⟩ := hserves r.principal
  refine ⟨?_, ?_⟩
  · rw [houtcome, Route.handler, decoded, hserved]
    rfl
  · rw [policyOf, storeOf_posted hroute, Call.serve, decoded, hserved]
    exact hpolicy

/-- A handler that decides leaves the policy as it is, and its decision is read from the reply. -/
lemma Backed.judged (h : Backed wire (log ++ [⟨r, outcome⟩])) {route : Route}
    (hroute : wire.route r.path = some route)
    (hasks : ∀ order, Asks (storeOf wire log)
      (route.handler order (storeOf wire log) (some (decoded r)))) {text message : String}
    (hjudges : ∀ order, Judges text (route.handler order (storeOf wire log) (some (decoded r))))
    (hread : wire.extractJson text = .ok (.object [("message", .string message)])) (msg : String)
    {judge : String → Bool} (hjudge : judge message = true) :
    policyOf wire (log ++ [⟨r, outcome⟩]) = policyOf wire log ∧
      ∃ order granted, order.Perm (storeOf wire log).stored ∧
        orOnRuntime false ((messageOutcome msg outcome).map judge) = .ok granted ∧
        (granted = true ↔ Granted (route.handler order (storeOf wire log) (some (decoded r)))) := by
  obtain ⟨-, order, horder, houtcome⟩ := h.last hroute
  refine ⟨?_, order, ?_⟩
  · rw [policyOf, storeOf_asked hroute (hasks order)]
    rfl
  · rcases hjudges order with ⟨store', hserved⟩ | ⟨status, body, store', hstatus, hserved⟩
    · refine ⟨true, horder, ?_, iff_of_true rfl ⟨text, store', hserved⟩⟩
      rw [houtcome, hserved, Wire.outcome, hread]
      have hok : jsonOutcome msg (.replied ⟨statusOk, .ok (.object [("message", .string message)])⟩)
          = .ok (.object [("message", .string message)]) := rfl
      simp only [messageOutcome, hok, stringField_message, Except.map, hjudge, orOnRuntime]
    · refine ⟨false, horder, ?_, iff_of_false Bool.false_ne_true ?_⟩
      · have hbad : ¬ status = Libport.statusOk := hstatus
        rw [houtcome, hserved, Wire.outcome]
        simp [messageOutcome, jsonOutcome, hbad, Except.map, orOnRuntime]
      · rw [hserved]
        exact not_granted_answer hstatus body

end

/-! ## Operations are steps -/

/-- Against the stub, the operation is a step of the policy. -/
def Refines (wire : Wire) (platform : Platform) (replies : ℕ → Outcome) (op : Operation) : Prop :=
  ∀ log, Backed wire (op.run platform replies log).2 → Backed wire log ∧
    (policyOf wire log).Step wire (op, (op.run platform replies log).1)
      (policyOf wire (op.run platform replies log).2)

lemma returning_run {α : Type} (wrap : α → Value) (act : Action Exc (List Exchange) α)
    (log : List Exchange) : returning wrap act log = ((act log).1.map wrap, (act log).2) := by
  rw [returning, Action.bind_run]
  rcases act log with ⟨_ | a, log'⟩ <;> rfl

section
variable {wire : Wire} {platform : Platform} {replies : ℕ → Outcome}

/-- An operation whose one reply is only logged. -/
lemma sink_refines {op : Operation} {path speaker msg : String} {values : List String}
    (hrun : op.run platform replies = returning (fun _ => .unit)
      (MetadataServiceClient.sinkPost platform replies path speaker values msg))
    (hpath : isPlainPath path = true) (hmsg : IsPlain msg) {posted : Op}
    (hroute : routeOf path = some (.post posted))
    (hserves : ∀ log, ∃ status, Serves (storeOf wire log) posted values status ""
      ((policyOf wire log).after op))
    (hanswers : ∀ policy : Policy, policy.Answers wire op (.ok .unit)) :
    Refines wire platform replies op := by
  intro log h
  rw [hrun, returning_run, sinkPost_run platform replies log (platform.parsesUri_plain path hpath)
    speaker values hmsg] at h ⊢
  obtain ⟨status, hserves⟩ := hserves log
  obtain ⟨houtcome, hpolicy⟩ := h.posted (wire.route_eq hpath hroute) hserves
  refine ⟨h.front, ?_, hpolicy⟩
  simp only [houtcome]
  exact hanswers _

lemma endorseImage_refines (speaker image endorsement config : String) :
    Refines wire platform replies (.endorseImage speaker image endorsement config) :=
  sink_refines rfl rfl (by decide) rfl
    (fun log => serves_postImageProperty (exact_storeOf wire log) image config endorsement)
    fun _ => rfl

lemma endorseAttester_refines (speaker image config : String) :
    Refines wire platform replies (.endorseAttester speaker image config) := by
  refine sink_refines rfl rfl (by decide) rfl (fun log => ?_) fun _ => rfl
  have hserves := serves_postAttesterImage (exact_storeOf wire log) image config
  rw [Policy.after, policyOf]
  split_ifs at hserves ⊢
  · exact ⟨_, hserves⟩
  · exact ⟨_, hserves⟩

lemma postObjectAcl_refines (speaker object requirement : String) :
    Refines wire platform replies (.postObjectAcl speaker object requirement) :=
  sink_refines rfl rfl (by decide) rfl
    (fun log => ⟨_, serves_postObjectAcl (exact_storeOf wire log)
      (MetadataServiceClient.actualId speaker object) requirement⟩) fun _ => rfl

lemma removePrincipal_refines (speaker name ip : String) (portMin portMax : ℤ)
    (image configs : String) :
    Refines wire platform replies
      (.removePrincipal speaker name ip portMin portMax image configs) := by
  intro log h
  have hrun : Operation.run platform replies
        (.removePrincipal speaker name ip portMin portMax image configs) log
      = ((jsonOutcome "deleting principal" (replies log.length)).map fun _ => .unit,
          log ++ [⟨formatRequest "/retractInstanceSet" speaker
            [name, image, "image", formatNetaddrRange ip portMin portMax, configs] "",
            replies log.length⟩]) := by
    rw [Operation.run, returning_run, MetadataServiceClient.removePrincipal, Action.bind_run,
      jsonPost_plain_run platform replies log (platform.parsesUri_plain _ rfl) _ _ _ (by decide)]
    cases jsonOutcome "deleting principal" (replies log.length) <;> rfl
  rw [hrun] at h ⊢
  obtain ⟨houtcome, hpolicy⟩ := h.posted (wire.route_eq rfl rfl)
    (serves_retractInstanceSet (exact_storeOf wire log) name
      [image, "image", formatNetaddrRange ip portMin portMax, configs])
  refine ⟨h.front, ?_, hpolicy⟩
  have hread : jsonOutcome "deleting principal" (.replied ⟨statusOk, wire.extractJson ""⟩)
      = (wire.extractJson "").mapError BodyError.toExc := by
    cases hempty : wire.extractJson "" <;> rfl
  simp only [Policy.Answers, houtcome, hread]
  cases wire.extractJson "" with
  | ok v => simp [Except.map, Except.mapError]
  | error e => simp [Except.map, Except.mapError]

/-- The two operations that ask. -/
lemma verdict_refines {op : Operation} {path msg ip value bearer : String} {port : UInt32}
    {judge : String → Bool}
    (hrun : op.run platform replies = returning .verdict
      (MetadataServiceClient.verdictPost platform replies path attestIdentity
        [formatNetaddr ip (asInt port), value] bearer msg judge))
    (hpath : isPlainPath path = true) (hmsg : IsPlain msg) {route : Route}
    (hroute : routeOf path = some route)
    (hasks : ∀ store order body, Asks store (route.handler order store body))
    (hafter : ∀ policy : Policy, policy.after op = policy) {text message : String}
    (hjudges : ∀ store order, Judges text (route.handler order store
      (some ⟨attestIdentity, [formatNetaddr ip (asInt port), value]⟩)))
    (hread : wire.extractJson text = .ok (.object [("message", .string message)]))
    (hjudge : judge message = true)
    (hanswers : ∀ log order granted, order.Perm (storeOf wire log).stored →
      (granted = true ↔ Granted (route.handler order (storeOf wire log)
        (some ⟨attestIdentity, [formatNetaddr ip (asInt port), value]⟩))) →
      (policyOf wire log).Answers wire op (.ok (.verdict granted))) :
    Refines wire platform replies op := by
  intro log h
  rw [hrun, returning_run, verdictPost_run platform replies log
    (platform.parsesUri_plain path hpath), printing_of_logs (statusTexts_logs hmsg platform _)]
    at h ⊢
  obtain ⟨hpolicy, order, granted, horder, hverdict, hgranted⟩ :=
    h.judged (wire.route_eq hpath hroute) (fun order => hasks _ order _)
      (hjudges (storeOf wire log)) hread msg hjudge
  refine ⟨h.front, ?_, hpolicy.trans (hafter _).symm⟩
  simp only [hverdict]
  exact hanswers log order granted horder hgranted

lemma hasProperty_refines (hwire : wire.Reads) (speaker ip : String) (port : UInt32)
    (property bearer : String) :
    Refines wire platform replies (.hasProperty speaker ip port property bearer) := by
  refine verdict_refines rfl rfl (by decide) rfl (fun _ order => asks_attestAppProperty order)
    (fun _ => rfl) (fun store order => judges_attestAppProperty _ _ _) hwire.hasProperty (by decide)
    fun log order granted horder hgranted => ?_
  refine ⟨_, granted, resolves_getPrincipal horder ip port, rfl, hgranted.trans ?_⟩
  rw [Route.handler, attestAppProperty_granted]
  simp only [getPrincipal_found_iff, ← has_policy, Option.mem_def]
  rfl

lemma canAccess_refines (hwire : wire.Reads) (speaker ip : String) (port : UInt32)
    (object bearer : String) :
    Refines wire platform replies (.canAccess speaker ip port object bearer) := by
  refine verdict_refines rfl rfl (by decide) rfl (fun _ order => asks_attestObjectAccess order)
    (fun _ => rfl) (fun store order => judges_attestObjectAccess _ _ _) hwire.access (by decide)
    fun log order granted horder hgranted => ?_
  refine ⟨_, granted, resolves_getPrincipal horder ip port, rfl, hgranted.trans ?_⟩
  rw [Route.handler, attestObjectAccess_granted]
  simp only [getPrincipal_found_iff, ← has_policy, (exact_storeOf wire log).requires_iff,
    exists_and_left]
  rfl

/-- A rejected image: the status is logged, and thrown. -/
lemma rejected_run {res : HttpResponse} (hstatus : ¬ res.statusCode = Libport.statusOk)
    (log : List Exchange) :
    (do
      let err ← Action.ofExcept (consumeStatus platform res "creating image")
      Action.throw (.runtimeError err) : Action Exc (List Exchange) Unit) log
      = (.error (.runtimeError (statusText "creating image" res)), log) := by
  rw [Action.bind_run, consumeStatus_eq,
    printing_of_logs (statusTexts_logs (by decide) platform _), if_neg hstatus]
  rfl

/-- The first of the two requests decides whether there is a second. -/
lemma postNewImage_refines (speaker image sourceUrl sourceRev miscConf : String) :
    Refines wire platform replies (.postNewImage speaker image sourceUrl sourceRev miscConf) := by
  intro log h
  rw [Operation.run, returning_run, MetadataServiceClient.postNewImage, Action.bind_run,
    postStatement_run platform replies log (platform.parsesUri_plain _ rfl)] at h ⊢
  obtain ⟨next, hnext⟩ : ∃ next, next = log ++
      [⟨formatRequest "/postAttesterImage" speaker [image, miscConf] "", replies log.length⟩] :=
    ⟨_, rfl⟩
  rw [← hnext] at h ⊢
  have hfirst : Backed wire next := by
    cases hget : (replies log.length).get with
    | error e => simpa only [hget] using h
    | ok res =>
        simp only [hget] at h
        split_ifs at h
        · rw [sinkPost_run platform replies _ (platform.parsesUri_plain _ rfl) _ _ (by decide)] at h
          exact h.front
        · next hstatus =>
            rw [rejected_run hstatus] at h
            exact h
  rw [hnext] at hfirst
  refine ⟨hfirst.front, ?_⟩
  have hserves : if ((policyOf wire log).properties image).isNone then
        Serves (storeOf wire log) .postAttesterImage [image, miscConf] statusOk ""
          ((policyOf wire log).apply (.image image))
      else Serves (storeOf wire log) .postAttesterImage [image, miscConf] statusConflict ""
        (policyOf wire log) := serves_postAttesterImage (exact_storeOf wire log) image miscConf
  rw [Policy.Step, Policy.after, Policy.Answers]
  by_cases hfresh : ((policyOf wire log).properties image).isNone = true
  · rw [if_pos hfresh] at hserves ⊢
    rw [if_pos hfresh]
    obtain ⟨houtcome, hpolicy⟩ := hfirst.posted (wire.route_eq rfl rfl) hserves
    have hget : (replies log.length).get = .ok ⟨Libport.statusOk, wire.extractJson ""⟩ := by
      rw [houtcome]
      rfl
    simp only [hget, if_true] at h ⊢
    rw [sinkPost_run platform replies _ (platform.parsesUri_plain _ rfl) _ _ (by decide)] at h ⊢
    obtain ⟨status, hsecond⟩ := serves_postImageProperty (exact_storeOf wire next) image
      (formatImageSource sourceUrl sourceRev) miscConf
    obtain ⟨houtcome', hpolicy'⟩ := h.posted (wire.route_eq rfl rfl) hsecond
    refine ⟨?_, ?_⟩
    · simp only [houtcome']
      rfl
    · rw [← hnext] at hpolicy
      rw [hpolicy', ← hpolicy]
      rfl
  · rw [if_neg hfresh] at hserves ⊢
    rw [if_neg hfresh]
    obtain ⟨houtcome, hpolicy⟩ := hfirst.posted (wire.route_eq rfl rfl) hserves
    have hget : (replies log.length).get = .ok ⟨statusConflict, wire.extractJson ""⟩ := by
      rw [houtcome]
      rfl
    have hconflict : ¬ statusConflict = Libport.statusOk := by decide
    simp only [hget, if_neg hconflict] at h ⊢
    rw [rejected_run hconflict]
    rw [← hnext] at hpolicy
    exact ⟨⟨_, rfl⟩, hpolicy⟩

/-! ## A principal -/

/-- The key that the client reads from the reply to its first request. -/
def identityOutcome (o : Outcome) : Except Exc String :=
  match jsonOutcome "creating principal" o with
  | .ok v => extractSafeIdentity v
  | .error e => .error e

/-- The name comes back between two quotes, also where it has quotes itself. -/
lemma identityOutcome_key (hwire : wire.Reads) {name : String} (hplain : Plain name) :
    identityOutcome (.replied ⟨statusOk,
        wire.extractJson (r#"{"message":"['"# ++ name ++ r#"']"}"#)⟩) = .ok name := by
  have hread : jsonOutcome "creating principal" (.replied ⟨statusOk,
      wire.extractJson (r#"{"message":"['"# ++ name ++ r#"']"}"#)⟩)
        = .ok (.object [("message", .string ("['" ++ name ++ "']"))]) := by
    rw [hwire.key name hplain]
    rfl
  rw [identityOutcome, hread]
  refine extractSafeIdentity_of_quoted (stringField_message _)
    (show Quoted _ "[" name "]" from ⟨?_, ?_, ?_⟩)
  · rw [← String.toList_inj]
    simp
  · decide
  · decide

/-- An empty body has no key. -/
lemma identityOutcome_empty (hwire : wire.Reads) (status : ℕ) :
    ∃ e, identityOutcome (.replied ⟨status, wire.extractJson ""⟩) = .error e := by
  rw [identityOutcome]
  by_cases hstatus : status = Libport.statusOk
  · simp only [jsonOutcome, hstatus, if_true]
    cases hempty : wire.extractJson "" with
    | error e => exact ⟨_, rfl⟩
    | ok v =>
        cases v with
        | object fields => exact absurd hempty (hwire.empty fields)
        | _ => exact ⟨_, rfl⟩
  · simp only [jsonOutcome, hstatus, if_false]
    exact ⟨_, rfl⟩

lemma postNewPrincipal_run (speaker name ip : String) (portMin portMax : ℤ)
    (image configs : String) (log : List Exchange) :
    Operation.run platform replies
        (.postNewPrincipal speaker name ip portMin portMax image configs) log
      = match identityOutcome (replies log.length) with
        | .error e => (.error e, log ++ [⟨formatRequest "/postInstanceSet" speaker
            [name, image, "image", formatNetaddrRange ip portMin portMax, configs] "",
            replies log.length⟩])
        | .ok key => ((replies (log.length + 1)).get.map fun _ => .key key,
            log ++ [⟨formatRequest "/postInstanceSet" speaker
                [name, image, "image", formatNetaddrRange ip portMin portMax, configs] "",
                replies log.length⟩]
              ++ [⟨formatRequest "/updateSubjectSet" (formatNetaddrRange ip portMin portMax) [key]
                "", replies (log.length + 1)⟩]) := by
  rw [Operation.run, returning_run, MetadataServiceClient.postNewPrincipal, catchRuntime_rethrow,
    Action.bind_run, Action.bind_run, jsonPost_plain_run platform replies log
      (platform.parsesUri_plain _ rfl) _ _ _ (by decide), identityOutcome]
  cases jsonOutcome "creating principal" (replies log.length) with
  | error e => rfl
  | ok v =>
      simp only [Action.ofExcept_run]
      cases extractSafeIdentity v with
      | error e => rfl
      | ok key =>
          have hmsg : IsPlain "updating subject" := by decide
          simp only [Action.bind_run, sinkPost_run platform replies _
            (platform.parsesUri_plain "/updateSubjectSet" rfl) _ _ hmsg, List.length_append,
            List.length_cons, List.length_nil, Nat.zero_add]
          cases (replies (log.length + 1)).get <;> rfl

/-- The second request only asks, and is answered. -/
lemma Backed.subject {log : List Exchange} {speaker key : String} {outcome : Outcome}
    (h : Backed wire (log ++ [⟨formatRequest "/updateSubjectSet" speaker [key] "", outcome⟩])) :
    (∃ res, outcome.get = .ok res) ∧
      policyOf wire (log ++ [⟨formatRequest "/updateSubjectSet" speaker [key] "", outcome⟩])
        = policyOf wire log := by
  have hroute : wire.route (formatRequest "/updateSubjectSet" speaker [key] "").path
      = some .updateSubjectSet := wire.route_eq rfl rfl
  obtain ⟨-, order, -, houtcome⟩ := h.last hroute
  refine ⟨?_, ?_⟩
  · simp only [Route.handler, updateSubjectSet, readRequest, decoded, formatRequest,
      List.getElem?_cons_zero, Option.bind_eq_bind, Option.bind_some] at houtcome
    split_ifs at houtcome
    · exact ⟨_, congrArg Outcome.get houtcome⟩
    · exact ⟨_, congrArg Outcome.get houtcome⟩
  · rw [policyOf, @storeOf_asked _ _ _ _ hroute order (asks_updateSubjectSet _)]
    rfl

lemma postNewPrincipal_refines (hwire : wire.Reads) (speaker name ip : String)
    (portMin portMax : ℤ) (image configs : String) :
    Refines wire platform replies
      (.postNewPrincipal speaker name ip portMin portMax image configs) := by
  intro log h
  rw [postNewPrincipal_run] at h ⊢
  obtain ⟨next, hnext⟩ : ∃ next, next = log ++ [⟨formatRequest "/postInstanceSet" speaker
      [name, image, "image", formatNetaddrRange ip portMin portMax, configs] "",
      replies log.length⟩] := ⟨_, rfl⟩
  rw [← hnext] at h ⊢
  have hfirst : Backed wire next := by
    cases hkey : identityOutcome (replies log.length) with
    | error e => simpa only [hkey] using h
    | ok key =>
        simp only [hkey] at h
        exact h.front
  rw [hnext] at hfirst
  refine ⟨hfirst.front, ?_⟩
  have hserves := serves_postInstanceSet (exact_storeOf wire log) name image "image"
    (formatNetaddrRange ip portMin portMax) configs
  rw [Policy.Step, Policy.after, Policy.Answers]
  rcases hserves with ⟨htakes, hserves⟩ | ⟨htakes, status, hserves⟩
  · obtain ⟨houtcome, hpolicy⟩ := hfirst.posted (wire.route_eq rfl rfl) hserves
    rw [← hnext] at hpolicy
    simp only [if_pos (show (policyOf wire log).Takes _ _ from htakes)]
    refine ⟨fun hplain => ?_, ?_⟩
    · have hkey := identityOutcome_key hwire hplain
      rw [← houtcome] at hkey
      simp only [hkey] at h ⊢
      obtain ⟨⟨res, hres⟩, -⟩ := h.subject
      rw [hres]
      rfl
    · cases hkey : identityOutcome (replies log.length) with
      | error e => exact hpolicy
      | ok key =>
          simp only [hkey] at h
          exact h.subject.2.trans hpolicy
  · obtain ⟨houtcome, hpolicy⟩ := hfirst.posted (wire.route_eq rfl rfl) hserves
    rw [← hnext] at hpolicy
    obtain ⟨e, he⟩ := identityOutcome_empty hwire status
    rw [← houtcome] at he
    simp only [if_neg (show ¬ (policyOf wire log).Takes _ _ from htakes), he]
    exact ⟨⟨e, rfl⟩, hpolicy⟩

/-! ## Runs -/

/-- **The step lemma.** -/
lemma refines_step (hwire : wire.Reads) (op : Operation) : Refines wire platform replies op := by
  cases op with
  | postNewPrincipal speaker name ip portMin portMax image configs =>
      exact postNewPrincipal_refines hwire speaker name ip portMin portMax image configs
  | postNewImage speaker image sourceUrl sourceRev miscConf =>
      exact postNewImage_refines speaker image sourceUrl sourceRev miscConf
  | endorseImage speaker image endorsement config =>
      exact endorseImage_refines speaker image endorsement config
  | endorseAttester speaker image config => exact endorseAttester_refines speaker image config
  | postObjectAcl speaker object requirement =>
      exact postObjectAcl_refines speaker object requirement
  | hasProperty speaker ip port property bearer =>
      exact hasProperty_refines hwire speaker ip port property bearer
  | canAccess speaker ip port object bearer =>
      exact canAccess_refines hwire speaker ip port object bearer
  | removePrincipal speaker name ip portMin portMax image configs =>
      exact removePrincipal_refines speaker name ip portMin portMax image configs

lemma runAll_concat (ops : List Operation) (op : Operation) :
    runAll platform replies (ops ++ [op])
      = ((runAll platform replies ops).1 ++
            [(op, (op.run platform replies (runAll platform replies ops).2).1)],
          (op.run platform replies (runAll platform replies ops).2).2) := by
  rw [runAll, List.foldl_append]
  rfl

/-- **Every run of the client against the stub is a run of the policy**: what the operations
return and throw is what the policy says, each in the state that those before have left. -/
theorem client_refines_policy (hwire : wire.Reads) (ops : List Operation)
    (h : Backed wire (runAll platform replies ops).2) :
    Run (Policy.Step wire) .initial (runAll platform replies ops).1
      (policyOf wire (runAll platform replies ops).2) := by
  induction ops using List.reverseRecOn with
  | nil => exact Run.nil
  | append_singleton ops op ih =>
      rw [runAll_concat] at h ⊢
      obtain ⟨hfront, hstep⟩ := refines_step hwire op _ h
      exact (ih hfront).snoc hstep

/-! ## The program of the test -/

lemma Backed.served {log : List Exchange} {r : Request} {route : Route} {outcome : Outcome}
    (h : Backed wire log) {store : TestStore} (hstore : storeOf wire log = store)
    (hroute : wire.route r.path = some route)
    (houtcome : outcome = wire.outcome (route.handler store.stored store (some (decoded r)))) :
    Backed wire (log ++ [⟨r, outcome⟩]) := by
  subst hstore
  rw [houtcome]
  exact h.routed (List.Perm.refl _) hroute

end

/-- A reader that is enough for the replies of the stub: the string behind the first colon. -/
def readMessage (text : String) : Except BodyError Json :=
  match ((text.toList.dropWhile (· ≠ ':')).drop 1).dropWhile (· = ' ') with
  | '"' :: rest => .ok (.object [("message", .string (String.ofList (rest.takeWhile (· ≠ '"'))))])
  | _ => .ok .null

def testWire : Wire := ⟨readMessage, .http "connection closed", routeOf, fun _ _ => rfl⟩

lemma reads_testWire : testWire.Reads where
  key := by
    intro name hplain
    have hlist : (r#"{"message":"['"# ++ name ++ r#"']"}"#).toList
        = r#"{"message""#.toList ++ ':' :: '"' :: (("['" ++ name ++ "']").toList
          ++ ['"', '}']) := by simp
    have hclean : ∀ c ∈ ("['" ++ name ++ "']").toList, (decide (c ≠ '"')) = true := by
      intro c hc
      have hopen : "['".toList = ['[', '\x27'] := rfl
      have hclose : "']".toList = ['\x27', ']'] := rfl
      simp only [String.toList_append, hopen, hclose, List.mem_append, List.mem_cons,
        List.not_mem_nil, or_false] at hc
      rw [decide_eq_true_iff]
      rcases hc with ((rfl | rfl) | hc) | rfl | rfl
      · decide
      · decide
      · exact (hplain c hc).1
      · decide
      · decide
    have hfront : ∀ c ∈ r#"{"message""#.toList, (decide (c ≠ ':')) = true :=
      List.all_eq_true.mp rfl
    have htake : (("['" ++ name ++ "']").toList ++ ['"', '}']).takeWhile
        (fun c => decide (c ≠ '"')) = ("['" ++ name ++ "']").toList := by
      rw [List.takeWhile_append_of_pos hclean]
      simp
    simp only [testWire, readMessage, hlist, List.dropWhile_append_of_pos hfront]
    change Except.ok (Json.object [("message", .string (String.ofList
      ((("['" ++ name ++ "']").toList ++ ['"', '}']).takeWhile fun c => decide (c ≠ '"'))))]) = _
    rw [htake, String.ofList_toList]
  hasProperty := rfl
  access := rfl
  empty := by
    intro fields h
    cases h

def happyProgram : List Operation :=
  [.postNewPrincipal "iaas" "p1" "192.168.0.1" 1000 2000 "image1" "no_config",
    .endorseAttester "iaas" "image1" "no_config",
    .endorseImage "iaas" "image1" "happy" "no_config",
    .postObjectAcl "alice" "object1" "happy"]

/-- The replies to the program, and a last one. -/
def happyReplies (last : Response) : ℕ → Outcome
  | 0 => .replied ⟨200, readMessage r#"{"message":"['p1']"}"#⟩
  | 5 => .replied ⟨last.status, readMessage last.body⟩
  | _ => .replied ⟨200, readMessage ""⟩

/-- The store after the program. -/
def happyStore : TestStore where
  principals := OrderedMap.empty.insert "p1"
    (postedPrincipal "image1" "192.168.0.1:1000-2000" "no_config")
  images := OrderedMap.empty.insert "image1" ⟨0⟩
  objects := OrderedMap.empty.insert "alice:object1" ⟨["happy"]⟩
  heap := [OrderedMap.empty.insert "happy" "set"]

/-- The exchanges of the program. -/
def happyLog (last : Response) : List Exchange :=
  [⟨formatRequest "/postInstanceSet" "iaas"
      ["p1", "image1", "image", "192.168.0.1:1000-2000", "no_config"] "", happyReplies last 0⟩,
    ⟨formatRequest "/updateSubjectSet" "192.168.0.1:1000-2000" ["p1"] "", happyReplies last 1⟩,
    ⟨formatRequest "/postAttesterImage" iaasIdentity ["image1", "no_config"] "",
      happyReplies last 2⟩,
    ⟨formatRequest "/postImageProperty" "iaas" ["image1", "no_config", "happy"] "",
      happyReplies last 3⟩,
    ⟨formatRequest "/postObjectAcl" "alice" ["alice:object1", "happy"] "", happyReplies last 4⟩]

lemma runAll_happy (last : Response) :
    (runAll .strict (happyReplies last) happyProgram).2 = happyLog last := rfl

lemma backed_happy (last : Response) :
    Backed testWire (runAll .strict (happyReplies last) happyProgram).2 := by
  have h₁ : Backed testWire ((happyLog last).take 1) :=
    @Backed.served _ [] _ _ _ .start .initial rfl rfl rfl
  have h₂ : Backed testWire ((happyLog last).take 2) := h₁.served
    (show _ = { happyStore with images := .empty, objects := .empty, heap := [] } from rfl) rfl rfl
  have h₃ : Backed testWire ((happyLog last).take 3) := h₂.served
    (show _ = { happyStore with images := .empty, objects := .empty, heap := [] } from rfl) rfl rfl
  have h₄ : Backed testWire ((happyLog last).take 4) := h₃.served
    (show _ = { happyStore with objects := .empty, heap := [.empty] } from rfl) rfl rfl
  rw [runAll_happy]
  exact h₄.served (show _ = { happyStore with objects := .empty } from rfl) rfl rfl

lemma storeOf_happyLog (last : Response) : storeOf testWire (happyLog last) = happyStore := rfl

/-- The program is a run of the policy. -/
theorem client_refines_policy_happy :
    Run (Policy.Step testWire) .initial (runAll .strict (happyReplies approveAccess) happyProgram).1
      (policyOf testWire (runAll .strict (happyReplies approveAccess) happyProgram).2) :=
  client_refines_policy reads_testWire happyProgram (backed_happy approveAccess)

end MetadataStub

end Libport
