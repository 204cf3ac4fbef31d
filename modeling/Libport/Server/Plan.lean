import Libport.Server.Manager

/-!
# What a handler does, seen from outside

Nineteen of the twenty-two handlers do not touch the principal table: each reads its statement,
sends at most one request, and makes a response of what comes back.  A `Plan` says that and no
more.

* `Plan.crash` — the handler leaves `dispatch` by a null pointer, a fatal error or a path that is
  no URI;
* `Plan.reply` — it answers without asking the metadata service;
* `Plan.ask` — it sends one request, and an `Ending` makes a response or an exception of the
  outcome.

`planOf` reads the plan of a command off its type and statement alone.  **`answer_eq_plan`** is
the refinement: whatever the state and the service, answering the command is running its plan
under the `catch` clauses of `dispatch`.  The three handlers that use the table have no plan.

An `Ending` is a continuation chain of `metadata.cc` together with the response the handler makes
of its value.  There are four, so a claim about every reply of the service is a claim about the
four cases of `Ending.apply`.

What is logged on the way is kept apart from what is made of a reply.  `Outcome.statusTexts` is the
text of a bad status, and `Platform.printing` puts the texts in front of an end: it is reached
when the platform gets through each of them, and otherwise the end is undefined.
-/

namespace Libport

/-- An outcome as the value or exception of the request task. -/
def Outcome.get : Outcome → Except Exc HttpResponse
  | failed e => .error e.toExc
  | replied res => .ok res

/-- The outcome is a reply, and its status is not `200`. -/
def Outcome.Rejected : Outcome → Prop
  | failed _ => False
  | replied res => res.statusCode ≠ statusOk

/-! ## What is logged -/

/-- Log the texts, each as the format, and end in `x`. -/
def Platform.printing {α : Type} (platform : Platform) (texts : List String) (x : Except Exc α) :
    Except Exc α :=
  if texts.all platform.logs then x else .error .undefined

section Printing

variable {platform : Platform} {texts : List String} {α : Type} {x : Except Exc α}

@[simp] lemma printing_nil : platform.printing [] x = x := rfl

lemma printing_of_logs (h : ∀ text ∈ texts, platform.logs text = true) :
    platform.printing texts x = x := if_pos (List.all_eq_true.mpr h)

lemma printing_of_not_logs (h : ¬ ∀ text ∈ texts, platform.logs text = true) :
    platform.printing texts x = .error .undefined := if_neg fun hall => h (List.all_eq_true.mp hall)

/-- An end behind the log is the end itself, or undefined. -/
lemma printing_cases (platform : Platform) (texts : List String) :
    (∀ (α : Type) (x : Except Exc α), platform.printing texts x = x) ∨
      ∀ (α : Type) (x : Except Exc α), platform.printing texts x = .error .undefined := by
  by_cases h : ∀ text ∈ texts, platform.logs text = true
  · exact Or.inl fun _ _ => printing_of_logs h
  · exact Or.inr fun _ _ => printing_of_not_logs h

/-- An end other than the undefined one is reached past every text. -/
lemma printing_eq_ok {a : α} :
    platform.printing texts x = .ok a ↔
      (∀ text ∈ texts, platform.logs text = true) ∧ x = .ok a := by
  by_cases h : ∀ text ∈ texts, platform.logs text = true
  · rw [printing_of_logs h]
    exact (and_iff_right h).symm
  · rw [printing_of_not_logs h]
    exact iff_of_false nofun fun hok => h hok.1

lemma printing_append (texts' : List String) :
    platform.printing (texts ++ texts') x
      = platform.printing texts (platform.printing texts' x) := by
  rw [Platform.printing, List.all_append, Platform.printing, Platform.printing]
  cases texts.all platform.logs <;> rfl

end Printing

/-- The text that `consume_status` logs of an outcome, under the message `msg`. -/
def Outcome.statusTexts (msg : String) : Outcome → List String
  | failed _ => []
  | replied res => if res.statusCode = statusOk then [] else [statusText msg res]

@[simp] lemma isPlain_append (s t : String) : IsPlain (s ++ t) ↔ IsPlain s ∧ IsPlain t := by
  rw [IsPlain, String.toList_append, List.mem_append, not_or]
  rfl

lemma isPlain_cString {s : String} (hs : IsPlain s) : IsPlain (Text.cString s) := by
  rw [IsPlain, Text.cString, String.toList_ofList]
  exact fun hmem => hs ((List.takeWhile_sublist _).subset hmem)

lemma isPlain_statusText {msg : String} (hmsg : IsPlain msg) (res : HttpResponse) :
    IsPlain (statusText msg res) := by
  have hdigits : IsPlain (toString res.statusCode) := by
    rw [IsPlain, Nat.toString_eq_repr, Nat.toList_repr]
    exact Text.notMem_toDigits rfl _
  simp only [statusText, isPlain_append]
  exact ⟨⟨⟨⟨by decide, hmsg⟩, by decide⟩, hdigits⟩, by decide⟩

/-- A message without a directive is logged. -/
lemma statusTexts_logs {msg : String} (hmsg : IsPlain msg) (platform : Platform) (o : Outcome) :
    ∀ text ∈ o.statusTexts msg, platform.logs text = true := by
  intro text htext
  cases o with
  | failed e => cases htext
  | replied res =>
      rw [Outcome.statusTexts] at htext
      split_ifs at htext
      · cases htext
      · rw [List.mem_singleton.mp htext]
        exact platform.logs_plain _ (isPlain_statusText hmsg res)

lemma consumeStatus_eq (platform : Platform) (res : HttpResponse) (msg : String) :
    consumeStatus platform res msg
      = platform.printing ((Outcome.replied res).statusTexts msg)
          (.ok (if res.statusCode = statusOk then "" else statusText msg res)) := by
  rw [consumeStatus, Outcome.statusTexts]
  by_cases hs : res.statusCode = statusOk
  · simp only [hs, ne_eq, not_true_eq_false, if_false, if_true]
    rfl
  · simp only [hs, ne_eq, not_false_eq_true, if_true, if_false, Platform.log, Platform.printing,
      List.all_cons, List.all_nil, Bool.and_true]
    cases platform.logs (statusText msg res) <;> rfl

/-! ## The four endings -/

/-- The JSON of the reply. -/
def jsonOutcome (msg : String) : Outcome → Except Exc Json
  | .failed e => .error e.toExc
  | .replied res =>
      if res.statusCode = statusOk then
        match res.body with
        | .ok v => .ok v
        | .error e => .error e.toExc
      else .error (.runtimeError (statusText msg res))

/-- JSON is read from a reply with status `200` only. -/
lemma jsonOutcome_eq_ok {msg : String} {o : Outcome} {v : Json} :
    jsonOutcome msg o = .ok v ↔
      ∃ res, o = .replied res ∧ res.statusCode = statusOk ∧ res.body = .ok v := by
  cases o with
  | failed e => simp [jsonOutcome]
  | replied res =>
      simp only [jsonOutcome, Outcome.replied.injEq]
      constructor
      · intro h
        split_ifs at h with hs
        refine ⟨res, rfl, hs, ?_⟩
        cases hb : res.body with
        | ok w => rw [hb] at h; cases h; rfl
        | error b => rw [hb] at h; cases h
      · rintro ⟨_, rfl, hs, hb⟩
        rw [if_pos hs, hb]

/-- The `message` of the JSON reply. -/
def messageOutcome (msg : String) (o : Outcome) : Except Exc String :=
  match jsonOutcome msg o with
  | .ok v => v.stringField "message"
  | .error e => .error e

/-- A `catch (std::runtime_error &)` that returns `fallback`. -/
def orOnRuntime {α : Type} (fallback : α) : Except Exc α → Except Exc α
  | .ok a => .ok a
  | .error (.runtimeError _) => .ok fallback
  | .error e => .error e

/-- The ways a handler can end after its request. -/
inductive Ending
  /-- the reply goes to `sink_task` and success is reported -/
  | sink
  /-- the reply goes to `json_task` and success is reported -/
  | json (msg : String)
  /-- the verdict on the message of the reply is reported -/
  | verdict (msg : String) (judge : String → Bool)
  /-- the message of the reply is the content of an attestation -/
  | attest (msg : String)

/-- What an ending logs of an outcome.  The messages of `sink_task` are all literals. -/
def Ending.statusTexts : Ending → Outcome → List String
  | sink, _ => []
  | json msg, o => o.statusTexts msg
  | verdict msg _, o => o.statusTexts msg
  | attest msg, o => o.statusTexts msg

/-- The message of the ending has no directive. -/
def Ending.Literal : Ending → Prop
  | sink => True
  | json msg => IsPlain msg
  | verdict msg _ => IsPlain msg
  | attest msg => IsPlain msg

/-- Such a message is always logged. -/
lemma Ending.Literal.logs {ending : Ending} (h : ending.Literal) (platform : Platform)
    (o : Outcome) : ∀ text ∈ ending.statusTexts o, platform.logs text = true := by
  cases ending with
  | sink => exact fun text htext => absurd htext List.not_mem_nil
  | json msg => exact statusTexts_logs h platform o
  | verdict msg judge => exact statusTexts_logs h platform o
  | attest msg => exact statusTexts_logs h platform o

/-- The response, or the exception, an ending makes of an outcome. -/
def Ending.apply : Ending → Outcome → Except Exc Response
  | sink, o => o.get.map fun _ => makeStatusResponse true ""
  | json msg, o => (jsonOutcome msg o).map fun _ => makeStatusResponse true ""
  | verdict msg judge, o =>
      (orOnRuntime false ((messageOutcome msg o).map judge)).map (makeStatusResponse · "")
  | attest msg, o => (orOnRuntime "" (messageOutcome msg o)).map fun content =>
      makeAttestationResponse { content := content }

/-! ## Plans -/

/-- The ways a handler brings the daemon down before it asks. -/
inductive Crash
  | nullPointer
  | fatal (what : String)
  | badUri

/-- A crash as the exception that carries it out of `dispatch`. -/
def Crash.toExc : Crash → Exc
  | nullPointer => .nullPointer
  | fatal what => .fatalException what
  | badUri => .uriException

/-- What a handler that leaves the principal table alone does. -/
inductive Plan
  | crash (c : Crash)
  | reply (r : Response)
  | ask (req : Request) (ending : Ending)

/-- Carry a plan out. -/
def Plan.run (platform : Platform) (replies : ℕ → Outcome) :
    Plan → Action Exc Daemon (Option Response)
  | crash c => Action.throw c.toExc
  | reply r => respond r
  | ask req ending => fun d =>
      let outcome := replies d.exchanges.length
      (platform.printing (ending.statusTexts outcome) ((ending.apply outcome).map some),
        { d with exchanges := d.exchanges ++ [⟨req, outcome⟩] })

/-- The plan of a handler that dereferences its statement unchecked. -/
def Plan.needs {α : Type} (statement : Option α) (k : α → Plan) : Plan :=
  match statement with
  | some a => k a
  | none => .crash .nullPointer

/-- The plan of a handler that refuses an empty repeated field. -/
def Plan.first {α : Type} (items : List α) (refusal : String) (k : α → Plan) : Plan :=
  match items with
  | a :: _ => k a
  | [] => .reply (makeStatusResponse false refusal)

/-- The plan of a handler that reads the legacy key unchecked. -/
def Plan.legacy (config : ConfigMap) (k : String → Plan) : Plan :=
  match config.find? legacyConfigKey with
  | some value => k value
  | none => .crash (.fatal ("key not found: " ++ legacyConfigKey))

/-- The plan of a handler that makes a URI of the path unchecked. -/
def Plan.parsed (platform : Platform) (path : String) (plan : Plan) : Plan :=
  if platform.parsesUri path then plan else .crash .badUri

/-- The legacy key is present. -/
def HasLegacyKey (config : ConfigMap) : Prop := (config.find? legacyConfigKey).isSome

lemma hasLegacyKey_iff (config : ConfigMap) :
    HasLegacyKey config ↔ ∃ value, config.find? legacyConfigKey = some value := by
  rw [HasLegacyKey, Option.isSome_iff_exists]

/-- A request in the name of `speaker`. -/
def askFor (speaker path : String) (values : List String) (ending : Ending) : Plan :=
  .ask (formatRequest path speaker values "") ending

/-- A request in the command's own name. -/
def askAs (cmd : Command) : (path : String) → (values : List String) → Ending → Plan :=
  askFor cmd.auth

/-- The plan of a command; none for the three types that use the principal table. -/
def planOf (env : Env) (cmd : Command) : Option Plan :=
  match cmd.type with
  | .createPrincipal | .deletePrincipal | .getLocalPrincipal => none
  | .getPrincipal | .endorsePrincipal | .revokePrincipalEndorsement | .revoke =>
      some (.reply notImplemented)
  | .getMetadataConfig => some (.reply (makeMetadataConfigResponse env.metadataConfig))
  | .freeCall => some <| .needs (extractFreeCall cmd) fun m =>
      .parsed env.platform (MetadataServiceClient.callUrl m.cmd) <|
        askAs cmd (MetadataServiceClient.callUrl m.cmd) m.otherValues
          (.json (Text.cString (MetadataServiceClient.callUrl m.cmd)))
  | .guardCall => some <| .needs (extractGuardCall cmd) fun m =>
      .parsed env.platform (MetadataServiceClient.callUrl m.cmd) <|
        askAs cmd (MetadataServiceClient.callUrl m.cmd) m.otherValues
          (.verdict (Text.cString (MetadataServiceClient.callUrl m.cmd))
            fun message => !MetadataServiceClient.mentions "Exception" message)
  | .linkImage => some <| .needs (extractLinkImage cmd) fun m =>
      askAs cmd "/postLinkImageOwner" [if m.host = "" then cmd.auth else m.host, m.image]
        (.json "New Endorsements")
  | .endorse => some <| .needs (extractEndorse cmd) fun m =>
      .first m.endorsements "must provide at least one property" fun e =>
        askAs cmd "/postEndorsement" [m.id, e.property, e.value] (.json "New Endorsements")
  | .postAcl => some <| .needs (extractPostAcl cmd) fun m =>
      .first m.policies "must provide one policy" fun policy =>
        askAs cmd "/postObjectAcl"
          [match Text.find m.name ":" with
            | none => cmd.auth ++ ":" ++ m.name
            | some _ => m.name, policy] .sink
  | .endorseMembership => some <| .needs (extractEndorsePrincipal cmd) fun m =>
      .first m.endorsements "must provide one endorsement" fun e =>
        .legacy m.principal.code.config fun config =>
          askAs cmd "/postWorkerSet"
            [e.property, formatNetaddr m.principal.auth.ip (asInt m.principal.auth.portLo), config]
            .sink
  | .endorseAttesterImage => some <| .needs (extractEndorse cmd) fun m =>
      .legacy m.config fun config =>
        askFor iaasIdentity
          (if m.type = .source then "/postAttesterSource" else "/postAttesterImage")
          [m.id, config] .sink
  | .endorseBuilderImage => some <| .needs (extractEndorse cmd) fun m =>
      .first m.endorsements "must provide one endorsement" fun _ =>
        .legacy m.config fun config =>
          if m.type = .source then askAs cmd "/postSourceImage" [m.id, config] .sink
          else askFor iaasIdentity "/postBuilderImage" [m.id, config] .sink
  | .endorseSourceImage => some <| .needs (extractEndorse cmd) fun m =>
      .first m.endorsements "must provide one endorsement" fun e =>
        .legacy m.config fun config =>
          if m.type = .source then
            .reply (makeStatusResponse false "source endorse this is image only")
          else askAs cmd "/postImageProperty" [m.id, config, e.property] .sink
  | .checkProperty => some <| .needs (extractCheckProperty cmd) fun m =>
      .first m.properties "must provide one property" fun prop =>
        askFor attestIdentity "/attestAppProperty"
          [formatNetaddr m.principal.auth.ip (asInt m.principal.auth.portLo), prop]
          (.verdict "attest property" (MetadataServiceClient.mentions "programHasProperty"))
  | .checkAttestation => some <| .needs (extractCheckAttestation cmd) fun m =>
      askAs cmd "/attestInstance"
        [formatNetaddr m.principal.auth.ip (asInt m.principal.auth.portLo)]
        (.attest "attest instance")
  | .checkAccess => some <| .needs (extractCheckAccess cmd) fun m =>
      .first m.objects "must provide one object" fun object =>
        askFor attestIdentity "/appAccessesObject"
          [formatNetaddr m.principal.auth.ip (asInt m.principal.auth.portLo), object]
          (.verdict "attest access" (MetadataServiceClient.mentions "approveAccess"))
  | .checkWorkerAccess => some <| .needs (extractCheckAccess cmd) fun m =>
      .first m.objects "must provide one object" fun object =>
        askFor attestIdentity "/workerAccessesObject"
          [formatNetaddr m.principal.auth.ip (asInt m.principal.auth.portLo), object]
          (.verdict "attest worker access" (MetadataServiceClient.mentions "approveAccess"))
  | .checkImageProperty => some <| .needs (extractCheckImage cmd) fun m =>
      .first m.property "must provide one property" fun prop =>
        .legacy m.config fun config =>
          askFor attestIdentity "/checkImgProperty" [m.image, config, prop]
            (.verdict "check image property"
              (MetadataServiceClient.mentions "hasSafetyProperty"))
  | .endorseImageProperty => some (.reply
      (makeStatusResponse false ("not handler found for type " ++ cmd.type.name)))
  | .unrecognized _ => some (.reply
      (makeStatusResponse false ("not handler found for type " ++ cmd.type.name)))

/-! ## The request of a plan -/

/-- The plan sends a request, and `P` holds of the request and of what ends it. -/
def Plan.Asks (P : Request → Ending → Prop) : Plan → Prop
  | crash _ => False
  | reply _ => False
  | ask req ending => P req ending

section Asks

variable {P : Request → Ending → Prop}

@[simp] lemma Plan.asks_needs {α : Type} (x : Option α) (k : α → Plan) :
    (Plan.needs x k).Asks P ↔ ∃ a, x = some a ∧ (k a).Asks P := by
  cases x with
  | none => simp [Plan.needs, Plan.Asks]
  | some a => simp [Plan.needs]

@[simp] lemma Plan.asks_first {α : Type} (items : List α) (refusal : String) (k : α → Plan) :
    (Plan.first items refusal k).Asks P ↔ ∃ a rest, items = a :: rest ∧ (k a).Asks P := by
  cases items with
  | nil => simp [Plan.first, Plan.Asks]
  | cons a rest => simp [Plan.first]

@[simp] lemma Plan.asks_legacy (config : ConfigMap) (k : String → Plan) :
    (Plan.legacy config k).Asks P
      ↔ ∃ value, config.find? legacyConfigKey = some value ∧ (k value).Asks P := by
  rw [Plan.legacy]
  cases config.find? legacyConfigKey with
  | none => simp [Plan.Asks]
  | some value => simp

@[simp] lemma Plan.asks_parsed (platform : Platform) (path : String) (plan : Plan) :
    (Plan.parsed platform path plan).Asks P
      ↔ platform.parsesUri path = true ∧ plan.Asks P := by
  rw [Plan.parsed]
  split_ifs with h
  · exact (and_iff_right h).symm
  · exact iff_of_false id fun hask => h hask.1

@[simp] lemma Plan.asks_askFor (speaker path : String) (values : List String) (ending : Ending) :
    (askFor speaker path values ending).Asks P
      ↔ P (formatRequest path speaker values "") ending := Iff.rfl

@[simp] lemma Plan.asks_askAs (cmd : Command) (path : String) (values : List String)
    (ending : Ending) :
    (askAs cmd path values ending).Asks P
      ↔ P (formatRequest path cmd.auth values "") ending := Iff.rfl

@[simp] lemma Plan.asks_reply (r : Response) : ¬ (Plan.reply r).Asks P := id

@[simp] lemma Plan.asks_ite (c : Prop) [Decidable c] (a b : Plan) :
    (if c then a else b).Asks P ↔ if c then a.Asks P else b.Asks P := by
  split_ifs <;> rfl

end Asks

/-- The path of a free or a guard call has no directive. -/
def PathPlain (cmd : Command) : Prop :=
  (cmd.type = .freeCall → ∀ m, extractFreeCall cmd = some m →
    IsPlain (MetadataServiceClient.callUrl m.cmd)) ∧
  (cmd.type = .guardCall → ∀ m, extractGuardCall cmd = some m →
    IsPlain (MetadataServiceClient.callUrl m.cmd))

lemma pathPlain_of_ne {cmd : Command} (hfree : cmd.type ≠ .freeCall)
    (hguard : cmd.type ≠ .guardCall) : PathPlain cmd :=
  ⟨fun ht => absurd ht hfree, fun ht => absurd ht hguard⟩

/-- Only the free and the guard call take their message from the command. -/
lemma planOf_literal {env : Env} {cmd : Command} {req : Request} {ending : Ending}
    (hp : planOf env cmd = some (.ask req ending)) (hpath : PathPlain cmd) : ending.Literal := by
  have hasks : ∀ pl, planOf env cmd = some pl → ¬ pl.Asks fun _ ending => ¬ ending.Literal := by
    intro pl hpl
    unfold planOf at hpl
    cases ht : cmd.type <;> rw [ht] at hpl <;> cases hpl
    case freeCall =>
        simp only [Plan.asks_needs, Plan.asks_parsed, Plan.asks_askAs, Ending.Literal]
        rintro ⟨m, hx, -, hdirective⟩
        exact hdirective (isPlain_cString (hpath.1 ht m hx))
    case guardCall =>
        simp only [Plan.asks_needs, Plan.asks_parsed, Plan.asks_askAs, Ending.Literal]
        rintro ⟨m, hx, -, hdirective⟩
        exact hdirective (isPlain_cString (hpath.2 ht m hx))
    all_goals simp +decide [Ending.Literal]
  exact not_not.mp (hasks _ hp)

/-! ## Running the operations of the metadata client

One request, one appended exchange, and the ending applied to the outcome.
-/

section Operations

open MetadataServiceClient

variable (platform : Platform) (replies : ℕ → Outcome) (log : List Exchange)

lemma postStatement_run {path : String} (hpath : platform.parsesUri path = true)
    (speaker : String) (values : List String) (bearer : String) :
    postStatement platform replies path speaker values bearer log
      = ((replies log.length).get,
          log ++ [⟨formatRequest path speaker values bearer, replies log.length⟩]) := by
  rw [postStatement, if_pos hpath]
  cases replies log.length <;> rfl

/-- A literal message never keeps `sink_task` from its end. -/
lemma sinkPost_run {path : String} (hpath : platform.parsesUri path = true) (speaker : String)
    (values : List String) {msg : String} (hmsg : IsPlain msg) :
    sinkPost platform replies path speaker values msg log
      = ((replies log.length).get.map fun _ => (),
          log ++ [⟨formatRequest path speaker values "", replies log.length⟩]) := by
  rw [sinkPost, Action.bind_run, postStatement_run platform replies log hpath]
  cases hreply : replies log.length with
  | failed e => rfl
  | replied res =>
      simp only [Outcome.get, Action.ofExcept_run, sinkTask, consumeStatus_eq,
        printing_of_logs (statusTexts_logs hmsg platform _)]
      rfl

lemma jsonTask_eq (msg : String) (res : HttpResponse) :
    jsonTask platform msg res
      = platform.printing ((Outcome.replied res).statusTexts msg)
          (jsonOutcome msg (.replied res)) := by
  rw [jsonTask, jsonOutcome, consumeStatus_eq]
  by_cases hs : res.statusCode = statusOk
  · have hnone : (Outcome.replied res).statusTexts msg = [] := if_pos hs
    rw [hnone, if_pos hs, if_pos hs]
    exact printing_nil.symm
  · simp only [hs, if_false]
    rcases printing_cases platform ((Outcome.replied res).statusTexts msg) with h | h <;>
      rw [h, h] <;> rfl

lemma jsonPost_run {path : String} (hpath : platform.parsesUri path = true) (speaker : String)
    (values : List String) (bearer msg : String) :
    jsonPost platform replies path speaker values bearer msg log
      = (platform.printing ((replies log.length).statusTexts msg)
            (jsonOutcome msg (replies log.length)),
          log ++ [⟨formatRequest path speaker values bearer, replies log.length⟩]) := by
  rw [jsonPost, Action.bind_run, postStatement_run platform replies log hpath]
  cases replies log.length with
  | failed e => rfl
  | replied res =>
      simp only [Outcome.get, Action.ofExcept_run, jsonTask_eq]

/-- Nothing is sent to a path that is no URI. -/
lemma jsonPost_badUri {path : String} (hpath : platform.parsesUri path = false)
    (speaker : String) (values : List String) (bearer msg : String) :
    jsonPost platform replies path speaker values bearer msg log = (.error .uriException, log) := by
  rw [jsonPost, Action.bind_run, postStatement, hpath]
  rfl

/-- The same for a literal message. -/
lemma jsonPost_plain_run {path : String} (hpath : platform.parsesUri path = true)
    (speaker : String) (values : List String) (bearer : String) {msg : String}
    (hmsg : IsPlain msg) :
    jsonPost platform replies path speaker values bearer msg log
      = (jsonOutcome msg (replies log.length),
          log ++ [⟨formatRequest path speaker values bearer, replies log.length⟩]) := by
  rw [jsonPost_run platform replies log hpath,
    printing_of_logs (statusTexts_logs hmsg platform _)]

/-- A `catch (std::runtime_error &)` around an action that leaves one state whichever way it
ends, with a handler that only returns. -/
lemma catchRuntime_run {σ α : Type} {act : Action Exc σ α} {fallback : α} {s s' : σ}
    {texts : List String} {x : Except Exc α} (h : act s = (platform.printing texts x, s')) :
    catchRuntime act (fun _ => pure fallback) s
      = (platform.printing texts (orOnRuntime fallback x), s') := by
  rw [catchRuntime, Action.catching_run, h]
  rcases printing_cases platform texts with hp | hp
  · rw [hp, hp]
    cases x with
    | ok a => rfl
    | error e => cases e <;> rfl
  · rw [hp, hp]

lemma verdictPost_run {path : String} (hpath : platform.parsesUri path = true)
    (speaker : String) (values : List String) (bearer msg : String) (judge : String → Bool) :
    verdictPost platform replies path speaker values bearer msg judge log
      = (platform.printing ((replies log.length).statusTexts msg)
            (orOnRuntime false ((messageOutcome msg (replies log.length)).map judge)),
          log ++ [⟨formatRequest path speaker values bearer, replies log.length⟩]) := by
  rw [verdictPost]
  refine catchRuntime_run platform ?_
  rw [Action.bind_run, jsonPost_run platform replies log hpath, messageOutcome]
  rcases printing_cases platform ((replies log.length).statusTexts msg) with h | h
  · rw [h, h]
    cases jsonOutcome msg (replies log.length) with
    | error e => rfl
    | ok v =>
        simp only [Action.bind_run, Action.ofExcept_run]
        cases v.stringField "message" <;> rfl
  · rw [h, h]

lemma attest_run (speaker ip : String) (port : UInt32) (bearer : String) :
    attest platform replies speaker ip port bearer log
      = (platform.printing ((replies log.length).statusTexts "attest instance")
            (orOnRuntime "" (messageOutcome "attest instance" (replies log.length))),
          log ++ [⟨formatRequest "/attestInstance" speaker [formatNetaddr ip (asInt port)] bearer,
            replies log.length⟩]) := by
  rw [attest]
  refine catchRuntime_run platform ?_
  rw [Action.bind_run, jsonPost_run platform replies log (platform.parsesUri_plain _ rfl),
    messageOutcome]
  rcases printing_cases platform ((replies log.length).statusTexts "attest instance") with h | h
  · rw [h, h]
    cases jsonOutcome "attest instance" (replies log.length) <;> rfl
  · rw [h, h]

end Operations

/-! ## The handlers carry out their plans

One rule for each way a plan is built; a handler's proof applies them in the order of its body.
-/

section Handlers

variable {platform : Platform} {replies : ℕ → Outcome}

lemma needs_run {α : Type} {statement : Option α} {k : α → Action Exc Daemon (Option Response)}
    {p : α → Plan} (h : ∀ a, k a = (p a).run platform replies) :
    (deref statement >>= k) = (Plan.needs statement p).run platform replies := by
  cases statement with
  | none => rfl
  | some a => exact h a

lemma legacy_run {config : ConfigMap} {k : String → Action Exc Daemon (Option Response)}
    {p : String → Plan} (h : ∀ value, k value = (p value).run platform replies) :
    (config.at legacyConfigKey >>= k) = (Plan.legacy config p).run platform replies := by
  rw [ConfigMap.at, Plan.legacy]
  cases config.find? legacyConfigKey with
  | none => rfl
  | some value => exact h value

lemma service_run {α : Type} {op : Action Exc (List Exchange) α} {x : Except Exc α} {d : Daemon}
    {e : Exchange} (h : op d.exchanges = (x, d.exchanges ++ [e])) :
    service op d = (x, { d with exchanges := d.exchanges ++ [e] }) := by
  rw [service, Action.zoom_run, h]

lemma ask_run {α : Type} {op : Action Exc (List Exchange) α} (f : Outcome → Except Exc α)
    {k : α → Action Exc Daemon (Option Response)} {g : α → Response} {req : Request}
    {ending : Ending}
    (hop : ∀ log, op log = (platform.printing (ending.statusTexts (replies log.length))
      (f (replies log.length)), log ++ [⟨req, replies log.length⟩]))
    (hk : ∀ a, k a = respond (g a)) (hending : ∀ o, ending.apply o = (f o).map g) :
    (service op >>= k) = (Plan.ask req ending).run platform replies := by
  funext d
  rw [Action.bind_run, service_run (hop d.exchanges)]
  show _ = (platform.printing _ ((ending.apply (replies d.exchanges.length)).map some), _)
  rw [hending]
  rcases printing_cases platform (ending.statusTexts (replies d.exchanges.length)) with h | h
  · rw [h, h]
    cases f (replies d.exchanges.length) with
    | error e => rfl
    | ok a =>
        show k a _ = _
        rw [hk]
        rfl
  · rw [h, h]

lemma jsonTrue_run {path : String} (hpath : platform.parsesUri path = true) (speaker : String)
    (values : List String) (msg : String) (log : List Exchange) :
    (do
      let _ ← MetadataServiceClient.jsonPost platform replies path speaker values "" msg
      pure true : Action Exc (List Exchange) Bool) log
      = (platform.printing ((Ending.json msg).statusTexts (replies log.length))
            ((jsonOutcome msg (replies log.length)).map fun _ => true),
          log ++ [⟨formatRequest path speaker values "", replies log.length⟩]) := by
  rw [Action.bind_run, jsonPost_run platform replies log hpath, Ending.statusTexts]
  rcases printing_cases platform ((replies log.length).statusTexts msg) with h | h
  · rw [h, h]
    cases jsonOutcome msg (replies log.length) <;> rfl
  · rw [h, h]

lemma askJson_run {path : String} (hpath : platform.parsesUri path = true) (speaker : String)
    (values : List String) (msg : String) :
    (service (do
        let _ ← MetadataServiceClient.jsonPost platform replies path speaker values "" msg
        pure true) >>= fun res => status res "")
      = (askFor speaker path values (.json msg)).run platform replies :=
  ask_run (fun o => (jsonOutcome msg o).map fun _ => true)
    (jsonTrue_run hpath speaker values msg) (fun _ => rfl) fun o => by
    rw [Ending.apply]
    cases jsonOutcome msg o <;> rfl

lemma askSink_run {path : String} (hpath : isPlainPath path = true) (speaker : String)
    (values : List String) {msg : String} (hmsg : IsPlain msg) :
    (service (MetadataServiceClient.sinkPost platform replies path speaker values msg)
        >>= fun _ => status true "")
      = (askFor speaker path values Ending.sink).run platform replies :=
  ask_run (fun o => o.get.map fun _ => ())
    (fun log => sinkPost_run platform replies log (platform.parsesUri_plain path hpath) speaker
      values hmsg) (fun _ => rfl) fun o => by
    rw [Ending.apply]
    cases o <;> rfl

lemma askVerdict_run {path : String} (hpath : platform.parsesUri path = true)
    (speaker : String) (values : List String) (msg : String) (judge : String → Bool) :
    (service (MetadataServiceClient.verdictPost platform replies path speaker values "" msg judge)
        >>= fun res => status res "")
      = (askFor speaker path values (.verdict msg judge)).run platform replies :=
  ask_run (fun o => orOnRuntime false ((messageOutcome msg o).map judge))
    (fun log => verdictPost_run platform replies log hpath speaker values "" msg judge)
    (fun _ => rfl) fun _ => rfl

lemma parsed_run {path : String} {op : Action Exc (List Exchange) Bool} {plan : Plan}
    (hgood : platform.parsesUri path = true →
      (service op >>= fun res => status res "") = plan.run platform replies)
    (hbad : platform.parsesUri path = false → ∀ log, op log = (.error .uriException, log)) :
    (service op >>= fun res => status res "")
      = (Plan.parsed platform path plan).run platform replies := by
  rw [Plan.parsed]
  cases hpath : platform.parsesUri path with
  | true => exact hgood hpath
  | false =>
      funext d
      rw [Action.bind_run, service, Action.zoom_run, hbad hpath]
      rfl

/-- **A handler is its plan.**  One case for each command type, each by the rules above. -/
theorem handler_eq_plan (env : Env) (cmd : Command) {h : Handler} {pl : Plan}
    (hh : Manager.findHandler env cmd.type = some h) (hp : planOf env cmd = some pl) :
    h cmd = pl.run env.platform env.replies := by
  unfold planOf at hp
  cases ht : cmd.type <;> rw [ht] at hh hp <;> cases hh <;> cases hp
  case getPrincipal => rfl
  case endorsePrincipal => rfl
  case revokePrincipalEndorsement => rfl
  case revoke => rfl
  case getMetadataConfig => rfl
  case freeCall =>
      refine needs_run fun m =>
        parsed_run (fun hpath => askJson_run hpath _ _ _) fun hpath log => ?_
      rw [MetadataServiceClient.freeCall, Action.bind_run, jsonPost_badUri _ _ _ hpath]
  case guardCall =>
      refine needs_run fun m => parsed_run (fun hpath => askVerdict_run hpath _ _ _ _)
        fun hpath log => ?_
      rw [MetadataServiceClient.guardCall, MetadataServiceClient.verdictPost, catchRuntime,
        Action.catching_run, Action.bind_run, jsonPost_badUri _ _ _ hpath]
  case linkImage => exact needs_run fun m => askJson_run (env.platform.parsesUri_plain _ rfl) _ _ _
  case endorse =>
      refine needs_run fun m => ?_
      cases m.endorsements with
      | nil => rfl
      | cons e _ =>
          refine ask_run (fun o => (jsonOutcome "New Endorsements" o).map fun _ => true)
            (jsonTrue_run (env.platform.parsesUri_plain _ rfl) _ _ _) (fun _ => rfl) fun o => ?_
          rw [Ending.apply]
          cases jsonOutcome "New Endorsements" o <;> rfl
  case postAcl =>
      refine needs_run fun m => ?_
      cases m.policies with
      | nil => rfl
      | cons policy _ => exact askSink_run rfl _ _ (by decide)
  case endorseMembership =>
      refine needs_run fun m => ?_
      cases m.endorsements with
      | nil => rfl
      | cons e _ => exact legacy_run fun config => askSink_run rfl _ _ (by decide)
  case endorseAttesterImage =>
      refine needs_run fun m => legacy_run fun config => ?_
      by_cases hs : m.type = .source
      · simp only [hs, if_true]
        exact askSink_run rfl _ _ (by decide)
      · simp only [hs, if_false]
        exact askSink_run rfl _ _ (by decide)
  case endorseBuilderImage =>
      refine needs_run fun m => ?_
      cases m.endorsements with
      | nil => rfl
      | cons e _ =>
          refine legacy_run fun config => ?_
          by_cases hs : m.type = .source
          · simp only [hs, if_true]
            exact askSink_run rfl _ _ (by decide)
          · simp only [hs, if_false]
            exact askSink_run rfl _ _ (by decide)
  case endorseSourceImage =>
      refine needs_run fun m => ?_
      cases m.endorsements with
      | nil => rfl
      | cons e _ =>
          refine legacy_run fun config => ?_
          by_cases hs : m.type = .source
          · simp only [hs, if_true]
            rfl
          · simp only [hs, if_false]
            exact askSink_run rfl _ _ (by decide)
  case checkProperty =>
      refine needs_run fun m => ?_
      cases m.properties with
      | nil => rfl
      | cons prop _ => exact askVerdict_run (env.platform.parsesUri_plain _ rfl) _ _ _ _
  case checkAttestation =>
      exact needs_run fun m => ask_run
        (fun o => orOnRuntime "" (messageOutcome "attest instance" o))
        (fun log => attest_run _ _ log _ _ _ _) (fun _ => rfl) fun _ => rfl
  case checkAccess =>
      refine needs_run fun m => ?_
      cases m.objects with
      | nil => rfl
      | cons object _ => exact askVerdict_run (env.platform.parsesUri_plain _ rfl) _ _ _ _
  case checkWorkerAccess =>
      refine needs_run fun m => ?_
      cases m.objects with
      | nil => rfl
      | cons object _ => exact askVerdict_run (env.platform.parsesUri_plain _ rfl) _ _ _ _
  case checkImageProperty =>
      refine needs_run fun m => ?_
      cases m.property with
      | nil => rfl
      | cons prop _ => exact legacy_run fun config =>
          askVerdict_run (env.platform.parsesUri_plain _ rfl) _ _ _ _

/-- **Answering a command is carrying out its plan** under the `catch` clauses of `dispatch`. -/
theorem answer_eq_plan (env : Env) (cmd : Command) {pl : Plan} (hp : planOf env cmd = some pl) :
    Manager.answer env cmd
      = (pl.run env.platform env.replies).catching (Manager.catchClauses env) := by
  rw [Manager.answer]
  cases hh : Manager.findHandler env cmd.type with
  | some h => exact congrArg (Action.catching · _) (handler_eq_plan env cmd hh hp)
  | none =>
      unfold planOf at hp
      cases ht : cmd.type <;> rw [ht] at hh hp <;> cases hh <;> cases hp <;> rfl

end Handlers

end Libport
