import Libport.Server.Robustness

/-!
# The authorization checks fail closed

Five commands ask the metadata service for a verdict: `CHECK_PROPERTY`, `CHECK_ACCESS`,
`CHECK_WORKER_ACCESS`, `CHECK_IMAGE_PROPERTY` and `GUARD_CALL`.  A bad status becomes a
`runtime_error` that the operation itself catches; an unreadable body and a transport error pass
that `catch` and are stopped by `dispatch`.

* `Approved` is the one outcome of the request that may let a client through, in terms of the
  reply alone: status `200`, a JSON object, a string field `message`, and the words the check
  looks for.
* `FailsClosed`: the check is answered by one `Status`, successful exactly when the outcome is
  approved.
* **`check_failsClosed_iff`**: whatever the state and the outcome, a well-formed check fails closed
  exactly when the daemon gets as far as an answer, that is when the path of a guard call is a URI
  and what is logged is printed.  Without an approved outcome no answer is ever a success.
* `guardCall_directive`: a guard call whose path is a format that the daemon does not survive.
-/

namespace Libport

/-- The words that approve a check, or for a guard call the word that denies it. -/
def Approval (type : CommandType) (message : String) : Prop :=
  match type with
  | .checkProperty => "programHasProperty".toList <:+: message.toList
  | .checkAccess => "approveAccess".toList <:+: message.toList
  | .checkWorkerAccess => "approveAccess".toList <:+: message.toList
  | .checkImageProperty => "hasSafetyProperty".toList <:+: message.toList
  | .guardCall => ¬ "Exception".toList <:+: message.toList
  | _ => False

/-- The reply has status `200` and is a JSON object whose string field `message` approves. -/
def Approved (type : CommandType) (o : Outcome) : Prop :=
  ∃ res fields message, o = .replied res ∧ res.statusCode = statusOk ∧
    res.body = .ok (.object fields) ∧ fields.lookup "message" = some (.string message) ∧
    Approval type message

/-- A check with a statement of the right type, something to check, and the legacy key where it
is read. -/
def WellFormedCheck (cmd : Command) : Prop :=
  match cmd.type with
  | .checkProperty => ∃ m, extractCheckProperty cmd = some m ∧ m.properties ≠ []
  | .checkAccess => ∃ m, extractCheckAccess cmd = some m ∧ m.objects ≠ []
  | .checkWorkerAccess => ∃ m, extractCheckAccess cmd = some m ∧ m.objects ≠ []
  | .checkImageProperty =>
      ∃ m, extractCheckImage cmd = some m ∧ m.property ≠ [] ∧ HasLegacyKey m.config
  | .guardCall => ∃ m, extractGuardCall cmd = some m
  | _ => False

namespace Manager

/-- The check makes one request, and the writer is called once, with a `Status` that reports
success exactly on an approved outcome; `status_int` is `1` then and only then. -/
def FailsClosed (env : Env) (cmd : Command) (d : Daemon) : Prop :=
  ∃ req success info d', dispatch env cmd record d = (.ok true, d') ∧
    d'.exchanges = d.exchanges ++ [⟨req, env.replies d.exchanges.length⟩] ∧
    d'.written = d.written ++ [some (makeStatusResponse success info)] ∧
    (success = true ↔ Approved cmd.type (env.replies d.exchanges.length)) ∧
    ((makeStatusResponse success info).statusInt = 1
      ↔ Approved cmd.type (env.replies d.exchanges.length))

end Manager

/-! ## The message of a reply -/

lemma mentions_iff (word message : String) :
    MetadataServiceClient.mentions word message = true ↔ word.toList <:+: message.toList := by
  rw [MetadataServiceClient.mentions, Option.isSome_iff_ne_none, Ne, Text.find_eq_none_iff, not_not]

/-- A guard call wants a word not to be there. -/
lemma not_mentions_iff (message : String) :
    (!MetadataServiceClient.mentions "Exception" message) = true ↔
      Approval .guardCall message := by
  rw [Bool.not_eq_true', ← Bool.not_eq_true, mentions_iff]
  rfl

lemma stringField_eq_ok {v : Json} {key s : String} :
    v.stringField key = .ok s ↔
      ∃ fields, v = .object fields ∧ fields.lookup key = some (.string s) := by
  cases v with
  | object fields =>
      simp only [Json.stringField, Json.object.injEq, exists_eq_left']
      split
      · rename_i t ht
        simp [ht]
      · rename_i hne
        simp only [reduceCtorEq, false_iff]
        exact hne s
  | _ => simp [Json.stringField]

/-- A message is read from exactly one kind of reply. -/
lemma messageOutcome_eq_ok {msg : String} {o : Outcome} {message : String} :
    messageOutcome msg o = .ok message ↔
      ∃ res fields, o = .replied res ∧ res.statusCode = statusOk ∧
        res.body = .ok (.object fields) ∧ fields.lookup "message" = some (.string message) := by
  rw [messageOutcome]
  constructor
  · intro h
    cases hj : jsonOutcome msg o with
    | error e => rw [hj] at h; cases h
    | ok v =>
        rw [hj] at h
        obtain ⟨fields, rfl, hf⟩ := stringField_eq_ok.mp h
        obtain ⟨res, ho, hs, hb⟩ := jsonOutcome_eq_ok.mp hj
        exact ⟨res, fields, ho, hs, hb, hf⟩
  · rintro ⟨res, fields, ho, hs, hb, hf⟩
    rw [jsonOutcome_eq_ok.mpr ⟨res, ho, hs, hb⟩]
    exact stringField_eq_ok.mpr ⟨fields, rfl, hf⟩

/-! ## The verdict ending -/

/-- A verdict is always one `Status`, and it is a success exactly when a message was read and
judged well. -/
lemma verdict_status (msg : String) (judge : String → Bool) (o : Outcome) :
    ∃ success info,
      orStatus (((Ending.verdict msg judge).apply o).map some)
        = .ok (some (makeStatusResponse success info)) ∧
      (success = true ↔ ∃ message, messageOutcome msg o = .ok message ∧ judge message = true) := by
  rw [Ending.apply]
  cases hm : messageOutcome msg o with
  | ok message => exact ⟨judge message, "", rfl, by simp⟩
  | error e =>
      have hcaught := tame_messageOutcome msg o e hm
      cases e with
      | runtimeError what => exact ⟨false, "", rfl, by simp⟩
      | jsonException what => exact ⟨false, _, rfl, by simp⟩
      | httpException what => exact ⟨false, _, rfl, by simp⟩
      | _ => exact hcaught.elim

/-- The outcomes whose message is judged well are the approved ones. -/
lemma judged_iff_approved (msg : String) {judge : String → Bool} {type : CommandType}
    (hjudge : ∀ message, judge message = true ↔ Approval type message) (o : Outcome) :
    (∃ message, messageOutcome msg o = .ok message ∧ judge message = true) ↔ Approved type o := by
  simp only [messageOutcome_eq_ok, hjudge, Approved]
  constructor
  · rintro ⟨message, ⟨res, fields, ho, hs, hb, hf⟩, ha⟩
    exact ⟨res, fields, message, ho, hs, hb, hf, ha⟩
  · rintro ⟨res, fields, message, ho, hs, hb, hf, ha⟩
    exact ⟨message, ⟨res, fields, ho, hs, hb, hf⟩, ha⟩

namespace Manager

variable (env : Env)

/-- A well-formed check asks once and ends in the verdict its type calls for. -/
lemma planOf_check {cmd : Command} (hw : WellFormedCheck cmd)
    (hpath : PathParses env.platform cmd) :
    ∃ req msg judge, planOf env cmd = some (.ask req (.verdict msg judge)) ∧
      ∀ message, judge message = true ↔ Approval cmd.type message := by
  unfold WellFormedCheck at hw
  cases ht : cmd.type <;> rw [ht] at hw
  case checkProperty =>
      obtain ⟨m, hx, hne⟩ := hw
      obtain ⟨prop, rest, hl⟩ := List.exists_cons_of_ne_nil hne
      simp only [planOf, ht, hx, hl, Plan.needs, Plan.first]
      exact ⟨_, _, _, rfl, mentions_iff "programHasProperty"⟩
  case checkAccess =>
      obtain ⟨m, hx, hne⟩ := hw
      obtain ⟨object, rest, hl⟩ := List.exists_cons_of_ne_nil hne
      simp only [planOf, ht, hx, hl, Plan.needs, Plan.first]
      exact ⟨_, _, _, rfl, mentions_iff "approveAccess"⟩
  case checkWorkerAccess =>
      obtain ⟨m, hx, hne⟩ := hw
      obtain ⟨object, rest, hl⟩ := List.exists_cons_of_ne_nil hne
      simp only [planOf, ht, hx, hl, Plan.needs, Plan.first]
      exact ⟨_, _, _, rfl, mentions_iff "approveAccess"⟩
  case checkImageProperty =>
      obtain ⟨m, hx, hne, hkey⟩ := hw
      obtain ⟨prop, rest, hl⟩ := List.exists_cons_of_ne_nil hne
      obtain ⟨config, hc⟩ := (hasLegacyKey_iff _).mp hkey
      simp only [planOf, ht, hx, hl, hc, Plan.needs, Plan.first, Plan.legacy]
      exact ⟨_, _, _, rfl, mentions_iff "hasSafetyProperty"⟩
  case guardCall =>
      obtain ⟨m, hx⟩ := hw
      simp only [planOf, ht, hx, Plan.needs, Plan.parsed, hpath.2 ht m hx, if_true]
      exact ⟨_, _, _, rfl, not_mentions_iff⟩
  all_goals exact hw.elim

/-- A well-formed check fails closed when it gets as far as an answer. -/
lemma failsClosed_of_logs {cmd : Command} (hw : WellFormedCheck cmd)
    (hpath : PathParses env.platform cmd) {d : Daemon}
    (hlogs : ∀ text ∈ formats env cmd d, env.platform.logs text = true) :
    FailsClosed env cmd d := by
  obtain ⟨req, msg, judge, hp, hjudge⟩ := planOf_check env hw hpath
  have hformats : formats env cmd d
      = texts (.verdict msg judge) (env.replies d.exchanges.length) := by
    rw [formats, hp]
  rw [hformats] at hlogs
  obtain ⟨success, info, hstatus, hsuccess⟩ :=
    verdict_status msg judge (env.replies d.exchanges.length)
  have happroved : success = true ↔ Approved cmd.type (env.replies d.exchanges.length) :=
    hsuccess.trans (judged_iff_approved msg hjudge _)
  have hint : (makeStatusResponse success info).statusInt = 1 ↔ success = true := by
    cases success <;> simp [makeStatusResponse, Response.statusInt]
  have hrun := dispatch_run env cmd d
  rw [answer_ask env hp, printing_of_logs hlogs, hstatus] at hrun
  exact ⟨req, success, info, _, hrun, rfl, rfl, happroved, hint.trans happroved⟩

/-- What an answer to a check takes. -/
lemma logs_of_wrote {cmd : Command} {d d' : Daemon} {r : Response}
    (hrun : dispatch env cmd record d = (.ok true, d'))
    (hwrote : d'.written = d.written ++ [some r]) : PathParses env.platform cmd ∧
      ∀ text ∈ formats env cmd d, env.platform.logs text = true := by
  obtain ⟨hr, -⟩ := (dispatch_wrote env).mp ⟨hrun, hwrote⟩
  obtain ⟨hanswerable, hlogs⟩ := (answer_isOk_iff env cmd d).mp ⟨r, hr⟩
  exact ⟨hanswerable.pathParses, hlogs⟩

/-- **When authorization checks fail closed.**  A well-formed check fails closed exactly when the
path of a guard call is a URI and the platform gets through each text that is logged as a format.
And whether or not it is answered, an answer with `status_int` `1` is given on an approved outcome
only. -/
theorem check_failsClosed_iff (cmd : Command) (hw : WellFormedCheck cmd) (d : Daemon) :
    (FailsClosed env cmd d ↔ PathParses env.platform cmd ∧
        ∀ text ∈ formats env cmd d, env.platform.logs text = true) ∧
      ∀ d' r, dispatch env cmd record d = (.ok true, d') → d'.written = d.written ++ [some r] →
        r.statusInt = 1 → Approved cmd.type (env.replies d.exchanges.length) := by
  constructor
  · constructor
    · rintro ⟨req, success, info, d', hrun, -, hwrote, -⟩
      exact logs_of_wrote env hrun hwrote
    · rintro ⟨hpath, hlogs⟩
      exact failsClosed_of_logs env hw hpath hlogs
  · intro d' r hrun hwrote hint
    obtain ⟨hpath, hlogs⟩ := logs_of_wrote env hrun hwrote
    obtain ⟨req, success, info, d₂, hrun₂, -, hwrote₂, -, happroved⟩ :=
      failsClosed_of_logs env hw hpath hlogs
    cases hrun.symm.trans hrun₂
    rw [hwrote, List.append_cancel_left_eq, List.cons.injEq, Option.some.injEq] at hwrote₂
    exact happroved.mp (hwrote₂.1 ▸ hint)

/-- A client that asks for one object. -/
def accessCheck : Command :=
  { type := .checkAccess
    statement := .packed (.checkAccess { objects := ["10.0.0.1:4144:file"] }) }

/-- When the service cannot be reached, access is denied. -/
theorem accessCheck_unreachable :
    FailsClosed (.inOrder fun _ => .failed (.http "timeout")) accessCheck {} := by
  refine (check_failsClosed_iff _ accessCheck ⟨_, rfl, List.cons_ne_nil _ _⟩ {}).1.mpr
    ⟨⟨nofun, nofun⟩, fun text htext => ?_⟩
  obtain rfl := List.mem_singleton.mp htext
  exact Platform.strict.logs_plain _ (by decide)

/-- A guard call whose path has directives in it. -/
def guardDirective : Command :=
  { type := .guardCall, statement := .packed (.guardCall { cmd := "/%n%n%n%n" }) }

/-- The path is logged as a format when the service rejects the call. -/
theorem guardCall_directive :
    ¬ FailsClosed (.inOrder fun _ => .replied ⟨500, .ok .null⟩) guardDirective {} := by
  rintro ⟨req, success, info, d', hrun, -, hwrote, -⟩
  obtain ⟨-, hlogs⟩ := logs_of_wrote _ hrun hwrote
  have hlogged := hlogs _ List.mem_cons_self
  exact absurd hlogged (by decide)

end Manager

end Libport
