import Libport.Server.Dispatch

/-!
# When the daemon survives a command

`dispatch` is meant to answer every command: it looks up a handler, catches three classes of
exceptions, and calls the writer.  What it does not stop is a null pointer or a fatal error of
protobuf.  Fourteen handlers read their statement through a pointer they never test, and five of
them go on to read the legacy configuration key with `Map::at`.  The free and the guard call make
a URI of a path that the client chose.  And what is logged of a failure is passed to `vsyslog` as
the format, with the path of the call or the words of the service in it.

* `Answerable` is the condition on the command: its statement has the type the handler expects
  and, where the key is read, holds it; the path of a call is a URI.
* `formats` are the texts that are logged while a command is answered.
* **`answersOnce_iff`**: from every state and with every service, `dispatch` calls the writer
  exactly once with a non-null response precisely on the answerable commands whose texts the
  platform gets through.
* `freeCall_absent_crashes`: the smallest command that brings the daemon down, a `FREE_CALL`
  without a statement.
-/

namespace Libport

namespace Manager

/-- `dispatch` returns, having called the writer once, with a non-null response. -/
def AnswersOnce (env : Env) (cmd : Command) (d : Daemon) : Prop :=
  ∃ r d', dispatch env cmd record d = (.ok true, d') ∧ d'.written = d.written ++ [some r]

/-- The statement of the command holds everything its handler reads unchecked.  The handlers that
test the pointer, and those that do not read a statement, ask for nothing. -/
def Answerable (platform : Platform) (cmd : Command) : Prop :=
  match cmd.type with
  | .freeCall => ∃ m, extractFreeCall cmd = some m ∧
      platform.parsesUri (MetadataServiceClient.callUrl m.cmd) = true
  | .guardCall => ∃ m, extractGuardCall cmd = some m ∧
      platform.parsesUri (MetadataServiceClient.callUrl m.cmd) = true
  | .linkImage => (extractLinkImage cmd).isSome
  | .endorse => (extractEndorse cmd).isSome
  | .postAcl => (extractPostAcl cmd).isSome
  | .checkProperty => (extractCheckProperty cmd).isSome
  | .checkAttestation => (extractCheckAttestation cmd).isSome
  | .checkAccess => (extractCheckAccess cmd).isSome
  | .checkWorkerAccess => (extractCheckAccess cmd).isSome
  | .endorseAttesterImage => ∃ m, extractEndorse cmd = some m ∧ HasLegacyKey m.config
  | .endorseBuilderImage =>
      ∃ m, extractEndorse cmd = some m ∧ (m.endorsements ≠ [] → HasLegacyKey m.config)
  | .endorseSourceImage =>
      ∃ m, extractEndorse cmd = some m ∧ (m.endorsements ≠ [] → HasLegacyKey m.config)
  | .endorseMembership => ∃ m, extractEndorsePrincipal cmd = some m ∧
      (m.endorsements ≠ [] → HasLegacyKey m.principal.code.config)
  | .checkImageProperty =>
      ∃ m, extractCheckImage cmd = some m ∧ (m.property ≠ [] → HasLegacyKey m.config)
  | _ => True

/-- The path of a free or a guard call is a URI. -/
def PathParses (platform : Platform) (cmd : Command) : Prop :=
  (cmd.type = .freeCall → ∀ m, extractFreeCall cmd = some m →
    platform.parsesUri (MetadataServiceClient.callUrl m.cmd) = true) ∧
  (cmd.type = .guardCall → ∀ m, extractGuardCall cmd = some m →
    platform.parsesUri (MetadataServiceClient.callUrl m.cmd) = true)

lemma Answerable.pathParses {platform : Platform} {cmd : Command}
    (h : Answerable platform cmd) : PathParses platform cmd := by
  refine ⟨fun ht m hx => ?_, fun ht m hx => ?_⟩
  · rw [Answerable, ht] at h
    obtain ⟨m', hx', hpath⟩ := h
    cases hx.symm.trans hx'
    exact hpath
  · rw [Answerable, ht] at h
    obtain ⟨m', hx', hpath⟩ := h
    cases hx.symm.trans hx'
    exact hpath

/-- The texts that are logged while the command is answered: what the request of a plan leaves to
log, the failure of either request of a creation, and that of the one request of a deletion. -/
def formats (env : Env) (cmd : Command) (d : Daemon) : List String :=
  let reply := env.replies d.exchanges.length
  match planOf env cmd with
  | some (.ask _ ending) => texts ending reply
  | some _ => []
  | none =>
      match cmd.type, extractPrincipal cmd with
      | .createPrincipal, some _ =>
          match keyOutcome reply with
          | .error e => e.errmsg.toList
          | .ok _ => errmsgs (env.replies (d.exchanges.length + 1)).get
      | .deletePrincipal, some p =>
          match latest env d p.id with
          | some l =>
              if l.speaker = cmd.pid ∨ cmd.uid = 0 then
                errmsgs (jsonOutcome "deleting instance" reply)
              else []
          | none => []
      | _, _ => []

end Manager

/-! ## The plans that crash -/

/-- The plan ends in a crash. -/
def Plan.Crashes : Plan → Prop
  | crash _ => True
  | reply _ => False
  | ask _ _ => False

@[simp] lemma Plan.crashes_needs {α : Type} (x : Option α) (k : α → Plan) :
    (Plan.needs x k).Crashes ↔ ∀ a, x = some a → (k a).Crashes := by
  cases x with
  | none => simp [Plan.needs, Plan.Crashes]
  | some a => simp [Plan.needs]

@[simp] lemma Plan.crashes_first {α : Type} (items : List α) (refusal : String) (k : α → Plan) :
    (Plan.first items refusal k).Crashes ↔ ∃ a rest, items = a :: rest ∧ (k a).Crashes := by
  cases items with
  | nil => simp [Plan.first, Plan.Crashes]
  | cons a rest => simp [Plan.first]

@[simp] lemma Plan.crashes_legacy (config : ConfigMap) (k : String → Plan) :
    (Plan.legacy config k).Crashes
      ↔ ∀ value, config.find? legacyConfigKey = some value → (k value).Crashes := by
  rw [Plan.legacy]
  cases config.find? legacyConfigKey with
  | none => simp [Plan.Crashes]
  | some value => simp

@[simp] lemma Plan.crashes_parsed (platform : Platform) (path : String) (plan : Plan) :
    (Plan.parsed platform path plan).Crashes
      ↔ (platform.parsesUri path = true → plan.Crashes) := by
  rw [Plan.parsed]
  split_ifs with h
  · exact (imp_iff_right h).symm
  · exact iff_of_true trivial fun hpath => absurd hpath h

@[simp] lemma Plan.crashes_askFor (speaker path : String) (values : List String)
    (ending : Ending) : ¬ (askFor speaker path values ending).Crashes := id

@[simp] lemma Plan.crashes_askAs (cmd : Command) (path : String) (values : List String)
    (ending : Ending) : ¬ (askAs cmd path values ending).Crashes := id

@[simp] lemma Plan.crashes_reply (r : Response) : ¬ (Plan.reply r).Crashes := id

@[simp] lemma Plan.crashes_ite (c : Prop) [Decidable c] (a b : Plan) :
    (if c then a else b).Crashes ↔ if c then a.Crashes else b.Crashes := by
  split_ifs <;> rfl

namespace Manager

/-- A plan crashes exactly when the command is not answerable. -/
lemma planOf_crashes {env : Env} {cmd : Command} {pl : Plan} (hp : planOf env cmd = some pl) :
    pl.Crashes ↔ ¬ Answerable env.platform cmd := by
  unfold planOf at hp
  unfold Answerable
  cases ht : cmd.type <;> rw [ht] at hp <;> cases hp <;>
    simp [hasLegacyKey_iff, Option.eq_none_iff_forall_ne_some, List.ne_nil_iff_exists_cons]

lemma planOf_answerable {env : Env} {cmd : Command} {pl : Plan} (hp : planOf env cmd = some pl)
    (hc : ¬ pl.Crashes) : Answerable env.platform cmd :=
  not_not.mp fun h => hc ((planOf_crashes hp).mpr h)

/-- The three handlers that use the table test their statement. -/
lemma answerable_of_table {cmd : Command} (platform : Platform)
    (ht : cmd.type = .createPrincipal ∨ cmd.type = .deletePrincipal ∨
      cmd.type = .getLocalPrincipal) : Answerable platform cmd := by
  rcases ht with ht | ht | ht <;> rw [Answerable, ht] <;> trivial

/-! ## Exactly the answerable commands are answered -/

variable (env : Env)

/-- The three handlers that use the table have no plan. -/
lemma planOf_table {cmd : Command} (ht : cmd.type = .createPrincipal ∨
    cmd.type = .deletePrincipal ∨ cmd.type = .getLocalPrincipal) : planOf env cmd = none := by
  rcases ht with ht | ht | ht <;> rw [planOf, ht]

lemma answersOnce_iff_answer (cmd : Command) (d : Daemon) :
    AnswersOnce env cmd d ↔ ∃ r, (answer env cmd d).1 = .ok (some r) := by
  simp only [AnswersOnce, dispatch_wrote, exists_and_left, exists_eq, and_true]

/-- A response behind the log is reached when every text is logged. -/
lemma printing_answers {platform : Platform} {ts : List String}
    {x : Except Exc (Option Response)} (hx : ∃ r, x = .ok (some r)) :
    (∃ r, platform.printing ts x = .ok (some r)) ↔ ∀ text ∈ ts, platform.logs text = true := by
  obtain ⟨r, rfl⟩ := hx
  simp [printing_eq_ok]

/-- An answerable command that logs nothing is answered. -/
lemma quiet_answers {cmd : Command} {d : Daemon} (r : Response)
    (hanswerable : Answerable env.platform cmd) (hquiet : formats env cmd d = []) :
    (∃ r', (.ok (some r) : Except Exc (Option Response)) = .ok (some r')) ↔
      Answerable env.platform cmd ∧
        ∀ text ∈ formats env cmd d, env.platform.logs text = true := by
  rw [hquiet, and_iff_right hanswerable]
  exact iff_of_true ⟨r, rfl⟩ nofun

/-- A command is answered exactly when it is answerable and the texts are logged. -/
lemma answer_isOk_iff (cmd : Command) (d : Daemon) :
    (∃ r, (answer env cmd d).1 = .ok (some r)) ↔
      Answerable env.platform cmd ∧ ∀ text ∈ formats env cmd d, env.platform.logs text = true := by
  have h := answered env cmd d
  generalize (answer env cmd d).1 = x at h ⊢
  generalize (answer env cmd d).2 = d' at h
  cases h with
  | crash hp =>
      have hbad : ¬ Answerable env.platform cmd := (planOf_crashes hp).mp trivial
      simp [hbad]
  | @reply r hp =>
      exact quiet_answers env r (planOf_answerable hp id) (by rw [formats, hp])
  | @ask req ending hp =>
      have hformats : formats env cmd d = texts ending (env.replies d.exchanges.length) := by
        rw [formats, hp]
      rw [hformats, and_iff_right (planOf_answerable hp id)]
      exact printing_answers (orStatus_of_tame (ending.tame _))
  | malformed hp hx =>
      refine quiet_answers env _ (answerable_of_table _ (planOf_eq_none env hp)) ?_
      rw [formats, hp, hx]
      simp
  | @noKey p e ht hx hkey =>
      have hformats : formats env cmd d = e.errmsg.toList := by
        rw [formats, planOf_table env (.inl ht), ht, hx, hkey]
      obtain ⟨text, hs⟩ := orStatus_of_caught (tame_keyOutcome _ e hkey)
      rw [hformats, and_iff_right (answerable_of_table _ (.inl ht))]
      exact printing_answers ⟨_, hs⟩
  | @noConfig p key e ht hx hkey hget =>
      have hformats : formats env cmd d = e.errmsg.toList := by
        rw [formats, planOf_table env (.inl ht), ht, hx, hkey, hget]
        rfl
      obtain ⟨text, hs⟩ := orStatus_of_caught (tame_get _ e hget)
      rw [hformats, and_iff_right (answerable_of_table _ (.inl ht))]
      exact printing_answers ⟨_, hs⟩
  | @created p key res ht hx hkey hget =>
      refine quiet_answers env _ (answerable_of_table _ (.inl ht)) ?_
      rw [formats, planOf_table env (.inl ht), ht, hx, hkey, hget]
      rfl
  | @refused p l ht hx hl hpriv =>
      refine quiet_answers env _ (answerable_of_table _ (.inr (.inl ht))) ?_
      simp only [formats, planOf_table env (.inr (.inl ht)), ht, hx, hl, if_neg hpriv]
  | @notFound p ht hx hl =>
      refine quiet_answers env _ (answerable_of_table _ (.inr (.inl ht))) ?_
      simp only [formats, planOf_table env (.inr (.inl ht)), ht, hx, hl]
  | @deleted p l ht hx hl hpriv =>
      have hformats : formats env cmd d
          = errmsgs (jsonOutcome "deleting instance" (env.replies d.exchanges.length)) := by
        simp only [formats, planOf_table env (.inr (.inl ht)), ht, hx, hl, if_pos hpriv]
      have hj := (tame_jsonOutcome "deleting instance" (env.replies d.exchanges.length)).map
        fun _ => makeStatusResponse true ""
      rw [hformats, and_iff_right (answerable_of_table _ (.inr (.inl ht)))]
      refine printing_answers ?_
      obtain ⟨r, hr⟩ := orStatus_of_tame hj
      refine ⟨r, ?_⟩
      rw [← hr]
      cases jsonOutcome "deleting instance" (env.replies d.exchanges.length) <;> rfl
  | @looked p ht hx =>
      refine quiet_answers env _ (answerable_of_table _ (.inr (.inr ht))) ?_
      rw [formats, planOf_table env (.inr (.inr ht)), ht, hx]

/-- **The daemon survives exactly the answerable commands whose texts are logged**: from every
state, on every platform and with every service, `dispatch` calls the writer once with a response,
and nothing escapes it, if and only if the statement holds what the handler reads unchecked, the
path of a call is a URI, and the platform gets through each text that is logged as a format. -/
theorem answersOnce_iff (cmd : Command) (d : Daemon) :
    AnswersOnce env cmd d ↔ Answerable env.platform cmd ∧
      ∀ text ∈ formats env cmd d, env.platform.logs text = true := by
  rw [answersOnce_iff_answer]
  exact answer_isOk_iff env cmd d

/-- A `FREE_CALL` without a statement brings the daemon down. -/
theorem freeCall_absent_crashes :
    ¬ AnswersOnce (.inOrder fun _ => .failed (.http "no route to host"))
      { type := .freeCall, statement := .absent } {} := by
  rintro ⟨r, d', h, -⟩
  cases h

end Manager

end Libport
