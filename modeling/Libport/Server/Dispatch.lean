import Libport.Server.Registry

/-!
# One call of `dispatch`

What a single command does, from any state and with any service.

* `orStatus` is the effect of the three `catch` clauses on the way a handler ends, once the text
  they log is printed; the exceptions they do not name go through.  `errmsgs` is that text.
* **`Answered`** lists everything one command can do, with the exact state and result of each
  case, and `answered` shows the list is complete.  Facts about every command are case analyses
  on it.
* `answer_table`: what one command can do to the table — leave it, add one entry with the
  session's pid as speaker, or remove every entry of one id.
* `Exc.Caught` and its lemmas: every exception that a reply of the service can cause, other than by
  what is logged of it, is one that `dispatch` turns into a failed `Status`.
-/

namespace Libport

/-- What the `catch` clauses of `dispatch` make of the end of a handler. -/
def orStatus : Except Exc (Option Response) → Except Exc (Option Response)
  | .ok r => .ok r
  | .error e =>
      match e.errmsg with
      | some text => .ok (some (makeStatusResponse false text))
      | none => .error e

/-- What the `catch` clauses of `dispatch` log of the end of a handler. -/
def errmsgs {α : Type} : Except Exc α → List String
  | .ok _ => []
  | .error e => e.errmsg.toList

@[simp] lemma errmsgs_map {α β : Type} (x : Except Exc α) (f : α → β) :
    errmsgs (x.map f) = errmsgs x := by
  cases x <;> rfl

/-- A rejection under a literal message is logged. -/
lemma errmsgs_logs_of_rejected {msg : String} (hmsg : IsPlain msg) {o : Outcome}
    (ho : o.Rejected) (platform : Platform) :
    ∀ text ∈ errmsgs (jsonOutcome msg o), platform.logs text = true := by
  cases o with
  | failed e => exact ho.elim
  | replied res =>
      intro text htext
      rw [jsonOutcome, if_neg ho] at htext
      obtain rfl := List.mem_singleton.mp htext
      exact platform.logs_plain _
        ((isPlain_append _ _).mpr ⟨by decide, isPlain_statusText hmsg res⟩)

/-! ## The exceptions a reply can cause -/

/-- The classes `dispatch` catches. -/
def Exc.Caught : Exc → Prop
  | runtimeError _ | jsonException _ | httpException _ => True
  | fatalException _ | uriException | nullPointer | undefined => False

/-- Only caught exceptions end `x`. -/
def Tame {α : Type} (x : Except Exc α) : Prop := ∀ e, x = .error e → e.Caught

lemma Tame.map {α β : Type} {x : Except Exc α} (hx : Tame x) (f : α → β) : Tame (x.map f) := by
  intro e he
  cases x with
  | ok a => cases he
  | error e' => cases he; exact hx _ rfl

lemma Tame.orOnRuntime {α : Type} {x : Except Exc α} (hx : Tame x) (fallback : α) :
    Tame (orOnRuntime fallback x) := by
  intro e he
  cases x with
  | ok a => cases he
  | error e' =>
      cases e' with
      | runtimeError what => cases he
      | _ => cases he; exact hx _ rfl

lemma tame_get (o : Outcome) : Tame o.get := by
  intro e he
  cases o with
  | failed err => cases he; cases err <;> trivial
  | replied res => cases he

lemma tame_jsonOutcome (msg : String) (o : Outcome) : Tame (jsonOutcome msg o) := by
  intro e he
  cases o with
  | failed err => cases he; cases err <;> trivial
  | replied res =>
      rw [jsonOutcome] at he
      split_ifs at he
      · cases hb : res.body with
        | ok v => rw [hb] at he; cases he
        | error b =>
            rw [hb] at he
            cases he
            cases b <;> trivial
      · cases he
        trivial

lemma tame_stringField (v : Json) (key : String) : Tame (v.stringField key) := by
  intro e he
  cases v with
  | object fields =>
      rw [Json.stringField] at he
      split at he
      · cases he
      · cases he; trivial
  | _ => cases he; trivial

lemma tame_messageOutcome (msg : String) (o : Outcome) : Tame (messageOutcome msg o) := by
  rw [messageOutcome]
  cases ho : jsonOutcome msg o with
  | ok v => exact tame_stringField v "message"
  | error e => intro e' he; cases he; exact tame_jsonOutcome msg o _ ho

lemma tame_extractSafeIdentity (v : Json) : Tame (extractSafeIdentity v) := by
  intro e he
  rw [extractSafeIdentity] at he
  cases hv : v.stringField "message" with
  | error e' =>
      rw [hv] at he
      cases he
      exact tame_stringField v "message" _ hv
  | ok wrap =>
      simp only [hv, bind, Except.bind] at he
      split at he
      · cases he
        trivial
      · split_ifs at he
        cases he
        trivial

lemma tame_keyOutcome (o : Outcome) : Tame (keyOutcome o) := by
  rw [keyOutcome]
  cases ho : jsonOutcome "creating instance new" o with
  | ok v => exact tame_extractSafeIdentity v
  | error e => intro e' he; cases he; exact tame_jsonOutcome _ o _ ho

lemma Ending.tame (ending : Ending) (o : Outcome) : Tame (ending.apply o) := by
  cases ending with
  | sink => exact (tame_get o).map _
  | json msg => exact (tame_jsonOutcome msg o).map _
  | verdict msg judge => exact (((tame_messageOutcome msg o).map judge).orOnRuntime false).map _
  | attest msg => exact ((tame_messageOutcome msg o).orOnRuntime "").map _

lemma orStatus_of_caught {e : Exc} (he : e.Caught) :
    ∃ text, orStatus (.error e) = .ok (some (makeStatusResponse false text)) := by
  cases e with
  | runtimeError what => exact ⟨_, rfl⟩
  | jsonException what => exact ⟨_, rfl⟩
  | httpException what => exact ⟨_, rfl⟩
  | _ => exact he.elim

/-- A handler that ends only in caught exceptions always yields a response. -/
lemma orStatus_of_tame {x : Except Exc Response} (hx : Tame x) :
    ∃ r, orStatus (x.map some) = .ok (some r) := by
  cases x with
  | ok r => exact ⟨r, rfl⟩
  | error e =>
      obtain ⟨text, h⟩ := orStatus_of_caught (hx e rfl)
      exact ⟨_, h⟩

namespace Manager

variable (env : Env)

lemma catchClauses_run (act : Action Exc Daemon (Option Response)) (d : Daemon) :
    (act.catching (catchClauses env)) d
      = (env.platform.printing (errmsgs (act d).1) (orStatus (act d).1), (act d).2) := by
  rw [Action.catching_run]
  rcases act d with ⟨x, d'⟩
  cases x with
  | ok r => rfl
  | error e =>
      simp only [catchClauses, orStatus, errmsgs]
      cases e.errmsg with
      | none => rfl
      | some text =>
          simp only [Option.map_some, Action.bind_run, Action.ofExcept_run, Option.toList_some,
            Platform.log, Platform.printing, List.all_cons, List.all_nil, Bool.and_true]
          cases env.platform.logs text <;> rfl

lemma answer_handler {cmd : Command} {h : Handler} (hh : findHandler env cmd.type = some h)
    (d : Daemon) : answer env cmd d
      = (env.platform.printing (errmsgs (h cmd d).1) (orStatus (h cmd d).1), (h cmd d).2) := by
  rw [answer, hh]
  exact catchClauses_run env (h cmd) d

lemma answer_crash {cmd : Command} {c : Crash} (hp : planOf env cmd = some (.crash c))
    (d : Daemon) : answer env cmd d = (.error c.toExc, d) := by
  rw [answer_eq_plan env cmd hp, catchClauses_run]
  cases c <;> rfl

lemma answer_reply {cmd : Command} {r : Response} (hp : planOf env cmd = some (.reply r))
    (d : Daemon) : answer env cmd d = (.ok (some r), d) := by
  rw [answer_eq_plan env cmd hp, catchClauses_run]
  rfl

/-- The texts that are logged where a request ends in `ending`. -/
def texts (ending : Ending) (o : Outcome) : List String :=
  ending.statusTexts o ++ errmsgs (ending.apply o)

lemma answer_ask {cmd : Command} {req : Request} {ending : Ending}
    (hp : planOf env cmd = some (.ask req ending)) (d : Daemon) :
    answer env cmd d
      = (env.platform.printing (texts ending (env.replies d.exchanges.length))
            (orStatus ((ending.apply (env.replies d.exchanges.length)).map some)),
          { d with
            exchanges := d.exchanges ++ [⟨req, env.replies d.exchanges.length⟩] }) := by
  rw [answer_eq_plan env cmd hp, catchClauses_run, texts, printing_append, Plan.run]
  rcases printing_cases env.platform
    (ending.statusTexts (env.replies d.exchanges.length)) with h | h
  · simp only [h, errmsgs_map]
  · simp only [h]
    rfl

/-- Where the path of a call has no directive, only the exceptions matter. -/
lemma printing_texts {cmd : Command} {req : Request} {ending : Ending}
    (hp : planOf env cmd = some (.ask req ending)) (hpath : PathPlain cmd) {α : Type}
    (o : Outcome) (x : Except Exc α) :
    env.platform.printing (texts ending o) x
      = env.platform.printing (errmsgs (ending.apply o)) x := by
  rw [texts, printing_append,
    printing_of_logs ((planOf_literal hp hpath).logs env.platform o)]

lemma planOf_eq_none {cmd : Command} (hp : planOf env cmd = none) :
    cmd.type = .createPrincipal ∨ cmd.type = .deletePrincipal ∨ cmd.type = .getLocalPrincipal := by
  unfold planOf at hp
  cases ht : cmd.type <;> rw [ht] at hp <;> first | (simp; done) | cases hp

/-- Create, delete and lookup answer a statement that is not a principal without doing
anything. -/
lemma answer_malformed {cmd : Command} (hp : planOf env cmd = none)
    (hx : extractPrincipal cmd = none) (d : Daemon) :
    answer env cmd d
      = (.ok (some (makeStatusResponse false "principal not found or mal-formed")), d) := by
  rcases planOf_eq_none env hp with ht | ht | ht
  · rw [answer_handler env (h := createPrincipal env) (by rw [ht]; rfl), createPrincipal, hx]
    rfl
  · rw [answer_handler env (h := deletePrincipal env) (by rw [ht]; rfl), deletePrincipal, hx]
    rfl
  · rw [answer_handler env (h := getLocalPrincipal env) (by rw [ht]; rfl), getLocalPrincipal, hx]
    rfl

/-! ## Everything one command can do -/

/-- The end of a handler and the state it leaves, case by case. -/
inductive Answered (cmd : Command) (d : Daemon) :
    Except Exc (Option Response) → Daemon → Prop
  | crash {c : Crash} (hp : planOf env cmd = some (.crash c)) :
      Answered cmd d (.error c.toExc) d
  | reply {r : Response} (hp : planOf env cmd = some (.reply r)) :
      Answered cmd d (.ok (some r)) d
  | ask {req : Request} {ending : Ending} (hp : planOf env cmd = some (.ask req ending)) :
      Answered cmd d (env.platform.printing (texts ending (env.replies d.exchanges.length))
          (orStatus ((ending.apply (env.replies d.exchanges.length)).map some)))
        { d with exchanges := d.exchanges ++ [⟨req, env.replies d.exchanges.length⟩] }
  | malformed (hp : planOf env cmd = none) (hx : extractPrincipal cmd = none) :
      Answered cmd d
        (.ok (some (makeStatusResponse false "principal not found or mal-formed"))) d
  | noKey {p : Principal} {e : Exc} (ht : cmd.type = .createPrincipal)
      (hx : extractPrincipal cmd = some p)
      (hkey : keyOutcome (env.replies d.exchanges.length) = .error e) :
      Answered cmd d (env.platform.printing e.errmsg.toList (orStatus (.error e))) { d with
        gn := d.gn + 1
        exchanges := d.exchanges ++
          [⟨instanceRequest cmd { p with gn := d.gn }, env.replies d.exchanges.length⟩] }
  | noConfig {p : Principal} {key : String} {e : Exc} (ht : cmd.type = .createPrincipal)
      (hx : extractPrincipal cmd = some p)
      (hkey : keyOutcome (env.replies d.exchanges.length) = .ok key)
      (hget : (env.replies (d.exchanges.length + 1)).get = .error e) :
      Answered cmd d (env.platform.printing e.errmsg.toList (orStatus (.error e))) { d with
        gn := d.gn + 1
        exchanges := d.exchanges ++
          [⟨instanceRequest cmd { p with gn := d.gn }, env.replies d.exchanges.length⟩,
            ⟨configRequest env cmd { p with gn := d.gn },
              env.replies (d.exchanges.length + 1)⟩] }
  | created {p : Principal} {key : String} {res : HttpResponse}
      (ht : cmd.type = .createPrincipal) (hx : extractPrincipal cmd = some p)
      (hkey : keyOutcome (env.replies d.exchanges.length) = .ok key)
      (hget : (env.replies (d.exchanges.length + 1)).get = .ok res) :
      Answered cmd d (.ok (some (makeStatusResponse true ""))) { d with
        gn := d.gn + 1
        exchanges := d.exchanges ++
          [⟨instanceRequest cmd { p with gn := d.gn }, env.replies d.exchanges.length⟩,
            ⟨configRequest env cmd { p with gn := d.gn },
              env.replies (d.exchanges.length + 1)⟩]
        principals := (p.id, { p with gn := d.gn, speaker := cmd.pid }) :: d.principals }
  | refused {p l : Principal} (ht : cmd.type = .deletePrincipal)
      (hx : extractPrincipal cmd = some p) (hl : latest env d p.id = some l)
      (hpriv : ¬ (l.speaker = cmd.pid ∨ cmd.uid = 0)) :
      Answered cmd d (.ok (some (makeStatusResponse false "privilege not matching"))) d
  | notFound {p : Principal} (ht : cmd.type = .deletePrincipal)
      (hx : extractPrincipal cmd = some p) (hl : latest env d p.id = none) :
      Answered cmd d (.ok (some (makeStatusResponse false "latest principal not found"))) d
  | deleted {p l : Principal} (ht : cmd.type = .deletePrincipal)
      (hx : extractPrincipal cmd = some p) (hl : latest env d p.id = some l)
      (hpriv : l.speaker = cmd.pid ∨ cmd.uid = 0) :
      Answered cmd d
        (env.platform.printing
          (errmsgs (jsonOutcome "deleting instance" (env.replies d.exchanges.length)))
          (orStatus ((jsonOutcome "deleting instance" (env.replies d.exchanges.length)).map
            fun _ => some (makeStatusResponse true ""))))
        { d with
          principals := d.principals.filter fun e => e.1 ≠ p.id
          exchanges := d.exchanges ++
            [⟨deleteRequest cmd l, env.replies d.exchanges.length⟩] }
  | looked {p : Principal} (ht : cmd.type = .getLocalPrincipal)
      (hx : extractPrincipal cmd = some p) :
      Answered cmd d (.ok (some (match latest env d p.id with
        | some l => makePrincipalResponse l
        | none => makeStatusResponse false "not found"))) d

/-- **The list is complete.** -/
theorem answered (cmd : Command) (d : Daemon) :
    Answered env cmd d (answer env cmd d).1 (answer env cmd d).2 := by
  cases hp : planOf env cmd with
  | some pl =>
      cases pl with
      | crash c => rw [answer_crash env hp]; exact .crash hp
      | reply r => rw [answer_reply env hp]; exact .reply hp
      | ask req ending => rw [answer_ask env hp]; exact .ask hp
  | none =>
      cases hx : extractPrincipal cmd with
      | none =>
          rw [answer_malformed env hp hx]
          exact .malformed hp hx
      | some p =>
          rcases planOf_eq_none env hp with ht | ht | ht
          · rw [answer_handler env (h := createPrincipal env) (by rw [ht]; rfl),
              createPrincipal_run env hx]
            cases hkey : keyOutcome (env.replies d.exchanges.length) with
            | error e => exact .noKey ht hx hkey
            | ok key =>
                cases hget : (env.replies (d.exchanges.length + 1)).get with
                | error e => exact .noConfig ht hx hkey hget
                | ok res => exact .created ht hx hkey hget
          · rw [answer_handler env (h := deletePrincipal env) (by rw [ht]; rfl)]
            cases hl : latest env d p.id with
            | none => rw [deletePrincipal_absent env hx hl]; exact .notFound ht hx hl
            | some l =>
                by_cases hpriv : l.speaker = cmd.pid ∨ cmd.uid = 0
                · rw [deletePrincipal_allowed env hx hl hpriv, errmsgs_map]
                  exact .deleted ht hx hl hpriv
                · rw [deletePrincipal_refused env hx hl hpriv]
                  exact .refused ht hx hl hpriv
          · rw [answer_handler env (h := getLocalPrincipal env) (by rw [ht]; rfl),
              getLocalPrincipal_run env hx]
            exact .looked ht hx

/-- What one command can do to the table. -/
lemma answer_table (cmd : Command) (d : Daemon) :
    (answer env cmd d).2.principals = d.principals ∨
    (∃ p, cmd.type = .createPrincipal ∧ extractPrincipal cmd = some p ∧
      (answer env cmd d).2.principals
        = (p.id, { p with gn := d.gn, speaker := cmd.pid }) :: d.principals) ∨
    (∃ p l, cmd.type = .deletePrincipal ∧ extractPrincipal cmd = some p ∧
      latest env d p.id = some l ∧ (l.speaker = cmd.pid ∨ cmd.uid = 0) ∧
      (answer env cmd d).2.principals = d.principals.filter fun e => e.1 ≠ p.id) := by
  have h := answered env cmd d
  generalize (answer env cmd d).1 = x at h
  generalize (answer env cmd d).2 = d' at h ⊢
  cases h with
  | @created p key res ht hx _ _ => exact Or.inr (Or.inl ⟨p, ht, hx, rfl⟩)
  | @deleted p l ht hx hl hpriv => exact Or.inr (Or.inr ⟨p, l, ht, hx, hl, hpriv, rfl⟩)
  | _ => exact Or.inl rfl

lemma answer_written (cmd : Command) (d : Daemon) :
    (answer env cmd d).2.written = d.written := by
  have h := answered env cmd d
  generalize (answer env cmd d).1 = x at h
  generalize (answer env cmd d).2 = d' at h ⊢
  cases h <;> rfl

/-! ## The call of the writer -/

lemma dispatch_run (cmd : Command) (d : Daemon) :
    dispatch env cmd record d = match answer env cmd d with
      | (.ok r, d') => (.ok true, { d' with written := d'.written ++ [r] })
      | (.error e, d') => (.error e, d') := by
  rw [dispatch, Action.bind_run]
  rcases answer env cmd d with ⟨x, d'⟩
  cases x <;> rfl

/-- `dispatch` returns and has called the writer with `r` exactly when the handler ends in `r`. -/
lemma dispatch_wrote {cmd : Command} {d d' : Daemon} {r : Option Response} :
    dispatch env cmd record d = (.ok true, d') ∧ d'.written = d.written ++ [r] ↔
      (answer env cmd d).1 = .ok r ∧
        d' = { (answer env cmd d).2 with written := d.written ++ [r] } := by
  have hw := answer_written env cmd d
  rw [dispatch_run]
  generalize answer env cmd d = a at hw
  rcases a with ⟨x, d₁⟩
  change d₁.written = d.written at hw
  cases x with
  | error e => simp
  | ok r₁ =>
      constructor
      · rintro ⟨hd, hr⟩
        cases hd
        have hrr : r₁ = r := by simpa [hw] using hr
        subst hrr
        exact ⟨rfl, by rw [hw]⟩
      · rintro ⟨hr, rfl⟩
        cases hr
        exact ⟨by rw [← hw], rfl⟩

end Manager

end Libport
